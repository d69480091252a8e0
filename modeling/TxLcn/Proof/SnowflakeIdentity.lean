import Mathlib.Data.Finset.Prod
import Mathlib.Order.Interval.Finset.Nat
import TxLcn.Lib.Lease
import TxLcn.Tm.NodeInitiator

/-!
# Whether live TMs have different identities

There are 961 pairs. A TM that has found none of them free starts again from the
first one, and returns from `init` with it whether it is free or not. That is
one way for two TMs to get one identity (`identity_shared`), and
`identity_unshared` says which others there are: a TM that returns without its
record, and writes or deletes under a key that is no longer its own.
-/

namespace TxLcn.Proof

open TxLcn.Lib TxLcn.Tm TmNodes TmNodeInitiator

variable {Tm : Type}

/-- The pair that a live TM makes its ids with. -/
def identity (s : TmNodes Tm) (tm : Tm) : Option (Nat × Nat) :=
  if (s.initiators tm).live then (s.initiators tm).snowflakeVo.map SnowflakeVo.pair else none

/-- No two live TMs have the same identity, and none has lost its record to another. -/
def IdentityUnshared (s : TmNodes Tm) : Prop :=
  Exclusive (identity s) ∧ s.harmed = false

/-- The key of a live TM does not expire. -/
def KeptAlive (s : TmNodes Tm) : TmNodeEvent Tm → Prop
  | .expire key => ∀ tm, (s.initiators tm).live → (s.initiators tm).tmId ≠ some key
  | _ => True

/-- Whatever is found under `key`, it was `tm` that registered there. -/
def Own (s : TmNodes Tm) (tm : Tm) (key : String) : Prop :=
  ∀ entry, s.redis key = some entry → entry.registrant = tm

/-- `hasKey` is the last step of `init`. -/
def Returns (s : TmNodes Tm) (tm : Tm) : Prop :=
  (s.initiators tm).stopTrying
    ∨ (s.initiators tm).init = .checking true ∧ ((s.initiators tm).tmId.bind s.redis).isSome

/--
A TM returns from `init` with a record of its own. A TM that is not live, or has
another key by now, writes and deletes no record but its own.
-/
def KeepsToItsOwn (s : TmNodes Tm) : TmNodeEvent Tm → Prop
  | .hasKey tm => Returns s tm →
      ∃ entry, (s.initiators tm).tmId.bind s.redis = some entry ∧ entry.registrant = tm
  | .set tm _ => ∀ tmNodeInfo, (s.initiators tm).tmNodeInfo = some tmNodeInfo →
      (s.initiators tm).live ∧ (s.initiators tm).tmId = some tmNodeInfo.tmId
        ∨ Own s tm tmNodeInfo.tmId
  | .destroy tm => ∀ key, (s.initiators tm).tmId = some key →
      (s.initiators tm).live ∨ Own s tm key
  | _ => True

/-! ## Every live TM has its record -/

/-- A live TM has registered under its key. -/
structure OwnersKnown (s : TmNodes Tm) : Prop where
  own : ∀ tm key, (s.initiators tm).live → (s.initiators tm).tmId = some key →
    ∃ entry, s.redis key = some entry ∧ entry.registrant = tm
  unharmed : s.harmed = false

variable {s t : TmNodes Tm}

theorem ownersKnown_init : OwnersKnown ({} : TmNodes Tm) where
  own := by
    intro tm key hlive
    simp [live] at hlive
  unharmed := rfl

theorem OwnersKnown.identityUnshared (hs : OwnersKnown s) : IdentityUnshared s := by
  refine ⟨?_, hs.unharmed⟩
  refine exclusive_of_owner (fun p => (s.redis (tmIdOf p.1 p.2)).map Entry.registrant) ?_
  intro tm p h
  unfold identity at h
  split at h
  · rename_i hlive
    obtain ⟨vo, hvo, rfl⟩ := Option.map_eq_some_iff.mp h
    have hkey : (s.initiators tm).tmId = some vo.tmId := by rw [tmId, hvo]; rfl
    obtain ⟨entry, hentry, hregistrant⟩ := hs.own tm vo.tmId hlive hkey
    have hentry' : s.redis (tmIdOf vo.pair.1 vo.pair.2) = some entry := hentry
    rw [hentry', ← hregistrant]
    rfl
  · cases h

/-- What a live TM finds under its key is its own. -/
theorem OwnersKnown.own_of_live {tm : Tm} {key : String} (hs : OwnersKnown s)
    (hlive : (s.initiators tm).live) (hkey : (s.initiators tm).tmId = some key) :
    Own s tm key := by
  intro entry hentry
  obtain ⟨entry', hentry', hregistrant⟩ := hs.own tm key hlive hkey
  cases hentry.symm.trans hentry'
  exact hregistrant

variable [DecidableEq Tm]

/-- Nobody is harmed by what a TM does to its own record. -/
theorem harms_eq_false_of_own {tm : Tm} {key : String} (h : Own s tm key) :
    s.harms tm key = false := by
  unfold harms
  cases hentry : s.redis key with
  | none => rfl
  | some entry => simp [h entry hentry]

omit [DecidableEq Tm] in
/-- Who writes its own record, or one that is not there, is who has registered it. -/
theorem registrant_of_own {tm : Tm} {key : String} (h : Own s tm key) :
    s.registrant tm key = tm := by
  unfold registrant
  cases hentry : s.redis key with
  | none => rfl
  | some entry => exact h entry hentry

/--
One TM moves. It keeps the records of the others, and has a record of its own
if it is live afterwards.
-/
theorem OwnersKnown.move (hs : OwnersKnown s) (tm : Tm)
    (hothers : ∀ tm', tm' ≠ tm → t.initiators tm' = s.initiators tm')
    (hkeep : ∀ key entry, entry.registrant ≠ tm → s.redis key = some entry →
      t.redis key = some entry)
    (hself : ∀ key, (t.initiators tm).live → (t.initiators tm).tmId = some key →
      ∃ entry, t.redis key = some entry ∧ entry.registrant = tm)
    (hharmed : t.harmed = false) : OwnersKnown t where
  own := by
    intro tm' key hlive hkey
    by_cases heq : tm' = tm
    · subst heq
      exact hself key hlive hkey
    · rw [hothers tm' heq] at hlive hkey
      obtain ⟨entry, hentry, hregistrant⟩ := hs.own tm' key hlive hkey
      exact ⟨entry, hkeep key entry (fun h => heq (hregistrant.symm.trans h)) hentry, hregistrant⟩
  unharmed := hharmed

section

variable {hostAndPort : Tm → String} {tm : Tm}

omit [DecidableEq Tm] in
/-- `init` has returned by one of its two exits. -/
theorem returns_of_live {isSetKey : Bool} (hinit : (s.initiators tm).init = .checking isSetKey)
    (hlive : ((s.initiators tm).checked isSetKey
      ((s.initiators tm).tmId.bind s.redis).isSome).live) : Returns s tm := by
  have hend := (live_iff.mp hlive).1
  unfold checked at hend
  dsimp only at hend
  split at hend
  · rename_i hset
    rw [Bool.and_eq_true] at hset
    exact Or.inr ⟨hinit.trans (by rw [hset.2]), hset.1⟩
  · split at hend
    · rename_i hstop
      exact Or.inl hstop
    · cases hend

theorem ownersKnown_setIfAbsent (hs : OwnersKnown s)
    (h : step hostAndPort s (.setIfAbsent tm) = some t) : OwnersKnown t := by
  simp only [step] at h
  split at h
  · cases h
  · cases h
    refine hs.move tm (fun tm' hne => ?_) (fun key entry _ hentry => ?_) ?_ ?_
    · rw [setInitiator_of_ne hne, register_initiators]
    · exact register_redis hentry
    · intro key hlive
      rw [setInitiator_self, live_iff] at hlive
      cases hlive.1
    · unfold setInitiator register
      split <;> exact hs.unharmed

theorem ownersKnown_hasKey (hs : OwnersKnown s) (hown : KeepsToItsOwn s (.hasKey tm))
    (h : step hostAndPort s (.hasKey tm) = some t) : OwnersKnown t := by
  simp only [step] at h
  split at h
  · rename_i isSetKey hinit
    cases h
    refine hs.move tm (fun tm' hne => setInitiator_of_ne hne) (fun _ _ _ h => h) ?_ hs.unharmed
    intro key hlive hkey
    rw [setInitiator_self] at hlive hkey
    obtain ⟨entry, hentry, hregistrant⟩ := hown (returns_of_live hinit hlive)
    have htm : (s.initiators tm).tmId = some key := hkey
    rw [htm] at hentry
    exact ⟨entry, hentry, hregistrant⟩
  · cases h

theorem ownersKnown_getTmNodeInfo (hs : OwnersKnown s)
    (h : step hostAndPort s (.getTmNodeInfo tm) = some t) : OwnersKnown t := by
  simp only [step] at h
  split at h
  · cases h
  · cases h
    refine hs.move tm (fun tm' hne => setInitiator_of_ne hne) (fun _ _ _ h => h) ?_ hs.unharmed
    intro key hlive hkey
    rw [setInitiator_self] at hlive hkey
    exact hs.own tm key hlive hkey

theorem ownersKnown_set {connections : Nat} (hs : OwnersKnown s)
    (hown : KeepsToItsOwn s (.set tm connections))
    (h : step hostAndPort s (.set tm connections) = some t) : OwnersKnown t := by
  simp only [step] at h
  obtain ⟨tmNodeInfo, hread, rfl⟩ := Option.map_eq_some_iff.mp h
  have hmine : Own s tm tmNodeInfo.tmId := by
    rcases hown tmNodeInfo hread with ⟨hlive, hkey⟩ | hmine
    · exact hs.own_of_live hlive hkey
    · exact hmine
  refine hs.move tm (fun tm' hne => Function.update_of_ne hne ..) ?_ ?_ ?_
  · intro key entry hregistrant hentry
    have hne : key ≠ tmNodeInfo.tmId := by
      rintro rfl
      exact hregistrant (hmine entry hentry)
    exact (Function.update_of_ne hne ..).trans hentry
  · intro key hlive hkey
    dsimp only at hlive hkey ⊢
    rw [Function.update_self] at hlive hkey
    by_cases hsame : key = tmNodeInfo.tmId
    · subst hsame
      exact ⟨_, Function.update_self .., registrant_of_own hmine⟩
    · rw [Function.update_of_ne hsame]
      exact hs.own tm key hlive hkey
  · simp [hs.unharmed, harms_eq_false_of_own hmine]

theorem ownersKnown_destroy (hs : OwnersKnown s) (hown : KeepsToItsOwn s (.destroy tm))
    (h : step hostAndPort s (.destroy tm) = some t) : OwnersKnown t := by
  simp only [step] at h
  split at h
  · cases h
  · cases h
    have hmine : ∀ key, (s.initiators tm).tmId = some key → Own s tm key := by
      intro key hkey
      rcases hown key hkey with hlive | hmine
      · exact hs.own_of_live hlive hkey
      · exact hmine
    refine hs.move tm (fun tm' hne => Function.update_of_ne hne ..) ?_ ?_ ?_
    · intro key entry hregistrant hentry
      have hne : (s.initiators tm).tmId ≠ some key := fun hkey =>
        hregistrant (hmine key hkey entry hentry)
      exact (if_neg hne).trans hentry
    · intro key hlive
      dsimp only at hlive
      rw [Function.update_self, live_iff] at hlive
      cases hlive.2
    · dsimp only
      rw [hs.unharmed, Bool.false_or]
      cases hkey : (s.initiators tm).tmId with
      | none => rfl
      | some key => exact harms_eq_false_of_own (hmine key hkey)

theorem ownersKnown_expire {key : String} (hs : OwnersKnown s) (halive : KeptAlive s (.expire key))
    (h : step hostAndPort s (.expire key) = some t) : OwnersKnown t := by
  cases h
  refine ⟨?_, hs.unharmed⟩
  intro tm key' hlive hkey
  have hne : key' ≠ key := by
    rintro rfl
    exact halive tm hlive hkey
  obtain ⟨entry, hentry, hregistrant⟩ := hs.own tm key' hlive hkey
  exact ⟨entry, (Function.update_of_ne hne ..).trans hentry, hregistrant⟩

/-- **A step in which everybody keeps to what is its own leaves every live TM its record.** -/
theorem ownersKnown_step {e : TmNodeEvent Tm} (hs : OwnersKnown s)
    (hc : KeptAlive s e ∧ KeepsToItsOwn s e) (h : step hostAndPort s e = some t) :
    OwnersKnown t := by
  obtain ⟨halive, hown⟩ := hc
  cases e with
  | setIfAbsent tm => exact ownersKnown_setIfAbsent hs h
  | hasKey tm => exact ownersKnown_hasKey hs hown h
  | getTmNodeInfo tm => exact ownersKnown_getTmNodeInfo hs h
  | set tm connections => exact ownersKnown_set hs hown h
  | destroy tm => exact ownersKnown_destroy hs hown h
  | expire key => exact ownersKnown_expire hs halive h

end

/--
**No two live TMs have the same identity, as long as everybody keeps to what is its own.**

The keys of live TMs do not expire, a TM returns from `init` with a record of
its own, and a TM that is not live any more, or not yet, writes and deletes
nobody else's. Then live TMs have different pairs, and none of them loses its
record to another.
-/
theorem identity_unshared (hostAndPort : Tm → String) (es : List (TmNodeEvent Tm))
    (hC : AllSteps (step hostAndPort) (fun s e => KeptAlive s e ∧ KeepsToItsOwn s e) {} es) :
    AllStates (step hostAndPort) IdentityUnshared {} es :=
  allStates_of_allSteps (fun _ hs => hs.identityUnshared)
    (fun _ _ _ hs hc h => ownersKnown_step hs hc h) ownersKnown_init hC

/-- Two TMs start, one writes back what it has read and the other one is destroyed. -/
theorem identity_unshared_two :
    AllStates (step fun _ : Bool => "10.0.0.1:8070") IdentityUnshared {}
      [.setIfAbsent false, .hasKey false, .setIfAbsent true, .hasKey true, .setIfAbsent true,
        .hasKey true, .getTmNodeInfo false, .set false 2, .destroy true] := by
  refine identity_unshared _ _ ?_
  intro t ht
  cases ht
  refine ⟨⟨trivial, trivial⟩, ?_⟩
  intro t ht
  cases ht
  refine ⟨⟨trivial, fun _ => ⟨_, rfl, rfl⟩⟩, ?_⟩
  intro t ht
  cases ht
  refine ⟨⟨trivial, trivial⟩, ?_⟩
  intro t ht
  cases ht
  -- the first pair is taken
  refine ⟨⟨trivial, ?_⟩, ?_⟩
  · rintro (h | ⟨h, _⟩) <;> cases h
  intro t ht
  cases ht
  refine ⟨⟨trivial, trivial⟩, ?_⟩
  intro t ht
  cases ht
  refine ⟨⟨trivial, fun _ => ⟨_, rfl, rfl⟩⟩, ?_⟩
  intro t ht
  cases ht
  refine ⟨⟨trivial, trivial⟩, ?_⟩
  intro t ht
  cases ht
  refine ⟨⟨trivial, ?_⟩, ?_⟩
  · intro r hr
    cases hr
    exact Or.inl ⟨rfl, rfl⟩
  intro t ht
  cases ht
  exact ⟨⟨trivial, fun _ _ => Or.inl rfl⟩, trivial⟩

/-- A TM is destroyed while it refreshes its record, and another one has taken the pair since. -/
example : (exec (step fun _ : Bool => "10.0.0.1:8070") {}
    [.setIfAbsent false, .hasKey false, .getTmNodeInfo false, .destroy false, .setIfAbsent true,
      .hasKey true, .set false 2]).map TmNodes.harmed = some true := rfl

/-! ## More TMs than pairs -/

/-- The pairs there are. -/
def pairs : Finset (Nat × Nat) := Finset.Icc 1 31 ×ˢ Finset.Icc 1 31

theorem pairs_card : pairs.card = 961 := by
  rw [pairs, Finset.card_product, Nat.card_Icc]

omit [DecidableEq Tm] in
theorem identity_mem {tm : Tm} {p : Nat × Nat} (h : identity s tm = some p) : p ∈ pairs := by
  unfold identity at h
  split at h
  · obtain ⟨vo, _, rfl⟩ := Option.map_eq_some_iff.mp h
    exact Finset.mem_product.mpr ⟨Finset.mem_Icc.mpr vo.dataCenterId_mem,
      Finset.mem_Icc.mpr vo.workerId_mem⟩
  · cases h

omit [DecidableEq Tm] in
/-- No more than 961 TMs have an identity of their own. -/
theorem card_le_of_identityUnshared (h : IdentityUnshared s) (tms : Finset Tm)
    (hlive : ∀ tm ∈ tms, (identity s tm).isSome) : tms.card ≤ 961 := by
  rw [← pairs_card]
  refine h.1.card_le ?_
  intro tm htm
  obtain ⟨p, hp⟩ := Option.isSome_iff_exists.mp (hlive tm htm)
  exact ⟨p, identity_mem hp, hp⟩

/-- One `tryInit`: `init` returns, or has come one pair further. -/
theorem exec_tryInit (hostAndPort : Tm → String) {tm : Tm}
    (hatt : (s.initiators tm).init = .attempting) :
    ∃ t, exec (step hostAndPort) s [.setIfAbsent tm, .hasKey tm] = some t
      ∧ (∀ tm', tm' ≠ tm → t.initiators tm' = s.initiators tm')
      ∧ (t.initiators tm).snowflakeVo = some (nextKey (s.initiators tm).snowflakeVo).1
      ∧ (t.initiators tm).destroyed = (s.initiators tm).destroyed
      ∧ ((t.initiators tm).init = .returned ∨ (t.initiators tm).init = .attempting
        ∧ (nextKey (s.initiators tm).snowflakeVo).2 = false) := by
  obtain ⟨s', hinitiators, isSetKey, hset⟩ :=
    step_setIfAbsent hostAndPort hatt
  have hself : (s'.setInitiator tm ((s.initiators tm).tryInit isSetKey)).initiators tm
      = (s.initiators tm).tryInit isSetKey := setInitiator_self
  have hchecking : ((s'.setInitiator tm ((s.initiators tm).tryInit isSetKey)).initiators tm).init
      = .checking isSetKey := by rw [hself]; rfl
  have hrun := exec_cons_some.mpr
    ⟨_, hset, (exec_singleton _ _).trans (step_hasKey hostAndPort hchecking)⟩
  refine ⟨_, hrun, ?_, ?_, ?_, ?_⟩
  · intro tm' hne
    rw [setInitiator_of_ne hne, setInitiator_of_ne hne, hinitiators]
  · rw [setInitiator_self, hself]
    rfl
  · rw [setInitiator_self, hself]
    rfl
  · rw [setInitiator_self, hself]
    unfold checked
    dsimp only
    split
    · exact Or.inl rfl
    · split
      · exact Or.inl rfl
      · rename_i hstop
        simp only [tryInit, Bool.or_eq_true, not_or, Bool.not_eq_true] at hstop
        exact Or.inr ⟨rfl, hstop.2⟩

/-- `init` returns, with fewer than `n` pairs left before it starts again. -/
theorem exec_init (hostAndPort : Tm → String) (tm : Tm) (n : Nat) (s : TmNodes Tm)
    (hleft : pairsLeft (s.initiators tm).snowflakeVo < n)
    (hatt : (s.initiators tm).init = .attempting) (hdes : (s.initiators tm).destroyed = false) :
    ∃ es t, (∀ e ∈ es, ∀ s', KeptAlive s' e) ∧ exec (step hostAndPort) s es = some t
      ∧ (∀ tm', tm' ≠ tm → t.initiators tm' = s.initiators tm') ∧ (identity t tm).isSome := by
  induction n generalizing s with
  | zero => exact absurd hleft (Nat.not_lt_zero _)
  | succ n ih =>
      obtain ⟨s', hrun, hothers, hvo, hdes', hend⟩ := exec_tryInit hostAndPort hatt
      have halive : ∀ e ∈ [TmNodeEvent.setIfAbsent tm, .hasKey tm], ∀ s'', KeptAlive s'' e := by
        intro e he s''
        simp only [List.mem_cons, List.not_mem_nil, or_false] at he
        rcases he with rfl | rfl <;> trivial
      rcases hend with hreturned | ⟨hatt', hnext⟩
      · refine ⟨_, s', halive, hrun, hothers, ?_⟩
        unfold identity
        rw [if_pos (live_iff.mpr ⟨hreturned, hdes'.trans hdes⟩), hvo]
        rfl
      · have hless := nextKey_pairsLeft hnext
        obtain ⟨es, t, halive', hrun', hothers', hidentity⟩ :=
          ih s' (by rw [hvo]; omega) hatt' (hdes'.trans hdes)
        refine ⟨_, t, ?_, exec_append_some.mpr ⟨s', hrun, hrun'⟩, ?_, hidentity⟩
        · intro e he
          rcases List.mem_append.mp he with he | he
          · exact halive e he
          · exact halive' e he
        · intro tm' hne
          exact (hothers' tm' hne).trans (hothers tm' hne)

/-- The TMs of any number start one after the other, and none is destroyed. -/
theorem exec_crowd (hostAndPort : Nat → String) (n : Nat) :
    ∃ es t, (∀ e ∈ es, ∀ s', KeptAlive s' e) ∧ exec (step hostAndPort) {} es = some t
      ∧ (∀ tm < n, (identity t tm).isSome) ∧ ∀ tm ≥ n, t.initiators tm = {} := by
  induction n with
  | zero =>
      refine ⟨[], {}, ?_, rfl, ?_, fun _ _ => rfl⟩
      · intro e he
        cases he
      · intro tm htm
        omega
  | succ n ih =>
      obtain ⟨es, s, halive, hrun, hlive, hfresh⟩ := ih
      have hnew := hfresh n (Nat.le_refl n)
      obtain ⟨es', t, halive', hrun', hothers, hidentity⟩ :=
        exec_init hostAndPort n 962 s (by rw [hnew]; decide) (by rw [hnew]) (by rw [hnew])
      refine ⟨es ++ es', t, ?_, exec_append_some.mpr ⟨s, hrun, hrun'⟩, ?_, ?_⟩
      · intro e he
        rcases List.mem_append.mp he with he | he
        · exact halive e he
        · exact halive' e he
      · intro tm htm
        by_cases heq : tm = n
        · rw [heq]
          exact hidentity
        · have hsame : identity t tm = identity s tm := by
            unfold identity
            rw [hothers tm heq]
          rw [hsame]
          exact hlive tm (by omega)
      · intro tm htm
        rw [hothers tm (by omega)]
        exact hfresh tm (by omega)

/-- When 962 TMs are live, two of them have the same identity. -/
theorem identity_shared :
    ¬ ∀ (Tm : Type) [DecidableEq Tm] (hostAndPort : Tm → String) (es : List (TmNodeEvent Tm)),
      AllSteps (step hostAndPort) KeptAlive {} es →
      AllStates (step hostAndPort) IdentityUnshared {} es := by
  intro h
  obtain ⟨es, t, halive, hrun, hlive, _⟩ := exec_crowd (fun _ => "10.0.0.1:8070") 962
  have hkept : AllSteps (step fun _ : Nat => "10.0.0.1:8070") KeptAlive {} es :=
    allSteps_of_forall halive {}
  have hall := h Nat _ es hkept
  have hcard := card_le_of_identityUnshared (hall.last hrun) (Finset.range 962)
    fun tm htm => hlive tm (Finset.mem_range.mp htm)
  rw [Finset.card_range] at hcard
  omega

end TxLcn.Proof
