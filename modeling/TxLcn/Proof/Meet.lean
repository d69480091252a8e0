import TxLcn.Proof.Forgotten
import TxLcn.Tm.TmNodeServerRunner

/-!
# Whether the TMs find each other

A TM puts its record into the store and looks the others up there, and so do they.
Of two TMs that have both looked around since they were registered, the one that
was registered later has found the other: that one's record was there already.
The two need not find each other both ways, and in between anything may happen.

`tms_meet` is about any number of TMs that start in any order. It needs the records
to stay in the store, and what a scan returns to hold every key that is there.
-/

namespace TxLcn.Proof

open TxLcn.Lib TxLcn.Tm TmCluster

variable {Tm : Type} [DecidableEq Tm] {hostAndPort : Tm → String}
  {addressFormat : String → Option (String × Nat)} {address : Tm → String × Nat}
  {s t : TmCluster Tm} {m m' : Tm} {r r' : TmNodeServerRunner}

/-- No TM that is registered loses its record, and a scan finds every key that is there. -/
def StaysListed (hostAndPort : Tm → String) (s : TmCluster Tm) : Event Tm → Prop
  | .registry e => ∀ nodes, s.nodes.step hostAndPort e = some nodes →
      ∀ m, registered hostAndPort s.nodes m = true → registered hostAndPort nodes m = true
  | .scan _ keys => ∀ key, (s.nodes.redis key).isSome = true → key ∈ keys
  | _ => True

/-! ## The records -/

omit [DecidableEq Tm] in
/-- The record of a registered TM. -/
theorem registered_record {nodes : TmNodes Tm} (h : registered hostAndPort nodes m = true) :
    ∃ key entry, (nodes.initiators m).tmId = some key ∧ nodes.redis key = some entry
      ∧ entry.tmNodeInfo.hostAndPort = hostAndPort m := by
  simp only [registered, Bool.and_eq_true, decide_eq_true_eq, Option.any_eq_true] at h
  obtain ⟨_, entry, hentry, hhost⟩ := h
  obtain ⟨key, hkey, hredis⟩ := Option.bind_eq_some_iff.mp hentry
  exact ⟨key, entry, hkey, hredis, hhost⟩

omit [DecidableEq Tm] in
theorem registered_returned {nodes : TmNodes Tm} (h : registered hostAndPort nodes m = true) :
    (nodes.initiators m).init = .returned := by
  simp only [registered, Bool.and_eq_true, decide_eq_true_eq] at h
  exact h.1

/-- Once `init` has returned, the TM keeps its key. -/
theorem tmId_step {n n' : TmNodes Tm} {e : TmNodeEvent Tm}
    (hinit : (n.initiators m).init = .returned) (h : n.step hostAndPort e = some n') :
    (n'.initiators m).tmId = (n.initiators m).tmId := by
  have hset : ∀ tm i, ((n.initiators tm).init = .returned → i.tmId = (n.initiators tm).tmId) →
      (Function.update n.initiators tm i m).tmId = (n.initiators m).tmId := by
    intro tm i hi
    by_cases htm : m = tm
    · subst htm
      rw [Function.update_self]
      exact hi hinit
    · rw [Function.update_of_ne htm]
  cases e with
  | setIfAbsent tm =>
      simp only [TmNodes.step] at h
      split at h
      · cases h
      · rename_i hattempting
        cases h
        show (Function.update (n.register tm _).initiators tm _ m).tmId = _
        rw [TmNodes.register_initiators]
        exact hset tm _ fun hreturned => absurd (by simp [hreturned]) hattempting
  | hasKey tm =>
      simp only [TmNodes.step] at h
      split at h
      · cases h
        exact hset tm _ fun _ => rfl
      · cases h
  | getTmNodeInfo tm =>
      simp only [TmNodes.step] at h
      split at h
      · cases h
      · cases h
        exact hset tm _ fun _ => rfl
  | set tm connections =>
      obtain ⟨_, _, rfl⟩ := Option.map_eq_some_iff.mp h
      exact hset tm _ fun _ => rfl
  | destroy tm =>
      simp only [TmNodes.step] at h
      split at h
      · cases h
      · cases h
        exact hset tm _ fun _ => rfl
  | expire key =>
      cases h
      rfl

/-! ## What a TM has looked up -/

/-- Everything that the TM has looked up since it was registered has, or will have, the address. -/
structure Covered (r : TmNodeServerRunner) (tmId : Option String) (a : String × Nat) : Prop where
  lookup : ∀ l, r.lookup = some l → l.registered = true →
    a ∈ l.iNetSocketAddresses ∨ ∃ key ∈ l.keys, tmId = some key
  complete : r.complete = true → a ∈ r.connectTo

variable {tmId : Option String} {a : String × Nat}

theorem covered_scan {registered : Bool} {keys : List String} (hr : Covered r tmId a)
    (hkeys : ∃ key ∈ keys, tmId = some key) (h : r.scan registered keys = some r') :
    Covered r' tmId a := by
  unfold TmNodeServerRunner.scan at h
  split at h
  · cases h
  · cases h
    exact ⟨by rintro l ⟨⟩ _; exact Or.inr hkeys, hr.complete⟩

theorem covered_read {redis : String → Option TmNodeInfo}
    {otherAddress : TmNodeInfo → Option (String × Nat)} (hr : Covered r tmId a)
    (hfound : ∀ key, tmId = some key → ∃ info, redis key = some info ∧ otherAddress info = some a)
    (h : r.read redis otherAddress = some r') : Covered r' tmId a := by
  unfold TmNodeServerRunner.read at h
  split at h
  · rename_i key keys iNetSocketAddresses registered hlookup
    split at h
    · -- the task ends here
      cases h
      exact ⟨by rintro l ⟨⟩, hr.complete⟩
    · rename_i tmNodeInfo hvalue
      cases h
      refine ⟨?_, hr.complete⟩
      rintro l ⟨⟩ hregistered
      rcases hr.lookup _ hlookup hregistered with hin | ⟨key', hkey', htmId⟩
      · exact Or.inl (List.mem_append_left _ hin)
      · rcases List.mem_cons.mp hkey' with rfl | hrest
        · obtain ⟨info, hinfo, haddress⟩ := hfound key' htmId
          rw [hvalue] at hinfo
          cases hinfo
          exact Or.inl (List.mem_append_right _ (by rw [haddress]; simp))
        · exact Or.inr ⟨key', hrest, htmId⟩
  · cases h

theorem covered_connect (hr : Covered r tmId a) (h : r.connect = some r') :
    Covered r' tmId a := by
  unfold TmNodeServerRunner.connect at h
  split at h
  · rename_i iNetSocketAddresses registered hlookup
    cases h
    refine ⟨(by rintro l ⟨⟩), fun hcomplete => ?_⟩
    rcases Bool.or_eq_true_iff.mp hcomplete with hold | hregistered
    · exact List.mem_append_left _ (hr.complete hold)
    · rcases hr.lookup _ hlookup hregistered with hin | ⟨_, hkey, _⟩
      · exact List.mem_append_right _ (List.mem_eraseDups.mpr hin)
      · cases hkey
  · cases h

/-! ## The invariant -/

/-- Of two registered TMs one has found the other, as far as both have looked. -/
structure Meeting (hostAndPort : Tm → String) (address : Tm → String × Nat)
    (s : TmCluster Tm) : Prop where
  lookup : ∀ m l, (s.runners m).lookup = some l → l.registered = true →
    registered hostAndPort s.nodes m = true
  complete : ∀ m, (s.runners m).complete = true → registered hostAndPort s.nodes m = true
  meets : ∀ m m', hostAndPort m ≠ hostAndPort m' →
    registered hostAndPort s.nodes m = true → registered hostAndPort s.nodes m' = true →
    Covered (s.runners m) (s.nodes.initiators m').tmId (address m')
      ∨ Covered (s.runners m') (s.nodes.initiators m).tmId (address m)

omit [DecidableEq Tm] in
theorem meeting_init : Meeting hostAndPort address ({} : TmCluster Tm) where
  lookup := by rintro m l ⟨⟩
  complete := by rintro m ⟨⟩
  meets m m' _ _ _ := Or.inl ⟨by rintro l ⟨⟩, by rintro ⟨⟩⟩

omit [DecidableEq Tm] in
/-- Who was not registered has not looked anything up since. -/
theorem covered_of_unregistered (hs : Meeting hostAndPort address s)
    (hm : registered hostAndPort s.nodes m ≠ true) : Covered (s.runners m) tmId a where
  lookup l hl hregistered := absurd (hs.lookup m l hl hregistered) hm
  complete hcomplete := absurd (hs.complete m hcomplete) hm

theorem meeting_registry {e : TmNodeEvent Tm} (hs : Meeting hostAndPort address s)
    (hC : StaysListed hostAndPort s (.registry e))
    (h : s.step hostAndPort addressFormat (.registry e) = some t) :
    Meeting hostAndPort address t := by
  obtain ⟨nodes, hnodes, rfl⟩ := Option.map_eq_some_iff.mp h
  have hstays := hC nodes hnodes
  refine ⟨fun m l hl hr => hstays m (hs.lookup m l hl hr), fun m hc => hstays m (hs.complete m hc),
    fun m m' hne _ _ => ?_⟩
  show Covered _ (nodes.initiators m').tmId _ ∨ Covered _ (nodes.initiators m).tmId _
  by_cases hm : registered hostAndPort s.nodes m = true
  · by_cases hm' : registered hostAndPort s.nodes m' = true
    · rw [tmId_step (registered_returned hm) hnodes, tmId_step (registered_returned hm') hnodes]
      exact hs.meets m m' hne hm hm'
    · exact Or.inr (covered_of_unregistered (s := s) hs hm')
  · exact Or.inl (covered_of_unregistered (s := s) hs hm)

/-- A TM goes on with its task. -/
theorem meeting_setRunner {tm : Tm} (hs : Meeting hostAndPort address s)
    (hlookup : ∀ l, r.lookup = some l → l.registered = true →
      registered hostAndPort s.nodes tm = true)
    (hcomplete : r.complete = true → registered hostAndPort s.nodes tm = true)
    (hcovered : ∀ m, hostAndPort tm ≠ hostAndPort m → registered hostAndPort s.nodes m = true →
      Covered (s.runners tm) (s.nodes.initiators m).tmId (address m) →
      Covered r (s.nodes.initiators m).tmId (address m)) :
    Meeting hostAndPort address (s.setRunner tm r) := by
  have hkeeps : ∀ m m', hostAndPort m ≠ hostAndPort m' →
      registered hostAndPort s.nodes m' = true →
      Covered (s.runners m) (s.nodes.initiators m').tmId (address m') →
      Covered ((s.setRunner tm r).runners m) (s.nodes.initiators m').tmId (address m') := by
    intro m m' hne hm' hold
    by_cases hm : m = tm
    · subst hm
      rw [setRunner_self]
      exact hcovered m' hne hm' hold
    · rw [setRunner_of_ne hm]
      exact hold
  refine ⟨fun m l hl hr => ?_, fun m hc => ?_, fun m m' hne hm hm' => ?_⟩
  · by_cases htm : m = tm
    · subst htm
      rw [setRunner_self] at hl
      exact hlookup l hl hr
    · rw [setRunner_of_ne htm] at hl
      exact hs.lookup m l hl hr
  · by_cases htm : m = tm
    · subst htm
      rw [setRunner_self] at hc
      exact hcomplete hc
    · rw [setRunner_of_ne htm] at hc
      exact hs.complete m hc
  · exact (hs.meets m m' hne hm hm').imp (hkeeps m m' hne hm') (hkeeps m' m (Ne.symm hne) hm)

/-- **Of two registered TMs one goes on having found the other.** -/
theorem meeting_step {e : Event Tm}
    (haddress : ∀ m, addressFormat (hostAndPort m) = some (address m))
    (hs : Meeting hostAndPort address s) (hC : StaysListed hostAndPort s e)
    (h : s.step hostAndPort addressFormat e = some t) : Meeting hostAndPort address t := by
  cases e with
  | registry e => exact meeting_registry hs hC h
  | scan tm keys =>
      obtain ⟨r, hr, rfl⟩ := Option.map_eq_some_iff.mp h
      refine meeting_setRunner hs ?_ ?_ fun m _ hm hold => covered_scan hold ?_ hr
      · intro l hl hregistered
        unfold TmNodeServerRunner.scan at hr
        split at hr
        · cases hr
        · cases hr
          cases hl
          exact hregistered
      · intro hcomplete
        unfold TmNodeServerRunner.scan at hr
        split at hr
        · cases hr
        · cases hr
          exact hs.complete tm hcomplete
      · -- the record of `m` is there, so the scan finds its key
        obtain ⟨key, entry, htmId, hredis, _⟩ := registered_record hm
        exact ⟨key, hC key (by rw [hredis]; rfl), htmId⟩
  | read tm =>
      obtain ⟨r, hr, rfl⟩ := Option.map_eq_some_iff.mp h
      have hsame : r.complete = (s.runners tm).complete ∧ ∀ l, r.lookup = some l →
          ∃ l', (s.runners tm).lookup = some l' ∧ l'.registered = l.registered := by
        unfold TmNodeServerRunner.read at hr
        split at hr
        · rename_i hlookup
          split at hr
          · cases hr
            exact ⟨rfl, by rintro l ⟨⟩⟩
          · cases hr
            exact ⟨rfl, by rintro l ⟨⟩; exact ⟨_, hlookup, rfl⟩⟩
        · cases hr
      refine meeting_setRunner hs ?_ ?_ fun m hne hm hold => covered_read hold ?_ hr
      · intro l hl hregistered
        obtain ⟨l', hl', heq⟩ := hsame.2 l hl
        exact hs.lookup tm l' hl' (heq.trans hregistered)
      · intro hcomplete
        exact hs.complete tm (hsame.1 ▸ hcomplete)
      · intro key htmId
        obtain ⟨key', entry, htmId', hredis, hhost⟩ := registered_record hm
        obtain rfl : key' = key := Option.some.inj (htmId'.symm.trans htmId)
        refine ⟨entry.tmNodeInfo, by rw [hredis]; rfl, ?_⟩
        unfold TmNodeInfo.otherAddress
        rw [hhost, if_neg (Ne.symm hne), haddress]
  | connect tm =>
      obtain ⟨r, hr, rfl⟩ := Option.map_eq_some_iff.mp h
      refine meeting_setRunner hs ?_ ?_ fun m _ _ hold => covered_connect hold hr
      · intro l hl
        unfold TmNodeServerRunner.connect at hr
        split at hr
        · cases hr
          cases hl
        · cases hr
      · intro hcomplete
        unfold TmNodeServerRunner.connect at hr
        split at hr
        · rename_i hlookup
          cases hr
          rcases Bool.or_eq_true_iff.mp hcomplete with hold | hregistered
          · exact hs.complete tm hold
          · exact hs.lookup tm _ hlookup hregistered
        · cases hr

/--
**Any two TMs meet.** In every run in which no registered TM loses its record and each
scan finds every key that is there: if two TMs with different host and port have both
been through with `connectToOtherNode` since they were registered, one of them has
called `connectTo` with the address of the other.
-/
theorem tms_meet (address : Tm → String × Nat) (m m' : Tm)
    (haddress : ∀ m, addressFormat (hostAndPort m) = some (address m)) (es : List (Event Tm))
    (hC : AllSteps (step hostAndPort addressFormat) (StaysListed hostAndPort)
      ({} : TmCluster Tm) es)
    (hrun : exec (step hostAndPort addressFormat) ({} : TmCluster Tm) es = some t)
    (hne : hostAndPort m ≠ hostAndPort m') (hm : (t.runners m).complete = true)
    (hm' : (t.runners m').complete = true) :
    address m' ∈ (t.runners m).connectTo ∨ address m ∈ (t.runners m').connectTo := by
  have ht : Meeting hostAndPort address t := exec_invariant_of_allSteps
    (fun _ _ _ hs hC h => meeting_step haddress hs hC h) meeting_init hC hrun
  refine (ht.meets m m' hne (ht.complete m hm) (ht.complete m' hm')).imp ?_ ?_
  · exact fun hcovered => hcovered.complete hm
  · exact fun hcovered => hcovered.complete hm'

/-- The first one has looked around before the second one is registered. -/
def oneAfterTheOther : List (Event Bool) :=
  [.registry (.setIfAbsent true), .registry (.hasKey true), .scan true ["TxManager_1_1"],
    .registry (.setIfAbsent false), .registry (.hasKey false), .registry (.setIfAbsent false),
    .registry (.hasKey false), .read true, .connect true,
    .scan false ["TxManager_1_1", "TxManager_1_2"], .read false, .read false, .connect false]

theorem second_meets_first : ∃ t, exec (step portOf formatted) ({} : TmCluster Bool)
      oneAfterTheOther = some t
    ∧ (("10.0.0.1", 8071) ∈ (t.runners true).connectTo
      ∨ ("10.0.0.1", 8070) ∈ (t.runners false).connectTo) := by
  have hrun : exec (step portOf formatted) ({} : TmCluster Bool) oneAfterTheOther
      = some _ := rfl
  refine ⟨_, hrun, tms_meet (fun tm => ("10.0.0.1", if tm then 8070 else 8071)) true false
    (by decide) oneAfterTheOther ?_ hrun (by decide) rfl rfl⟩
  have hone : ∀ (entry : Entry Bool) key,
      (Function.update (fun _ => none) "TxManager_1_1" (some entry) key).isSome = true →
      key ∈ ["TxManager_1_1"] := by
    intro entry key hkey
    by_contra hne
    rw [Function.update_of_ne (by simpa using hne)] at hkey
    cases hkey
  have hboth : ∀ (entry entry' : Entry Bool) key,
      (Function.update (Function.update (fun _ => none) "TxManager_1_1" (some entry))
        "TxManager_1_2" (some entry') key).isSome = true →
      key ∈ ["TxManager_1_1", "TxManager_1_2"] := by
    intro entry entry' key hkey
    by_contra hne
    simp only [List.mem_cons, List.not_mem_nil, or_false, not_or] at hne
    rw [Function.update_of_ne hne.2, Function.update_of_ne hne.1] at hkey
    cases hkey
  iterate 2
    refine (allSteps_cons rfl).mpr ⟨?_, ?_⟩
    · rintro nodes ⟨⟩
      intro m hm
      cases m <;> cases hm
  refine (allSteps_cons rfl).mpr ⟨hone _, ?_⟩
  iterate 4
    refine (allSteps_cons rfl).mpr ⟨?_, ?_⟩
    · rintro nodes ⟨⟩
      intro m hm
      cases m with
      | false => cases hm
      | true => rfl
  refine (allSteps_cons rfl).mpr ⟨trivial, ?_⟩
  refine (allSteps_cons rfl).mpr ⟨trivial, ?_⟩
  refine (allSteps_cons rfl).mpr ⟨hboth _ _, ?_⟩
  repeat refine (allSteps_cons rfl).mpr ⟨trivial, ?_⟩
  trivial

end TxLcn.Proof
