import TxLcn.Tm.NodeInitiator

/-!
# Which identity a TM gets

While nobody else changes the store `init` goes through the pairs in
lexicographic order, and takes the first one whose key is free. Every `tryInit`
that fails leaves fewer pairs to try, so it comes to an end.
-/

namespace TxLcn.Proof

open TxLcn.Lib TxLcn.Tm TmNodes TmNodeInitiator

/-! ## The order of the pairs -/

/-- The lexicographic order. -/
def Before (p q : Nat × Nat) : Prop := p.1 < q.1 ∨ p.1 = q.1 ∧ p.2 < q.2

/-- The data center and the worker are between 1 and 31. -/
def IsPair (p : Nat × Nat) : Prop := (1 ≤ p.1 ∧ p.1 ≤ 31) ∧ 1 ≤ p.2 ∧ p.2 ≤ 31

/-- The pair is still to be tried. -/
def Ahead (snowflakeVo : Option SnowflakeVo) (p : Nat × Nat) : Prop :=
  ∀ vo, snowflakeVo = some vo → Before vo.pair p

/-- Unless all pairs have been tried, the next one is the least of those that are left. -/
theorem nextKey_least {snowflakeVo : Option SnowflakeVo} {p : Nat × Nat} (hp : IsPair p)
    (hahead : Ahead snowflakeVo p) : (nextKey snowflakeVo).2 = false
      ∧ (p = (nextKey snowflakeVo).1.pair ∨ Before (nextKey snowflakeVo).1.pair p) := by
  obtain ⟨d, w⟩ := p
  obtain ⟨⟨hd, hd'⟩, hw, hw'⟩ := hp
  dsimp only at hd hd' hw hw'
  cases snowflakeVo with
  | none =>
      refine ⟨rfl, ?_⟩
      simp only [nextKey, SnowflakeVo.pair, SnowflakeVo.first, Before, Prod.mk.injEq]
      omega
  | some vo =>
      have hbefore := hahead vo rfl
      have hvo := vo.workerId_mem
      simp only [SnowflakeVo.pair, Before] at hbefore
      simp only [nextKey]
      split
      · refine ⟨rfl, ?_⟩
        simp only [SnowflakeVo.pair, Before, Prod.mk.injEq]
        omega
      · split
        · refine ⟨rfl, ?_⟩
          simp only [SnowflakeVo.pair, Before, Prod.mk.injEq]
          omega
        · omega

/-- What is not ahead any more has been tried, or is the pair that is tried now. -/
theorem not_ahead_nextKey {snowflakeVo : Option SnowflakeVo} {p : Nat × Nat} (hp : IsPair p)
    (h : ¬ Ahead (some (nextKey snowflakeVo).1) p) :
    ¬ Ahead snowflakeVo p ∨ p = (nextKey snowflakeVo).1.pair := by
  by_cases hahead : Ahead snowflakeVo p
  · rcases (nextKey_least hp hahead).2 with heq | hbefore
    · exact Or.inr heq
    · refine absurd ?_ h
      intro vo hvo
      cases hvo
      exact hbefore
  · exact Or.inl hahead

/-! ## One `tryInit` -/

variable {Tm : Type} [DecidableEq Tm] {hostAndPort : Tm → String} {s : TmNodes Tm} {tm : Tm}

/-- A pair is taken if there is a record under its key. -/
def Taken (s : TmNodes Tm) (p : Nat × Nat) : Prop := s.redis (tmIdOf p.1 p.2) ≠ none

/-- The record that `tm` registers itself with. -/
def recordOf (hostAndPort : Tm → String) (tm : Tm) (vo : SnowflakeVo) : Entry Tm where
  tmNodeInfo := { tmId := vo.tmId, hostAndPort := hostAndPort tm, connection := 0 }
  registrant := tm

/-- `init` has returned with `vo`, and the one change in the store is the new record. -/
structure Claims (hostAndPort : Tm → String) (s : TmNodes Tm) (tm : Tm) (vo : SnowflakeVo)
    (t : TmNodes Tm) : Prop where
  returned : (t.initiators tm).init = .returned
  snowflakeVo : (t.initiators tm).snowflakeVo = some vo
  tmId : (t.initiators tm).tmId = some vo.tmId
  redis : t.redis = Function.update s.redis vo.tmId (some (recordOf hostAndPort tm vo))
  others : ∀ tm', tm' ≠ tm → t.initiators tm' = s.initiators tm'

/-- The calls of `init`, if it takes `n` attempts. -/
def attempts (tm : Tm) : Nat → List (TmNodeEvent Tm)
  | 0 => []
  | n + 1 => .setIfAbsent tm :: .hasKey tm :: attempts tm n

/-- The pair that is tried next. -/
def next (s : TmNodes Tm) (tm : Tm) : SnowflakeVo := (nextKey (s.initiators tm).snowflakeVo).1

omit [DecidableEq Tm] in
theorem register_isSome (tmNodeInfo : TmNodeInfo) :
    ((s.register tm tmNodeInfo).redis tmNodeInfo.tmId).isSome = true := by
  unfold register
  split
  · assumption
  · simp

/-- Once the record is there, its own or another one, `hasKey` finds it. -/
theorem exec_attempt (hatt : (s.initiators tm).init = .attempting) :
    exec (step hostAndPort) s (attempts tm 1)
      = some ((s.register tm (recordOf hostAndPort tm (next s tm)).tmNodeInfo).setInitiator tm
        (((s.initiators tm).tryInit (!(s.redis (next s tm).tmId).isSome)).checked
          (!(s.redis (next s tm).tmId).isSome) true)) := by
  generalize hb : (!(s.redis (next s tm).tmId).isSome) = isSetKey
  have hset : step hostAndPort s (.setIfAbsent tm)
      = some ((s.register tm (recordOf hostAndPort tm (next s tm)).tmNodeInfo).setInitiator tm
        ((s.initiators tm).tryInit isSetKey)) := by
    rw [← hb]
    exact if_neg (by simp [hatt])
  have hchecking : (((s.register tm (recordOf hostAndPort tm (next s tm)).tmNodeInfo).setInitiator
      tm ((s.initiators tm).tryInit isSetKey)).initiators tm).init = .checking isSetKey := by
    rw [setInitiator_self]
    rfl
  refine exec_cons_some.mpr ⟨_, hset, ?_⟩
  refine (exec_singleton _ _).trans ((step_hasKey hostAndPort hchecking).trans ?_)
  rw [setInitiator_self]
  have hkey : ((((s.initiators tm).tryInit isSetKey).tmId).bind
      ((s.register tm (recordOf hostAndPort tm (next s tm)).tmNodeInfo).setInitiator tm
        ((s.initiators tm).tryInit isSetKey)).redis).isSome = true :=
    register_isSome (recordOf hostAndPort tm (next s tm)).tmNodeInfo
  rw [hkey]
  -- the second step sets the initiator once more
  unfold setInitiator
  simp only [Function.update_idem]

/-- The key is free, and `init` returns. -/
theorem tryInit_free (hostAndPort : Tm → String) (hatt : (s.initiators tm).init = .attempting)
    (hfree : ¬ Taken s (next s tm).pair) :
    ∃ t, exec (step hostAndPort) s (attempts tm 1) = some t
      ∧ Claims hostAndPort s tm (next s tm) t := by
  have hnone : s.redis (next s tm).tmId = none := not_not.mp hfree
  refine ⟨_, exec_attempt hatt, ?_⟩
  rw [hnone]
  refine ⟨?_, ?_, ?_, ?_, ?_⟩
  · rw [setInitiator_self]
    rfl
  · rw [setInitiator_self]
    rfl
  · rw [setInitiator_self]
    rfl
  · unfold setInitiator register
    exact congrArg TmNodes.redis (if_neg (by simp [recordOf, hnone]))
  · intro tm' hne
    rw [setInitiator_of_ne hne, register_initiators]

/-- The key is taken, and there is another attempt. -/
theorem tryInit_taken (hostAndPort : Tm → String) (hatt : (s.initiators tm).init = .attempting)
    (hstop : (s.initiators tm).stopTrying = false)
    (hnext : (nextKey (s.initiators tm).snowflakeVo).2 = false)
    (htaken : Taken s (next s tm).pair) :
    ∃ t, exec (step hostAndPort) s (attempts tm 1) = some t
      ∧ (t.initiators tm).init = .attempting ∧ (t.initiators tm).stopTrying = false
      ∧ (t.initiators tm).snowflakeVo = some (next s tm)
      ∧ t.redis = s.redis ∧ ∀ tm', tm' ≠ tm → t.initiators tm' = s.initiators tm' := by
  obtain ⟨entry, hentry⟩ := Option.ne_none_iff_exists'.mp htaken
  have hsome : s.redis (next s tm).tmId = some entry := hentry
  refine ⟨_, exec_attempt hatt, ?_⟩
  rw [hsome]
  refine ⟨?_, ?_, ?_, ?_, ?_⟩
  · rw [setInitiator_self]
    simp [checked, tryInit, hstop, hnext]
  · rw [setInitiator_self]
    simp [checked, tryInit, hstop, hnext]
  · rw [setInitiator_self]
    rfl
  · have hkey : (s.redis (recordOf hostAndPort tm (next s tm)).tmNodeInfo.tmId).isSome = true :=
      congrArg Option.isSome hsome
    unfold setInitiator register
    rw [if_pos hkey]
  · intro tm' hne
    rw [setInitiator_of_ne hne, register_initiators]

/-! ## The whole of `init` -/

/-- What is left to be tried, with `n` attempts at most, and all that is not ahead is taken. -/
theorem exec_init_first (n : Nat) (hleft : pairsLeft (s.initiators tm).snowflakeVo < n)
    (hatt : (s.initiators tm).init = .attempting)
    (hstop : (s.initiators tm).stopTrying = false)
    (htried : ∀ p, IsPair p → ¬ Ahead (s.initiators tm).snowflakeVo p → Taken s p)
    (hfree : ∃ p, IsPair p ∧ ¬ Taken s p) :
    ∃ m t vo, exec (step hostAndPort) s (attempts tm m) = some t ∧ Claims hostAndPort s tm vo t
      ∧ ¬ Taken s vo.pair ∧ ∀ p, IsPair p → Before p vo.pair → Taken s p := by
  induction n generalizing s with
  | zero => exact absurd hleft (Nat.not_lt_zero _)
  | succ n ih =>
      obtain ⟨p, hp, hpfree⟩ := hfree
      have hahead : Ahead (s.initiators tm).snowflakeVo p := by
        by_contra hnot
        exact hpfree (htried p hp hnot)
      obtain ⟨hnext, _⟩ := nextKey_least hp hahead
      by_cases htaken : Taken s (next s tm).pair
      · -- the store is as it was, and there is one pair less to try
        obtain ⟨s', hrun, hatt', hstop', hvo', hredis, hothers⟩ :=
          tryInit_taken hostAndPort hatt hstop hnext htaken
        have hless := nextKey_pairsLeft hnext
        have hsame : ∀ p, Taken s' p ↔ Taken s p := by
          intro p
          unfold Taken
          rw [hredis]
        have htried' : ∀ p, IsPair p → ¬ Ahead (s'.initiators tm).snowflakeVo p → Taken s' p := by
          intro p hp hnot
          rw [hvo'] at hnot
          rw [hsame]
          rcases not_ahead_nextKey hp hnot with hnot | rfl
          · exact htried p hp hnot
          · exact htaken
        obtain ⟨m, t, vo, hrun', hclaims, hvofree, hleast⟩ := ih
          (by rw [hvo']; exact Nat.lt_of_lt_of_le hless (Nat.le_of_lt_succ hleft)) hatt' hstop'
          htried' ⟨p, hp, mt (hsame p).mp hpfree⟩
        refine ⟨m + 1, t, vo, ?_, ?_, mt (hsame _).mpr hvofree, ?_⟩
        · exact exec_append_some.mpr ⟨s', hrun, hrun'⟩
        · exact ⟨hclaims.returned, hclaims.snowflakeVo, hclaims.tmId,
            hredis ▸ hclaims.redis,
            fun tm' hne => (hclaims.others tm' hne).trans (hothers tm' hne)⟩
        · exact fun p hp hbefore => (hsame p).mp (hleast p hp hbefore)
      · obtain ⟨t, hrun, hclaims⟩ := tryInit_free hostAndPort hatt htaken
        refine ⟨1, t, next s tm, hrun, hclaims, htaken, ?_⟩
        -- the pairs before the next one are not ahead any more
        intro p hp hbefore
        refine htried p hp fun hahead => ?_
        rcases (nextKey_least hp hahead).2 with heq | hafter
        · unfold Before next at hbefore
          rw [heq] at hbefore
          omega
        · unfold Before next at *
          omega

/--
**`init` returns, with the least pair whose key is free.**

It does so after some number of attempts, which nobody interrupts; all that has
changed in the store then is the record under that key.
-/
theorem init_claims_first (hostAndPort : Tm → String) (s : TmNodes Tm) (tm : Tm)
    (hstart : s.initiators tm = {}) (hfree : ∃ p, IsPair p ∧ ¬ Taken s p) :
    ∃ n t vo, exec (step hostAndPort) s (attempts tm n) = some t ∧ Claims hostAndPort s tm vo t
      ∧ ¬ Taken s vo.pair ∧ ∀ p, IsPair p → Before p vo.pair → Taken s p := by
  refine exec_init_first 962 ?_ ?_ ?_ ?_ hfree
  · rw [hstart]
    decide
  · rw [hstart]
  · rw [hstart]
  · -- nothing has been tried yet
    intro p hp hnot
    rw [hstart] at hnot
    refine absurd ?_ hnot
    intro vo hvo
    cases hvo

/-- Somebody else has the first pair already. -/
def firstTaken : TmNodes Bool where
  redis key :=
    if key = tmIdOf 1 1 then some (recordOf (fun _ => "10.0.0.1:8070") true .first) else none

theorem init_claims_second : ∃ n t vo,
    exec (step fun _ => "10.0.0.1:8070") firstTaken (attempts false n) = some t
      ∧ Claims (fun _ => "10.0.0.1:8070") firstTaken false vo t ∧ ¬ Taken firstTaken vo.pair
      ∧ ∀ p, IsPair p → Before p vo.pair → Taken firstTaken p :=
  init_claims_first (fun _ => "10.0.0.1:8070") firstTaken false rfl
    ⟨(1, 2), by unfold IsPair; decide, by unfold Taken; decide⟩

end TxLcn.Proof
