import TxLcn.Tc.Captures

/-!
# Whether every connection gets its own decision

The connection kept for a group is the one its last caller has opened last. A
participation that opens two connections loses the first; one whose entry was
overwritten by another participation of the group finalises that one's
connection and leaves its own open.

`captured_finalised_iff` says that it comes down to what the `JdbcContext` holds
when a decision arrives.
-/

namespace TxLcn.Proof

open TxLcn.Lib TxLcn.Tc Captures

/-- What is called on a connection that gets its decision. -/
def finalCalls : Bool → List RawCall
  | true => [.delete, .commit, .close]
  | false => [.rollback, .close]

/-- What is asked of the connections at any time. -/
def OwnDecision (s : Captures) : Prop :=
  ∀ c p q, s.owner c = some p → s.participations p = some q →
    match q.decision with
    | none => (s.raw c).calls = []
    | some d => (s.called c = true → (s.raw c).calls.map Prod.fst = finalCalls d)
        ∧ .close ∈ (s.raw c).calls.map Prod.fst

/--
A participation that is decided has opened one connection, which is the one kept
for its group, and its log rows can be deleted; or it has opened none, and the
commitor throws before it calls any.
-/
def DecidesOwn (s : Captures) : Event → Prop
  | .decide p d succeeds => ∀ q, s.participations p = some q →
      (∃ c, (∀ c', s.owner c' = some p ↔ c' = c) ∧ s.context q.groupId = some c
          ∧ (d = true → succeeds .delete = true))
        ∨ (∀ c, s.owner c ≠ some p)
          ∧ (s.context q.groupId = none ∨ d = true ∧ q.jdbcTransaction = none)
  | _ => True

variable {s t : Captures} {e : Event} {p c : Nat} {q : Participation} {d : Bool}
  {succeeds : RawCall → Bool}

theorem calls_ne_nil : LcnCommitor.calls succeeds d ≠ [] := by
  cases d with
  | false => simp [LcnCommitor.calls]
  | true =>
      rw [LcnCommitor.calls]
      split <;> simp

/-- The calls are the right ones unless the log rows cannot be deleted. -/
theorem map_calls : (LcnCommitor.calls succeeds d).map Prod.fst = finalCalls d
    ↔ (d = true → succeeds .delete = true) := by
  cases d with
  | false => simp [LcnCommitor.calls, finalCalls]
  | true =>
      rw [LcnCommitor.calls]
      split <;> rename_i h <;> simp [finalCalls, h]

theorem close_mem_finalCalls : .close ∈ finalCalls d := by
  cases d <;> simp [finalCalls]

/-- What holds as long as every decision has met the condition. -/
structure ConnectionsInOrder (s : Captures) : Prop where
  fresh : ∀ c, s.owner c = none → (s.raw c).calls = []
  known : ∀ c p, s.owner c = some p → s.participations p ≠ none
  undecided : ∀ c p q, s.owner c = some p → s.participations p = some q → q.decision = none →
    (s.raw c).calls = []
  decided : ∀ c p q d, s.owner c = some p → s.participations p = some q → q.decision = some d →
    s.called c = true ∧ (s.raw c).calls.map Prod.fst = finalCalls d
  /-- A connection that is kept belongs to a participation that has called some proxy. -/
  kept : ∀ g c, s.context g = some c →
    ∃ p c', s.owner c = some p ∧ s.owner c' = some p ∧ s.called c' = true
  /-- Having opened a connection, the participation refers to one of its own. -/
  current : ∀ c p q, s.owner c = some p → s.participations p = some q → q.decision = none →
    ∃ j, q.jdbcTransaction = some j ∧ s.owner j.connection = some p

/-- Of every participation but `p`, what is in order depends on `s` alone. -/
theorem participation_cases {p' : Nat} {q' : Participation}
    (h : (s.setParticipation p q).participations p' = some q') :
    p' = p ∧ q' = q ∨ p' ≠ p ∧ s.participations p' = some q' := by
  by_cases hp : p' = p
  · subst hp
    rw [setParticipation_self] at h
    exact Or.inl ⟨rfl, (Option.some.inj h).symm⟩
  · rw [setParticipation_of_ne hp] at h
    exact Or.inr ⟨hp, h⟩

theorem setParticipation_ne_none {p' : Nat} (h : s.participations p' ≠ none) :
    (s.setParticipation p q).participations p' ≠ none := by
  by_cases hp : p' = p
  · subst hp
    rw [setParticipation_self]
    simp
  · rw [setParticipation_of_ne hp]
    exact h

theorem inOrder_opened (hs : ConnectionsInOrder s) (hq : s.participations p = some q)
    (hd : q.decision = none) (hc : s.owner c = none) :
    ConnectionsInOrder
      { s.setParticipation p { q with jdbcTransaction := some { connection := c } } with
        owner := Function.update s.owner c (some p) } := by
  have hkeep : ∀ c' p', s.owner c' = some p' →
      Function.update s.owner c (some p) c' = some p' := by
    intro c' p' h
    rw [Function.update_of_ne, h]
    rintro rfl
    rw [hc] at h
    cases h
  -- a connection of another one was there before
  have hother : ∀ {c' p'}, Function.update s.owner c (some p) c' = some p' → p' ≠ p →
      s.owner c' = some p' := by
    intro c' p' h hp
    by_cases hcc : c' = c
    · subst hcc
      rw [Function.update_self] at h
      exact absurd (Option.some.inj h).symm hp
    · rwa [Function.update_of_ne hcc] at h
  refine ⟨?_, ?_, ?_, ?_, ?_, ?_⟩
  · intro c' h
    dsimp only at h
    by_cases hcc : c' = c
    · subst hcc
      rw [Function.update_self] at h
      cases h
    · rw [Function.update_of_ne hcc] at h
      exact hs.fresh c' h
  · intro c' p' h
    by_cases hp : p' = p
    · subst hp
      simp
    · exact setParticipation_ne_none (hs.known c' p' (hother h hp))
  · intro c' p' q' h hq' hd'
    rcases participation_cases hq' with ⟨rfl, rfl⟩ | ⟨hp, hq'⟩
    · by_cases hcc : c' = c
      · subst hcc
        exact hs.fresh c' hc
      · dsimp only at h
        rw [Function.update_of_ne hcc] at h
        exact hs.undecided c' p' q h hq hd
    · exact hs.undecided c' p' q' (hother h hp) hq' hd'
  · intro c' p' q' d h hq' hd'
    rcases participation_cases hq' with ⟨rfl, rfl⟩ | ⟨hp, hq'⟩
    · rw [show q.decision = some d from hd'] at hd
      cases hd
    · exact hs.decided c' p' q' d (hother h hp) hq' hd'
  · intro g c' h
    obtain ⟨p', c₁, h₁, h₂, h₃⟩ := hs.kept g c' h
    exact ⟨p', c₁, hkeep _ _ h₁, hkeep _ _ h₂, h₃⟩
  · intro c' p' q' h hq' hd'
    rcases participation_cases hq' with ⟨rfl, rfl⟩ | ⟨hp, hq'⟩
    · exact ⟨_, rfl, Function.update_self ..⟩
    · obtain ⟨j, hj, hown⟩ := hs.current c' p' q' (hother h hp) hq' hd'
      exact ⟨j, hj, hkeep _ _ hown⟩

theorem inOrder_called (hs : ConnectionsInOrder s) (hc : s.owner c = some p)
    (hq : s.participations p = some q) (hd : q.decision = none) {context : JdbcContext}
    (hcontext : context = s.context ∨ ∃ j, q.jdbcTransaction = some j
      ∧ context = Function.update s.context q.groupId (some j.connection)) :
    ConnectionsInOrder { s with called := Function.update s.called c true, context } := by
  have hkeep : ∀ c', s.called c' = true → Function.update s.called c true c' = true := by
    intro c' h
    by_cases hcc : c' = c
    · subst hcc
      simp
    · rw [Function.update_of_ne hcc, h]
  refine ⟨hs.fresh, hs.known, hs.undecided, ?_, ?_, hs.current⟩
  · intro c' p' q' d h hq' hd'
    obtain ⟨h₁, h₂⟩ := hs.decided c' p' q' d h hq' hd'
    exact ⟨hkeep c' h₁, h₂⟩
  · intro g c' h
    dsimp only at h
    have hold : s.context g = some c' → ∃ p c₁, s.owner c' = some p ∧ s.owner c₁ = some p
        ∧ Function.update s.called c true c₁ = true := by
      intro h
      obtain ⟨p', c₁, h₁, h₂, h₃⟩ := hs.kept g c' h
      exact ⟨p', c₁, h₁, h₂, hkeep c₁ h₃⟩
    rcases hcontext with rfl | ⟨j, hj, rfl⟩
    · exact hold h
    · by_cases hg : g = q.groupId
      · subst hg
        rw [Function.update_self] at h
        cases h
        obtain ⟨j', hj', hown⟩ := hs.current c p q hc hq hd
        rw [hj] at hj'
        cases hj'
        exact ⟨p, c, hown, hc, Function.update_self ..⟩
      · rw [Function.update_of_ne hg] at h
        exact hold h

/-- The connection it has opened is the one it has called the proxy of. -/
theorem called_of_own (hs : ConnectionsInOrder s)
    (hown : ∀ c', s.owner c' = some p ↔ c' = c) {g : String} (hg : s.context g = some c) :
    s.called c = true := by
  obtain ⟨p', c', h₁, h₂, h₃⟩ := hs.kept g c hg
  rw [(hown c).mpr rfl] at h₁
  cases h₁
  rwa [(hown c').mp h₂] at h₃

/-- The decision is carried out on the only connection of the participation. -/
theorem inOrder_finalised (hs : ConnectionsInOrder s) (hq : s.participations p = some q)
    (hd : q.decision = none) (hown : ∀ c', s.owner c' = some p ↔ c' = c)
    (hctx : s.context q.groupId = some c) (hdelete : d = true → succeeds .delete = true) :
    ConnectionsInOrder { s.setParticipation p { q with decision := some d } with
      raw := Function.update s.raw c
        { calls := (s.raw c).calls ++ LcnCommitor.calls succeeds d } } := by
  have hcalled : s.called c = true := called_of_own hs hown hctx
  have hcalls : (s.raw c).calls = [] := hs.undecided c p q ((hown c).mpr rfl) hq hd
  have hne : ∀ {c' p'}, s.owner c' = some p' → p' ≠ p → c' ≠ c := by
    rintro c' p' h hp rfl
    rw [(hown c').mpr rfl] at h
    exact hp (Option.some.inj h).symm
  refine ⟨?_, ?_, ?_, ?_, hs.kept, ?_⟩
  · intro c' h
    have hnone : s.owner c' = none := h
    dsimp only
    rw [Function.update_of_ne]
    · exact hs.fresh c' hnone
    · rintro rfl
      rw [(hown c').mpr rfl] at hnone
      cases hnone
  · intro c' p' h
    exact setParticipation_ne_none (hs.known c' p' h)
  · intro c' p' q' h hq' hd'
    rcases participation_cases hq' with ⟨rfl, rfl⟩ | ⟨hp, hq'⟩
    · cases hd'
    · dsimp only
      rw [Function.update_of_ne (hne h hp)]
      exact hs.undecided c' p' q' h hq' hd'
  · intro c' p' q' d' h hq' hd'
    rcases participation_cases hq' with ⟨rfl, rfl⟩ | ⟨hp, hq'⟩
    · cases hd'
      obtain rfl := (hown c').mp h
      refine ⟨hcalled, ?_⟩
      dsimp only
      rw [Function.update_self]
      simpa [hcalls] using map_calls.mpr hdelete
    · dsimp only
      rw [Function.update_of_ne (hne h hp)]
      exact hs.decided c' p' q' d' h hq' hd'
  · intro c' p' q' h hq' hd'
    rcases participation_cases hq' with ⟨rfl, rfl⟩ | ⟨hp, hq'⟩
    · cases hd'
    · exact hs.current c' p' q' h hq' hd'

/-- Nothing is said about a participation without a connection. -/
theorem inOrder_unowned (hs : ConnectionsInOrder s) (hnone : ∀ c, s.owner c ≠ some p) :
    ConnectionsInOrder (s.setParticipation p q) := by
  have hother : ∀ {c' p' q'}, s.owner c' = some p' →
      (s.setParticipation p q).participations p' = some q' → s.participations p' = some q' := by
    intro c' p' q' h hq'
    rcases participation_cases hq' with ⟨rfl, _⟩ | ⟨_, hq'⟩
    · exact absurd h (hnone c')
    · exact hq'
  exact
    { fresh := hs.fresh
      known := fun c' p' h => setParticipation_ne_none (hs.known c' p' h)
      undecided := fun c' p' q' h hq' => hs.undecided c' p' q' h (hother h hq')
      decided := fun c' p' q' d' h hq' => hs.decided c' p' q' d' h (hother h hq')
      kept := hs.kept
      current := fun c' p' q' h hq' => hs.current c' p' q' h (hother h hq') }

theorem inOrder_started (hs : ConnectionsInOrder s) (hnew : s.participations p = none) :
    ConnectionsInOrder (s.setParticipation p q) :=
  inOrder_unowned hs fun c hc => hs.known c p hc hnew

theorem inOrder_decided (hs : ConnectionsInOrder s) (hq : s.participations p = some q)
    (hd : q.decision = none) (hC : DecidesOwn s (.decide p d succeeds)) :
    ConnectionsInOrder (s.finalise p q d succeeds) := by
  rcases hC q hq with ⟨c, hown, hctx, hdelete⟩ | ⟨hnone, hwhy⟩
  · obtain ⟨j, hj, _⟩ := hs.current c p q ((hown c).mpr rfl) hq hd
    rcases finalise_cases s p q d succeeds with ⟨c', hc', _, heq⟩ | ⟨hno | ⟨_, hno⟩, _⟩
    · rw [hctx] at hc'
      cases hc'
      rw [heq]
      exact inOrder_finalised hs hq hd hown hctx hdelete
    · rw [hctx] at hno
      cases hno
    · rw [hj] at hno
      cases hno
  · rcases finalise_cases s p q d succeeds with ⟨c, hc, hj, _⟩ | ⟨_, heq⟩
    · rcases hwhy with hno | ⟨hd, hno⟩
      · rw [hc] at hno
        cases hno
      · exact absurd hno (hj hd)
    · rw [heq]
      exact inOrder_unowned hs hnone

/-- A step that meets the condition keeps the connections in order. -/
theorem inOrder_step (hs : ConnectionsInOrder s) (hC : DecidesOwn s e) (h : s.step e = some t) :
    ConnectionsInOrder t := by
  cases stepped h with
  | started hnew => exact inOrder_started hs hnew
  | opened hq hd hc => exact inOrder_opened hs hq hd hc
  | called _ hc hq hd hcontext => exact inOrder_called hs hc hq hd hcontext
  | decided hq hd => exact inOrder_decided hs hq hd hC

theorem inOrder_init : ConnectionsInOrder {} where
  fresh _ _ := rfl
  known _ _ h := by cases h
  undecided _ _ _ h := by cases h
  decided _ _ _ _ h := by cases h
  kept _ _ h := by cases h
  current _ _ _ h := by cases h

theorem ConnectionsInOrder.ownDecision (hs : ConnectionsInOrder s) : OwnDecision s := by
  intro c p q hc hq
  cases hd : q.decision with
  | none => exact hs.undecided c p q hc hq hd
  | some d =>
      obtain ⟨_, hcalls⟩ := hs.decided c p q d hc hq hd
      exact ⟨fun _ => hcalls, by rw [hcalls]; exact close_mem_finalCalls⟩

/-- A participation that has its own decision has no connection but the one dealt with. -/
theorem owner_iff_of_ownDecision (hs : ConnectionsInOrder s) (hq : s.participations p = some q)
    (hd : q.decision = none) (hown : s.owner c = some p)
    (hP : OwnDecision { s.setParticipation p { q with decision := some d } with
      raw := Function.update s.raw c
        { calls := (s.raw c).calls ++ LcnCommitor.calls succeeds d } }) (c₁ : Nat) :
    s.owner c₁ = some p ↔ c₁ = c := by
  refine ⟨fun h₁ => ?_, fun h₁ => h₁ ▸ hown⟩
  by_contra hne
  have hclose := (hP c₁ p { q with decision := some d } h₁ (by simp)).2
  dsimp only at hclose
  rw [Function.update_of_ne hne, hs.undecided c₁ p q h₁ hq hd] at hclose
  cases hclose

/-- Whose connection is dealt with for another one gets too much, or something too early. -/
theorem not_ownDecision_of_other (hs : ConnectionsInOrder s) {p' : Nat}
    (hown : s.owner c = some p') (hp : p' ≠ p) :
    ¬ OwnDecision { s.setParticipation p { q with decision := some d } with
      raw := Function.update s.raw c
        { calls := (s.raw c).calls ++ LcnCommitor.calls succeeds d } } := by
  intro hP
  obtain ⟨q', hq'⟩ := Option.ne_none_iff_exists'.mp (hs.known c p' hown)
  have hPc := hP c p' q' hown ((setParticipation_of_ne hp).trans hq')
  dsimp only at hPc
  rw [Function.update_self] at hPc
  cases hd' : q'.decision with
  | none =>
      rw [hd'] at hPc
      exact absurd (List.append_eq_nil_iff.mp hPc).2 calls_ne_nil
  | some d' =>
      rw [hd'] at hPc
      obtain ⟨hcalledc, hcalls⟩ := hs.decided c p' q' d' hown hq' hd'
      have htoo := hPc.1 hcalledc
      rw [List.map_append, hcalls] at htoo
      have hnil := List.append_right_eq_self.mp htoo
      exact absurd (List.map_eq_nil_iff.mp hnil) calls_ne_nil

/-- A decision that misses the condition leaves some connection without its own. -/
theorem not_ownDecision_step (hs : ConnectionsInOrder s) (hC : ¬ DecidesOwn s e)
    (h : s.step e = some t) : ¬ OwnDecision t := by
  intro hP
  cases stepped h with
  | started => exact hC trivial
  | opened => exact hC trivial
  | called he =>
      rcases he with rfl | ⟨saved, rfl⟩
      · exact hC trivial
      · exact hC trivial
  | @decided p d succeeds q hq hd =>
      refine hC fun q' hq' => ?_
      rw [hq] at hq'
      cases hq'
      rcases finalise_cases s p q d succeeds with
        ⟨c, hctx, hj, heq⟩ | ⟨hwhy, heq⟩ <;> rw [heq] at hP
      · -- the connection that was dealt with has an owner
        obtain ⟨p', c', hown, hown', hcalled⟩ := hs.kept _ c hctx
        by_cases hp : p' = p
        · subst hp
          have honly := owner_iff_of_ownDecision hs hq hd hown hP
          rw [(honly c').mp hown'] at hcalled
          refine Or.inl ⟨c, honly, hctx, map_calls.mp ?_⟩
          have hcalls := (hP c p' { q with decision := some d } hown (by simp)).1 hcalled
          dsimp only at hcalls
          rwa [Function.update_self, hs.undecided c p' q hown hq hd, List.nil_append] at hcalls
        · exact absurd hP (not_ownDecision_of_other hs hown hp)
      · refine Or.inr ⟨fun c hown => ?_, hwhy⟩
        have hclose := (hP c p { q with decision := some d } hown (by simp)).2
        rw [setParticipation_raw, hs.undecided c p q hown hq hd] at hclose
        cases hclose

/--
**Every connection gets its own decision exactly when** each participation that
is decided has opened one connection, which is the one kept for its group then,
and its log rows can be deleted; or has opened none, and the commitor throws.
-/
theorem captured_finalised_iff (es : List Event) :
    AllStates step OwnDecision {} es ↔ AllSteps step DecidesOwn {} es :=
  allStates_iff_allSteps (fun _ hs => hs.ownDecision) (fun _ _ _ hs hC h => inOrder_step hs hC h)
    (fun _ _ _ hs hC h => not_ownDecision_step hs hC h) inOrder_init

/-- A participation that opens two connections and commits both. -/
theorem not_captured_finalised :
    ¬ ∀ es : List Event, AllStates step OwnDecision {} es := by
  intro h
  have hlast := (h [.start 0 "g" .JOIN none, .openConnection 0 0, .openConnection 0 1,
    .proxyCommit 0 0 true, .proxyCommit 0 1 true, .decide 0 true fun _ => true]).last rfl
  exact absurd ((hlast 0 0 _ rfl rfl).1 rfl) (by decide)

end TxLcn.Proof
