import TxLcn.Tm.Event

/-!
# Whether a decision is written once

`notify` determines the state of a group as `COMMIT` or `ROLLBACK`, and the
commit messages carry what is stored then. But no operation looks at the stored
state before it replaces it: a second notification stores its own flag, and a
second `create` puts the group back to `JOIN`.

`decision_write_once_iff` says that these two are all that can go wrong.
-/

namespace TxLcn.Proof

open TxLcn.Lib TxLcn.Tm TxLcn.Protocol

/-- The state stored for a group, if the group is stored. -/
def stateOf (s : TmState) (g : String) : Option TransactionState :=
  (s.store g).map (·.state)

theorem stateOf_eq_some {s : TmState} {g : String} {d : TransactionState} :
    stateOf s g = some d ↔ ∃ G, s.store g = some G ∧ G.state = d := by
  simp [stateOf, Option.map_eq_some_iff]

/-- The decision `d` for `g` has been sent to somebody. -/
def Announced (s : TmState) (g : String) (d : Bool) : Prop :=
  ∃ k event, (k, Message.commit event) ∈ s.sent ∧ event.groupId = some g ∧ event.commit = d

/-- What it means for the decision about `g` to be write-once in a run. -/
structure WriteOnce (connections : String → Bool) (g : String) (es : List Event) : Prop where
  /-- A decided state is the state from there on. -/
  state : ∀ pre mid post s t d, es = pre ++ mid ++ post →
    exec (TmState.step connections) {} pre = some s →
    exec (TmState.step connections) s mid = some t →
    stateOf s g = some d → d.decided = true → stateOf t g = some d
  /-- All commit messages carry one flag. -/
  flag : ∀ t d₁ d₂, exec (TmState.step connections) {} es = some t →
    Announced t g d₁ → Announced t g d₂ → d₁ = d₂

/-- The event does not touch a decision that is there. -/
def KeepsDecision (g : String) (s : TmState) (ev : Event) : Prop :=
  ∀ d, stateOf s g = some d → d.decided = true →
    match ev with
    | .create event _ _ => event.groupId ≠ some g
    | .join _ _ _ => True
    | .notify event _ => event.groupId = some g → .parser event.success = d

variable {connections : String → Bool} {g : String} {s t : TmState} {ev : Event}

/-! ## One event -/

/-- An event that keeps the decision leaves a decided state as it is. -/
theorem stateOf_step {d : TransactionState} (hk : KeepsDecision g s ev)
    (h : TmState.step connections s ev = some t) (hs : stateOf s g = some d)
    (hd : d.decided = true) : stateOf t g = some d := by
  have hkeep := hk d hs hd
  obtain ⟨G, hG, rfl⟩ := stateOf_eq_some.mp hs
  cases step_handled h g with
  | elsewhere _ hstore => rw [stateOf, hstore]; exact hs
  | created hg => exact absurd hg hkeep
  | joinedNothing _ hnone => rw [hG] at hnone; exact absurd hnone (by simp)
  | joined _ hsome hstore =>
      rw [hG] at hsome
      cases hsome
      rw [stateOf, hstore]; rfl
  | notifiedNothing _ hnone => rw [hG] at hnone; exact absurd hnone (by simp)
  | notified hg _ hstore =>
      rw [stateOf, hstore]
      exact congrArg some (hkeep hg)

/-- An event that does not keep it changes it at once. -/
theorem stateOf_step_ne (hk : ¬ KeepsDecision g s ev)
    (h : TmState.step connections s ev = some t) :
    ∃ d, stateOf s g = some d ∧ d.decided = true ∧ stateOf t g ≠ some d := by
  unfold KeepsDecision at hk
  push Not at hk
  obtain ⟨d, hs, hd, hbad⟩ := hk
  refine ⟨d, hs, hd, ?_⟩
  obtain ⟨G, hG, rfl⟩ := stateOf_eq_some.mp hs
  cases step_handled h g with
  | elsewhere hne hstore =>
      cases ev with
      | create event _ _ => exact absurd hne hbad
      | join event _ _ => exact absurd trivial hbad
      | notify event _ => exact absurd (fun hg => absurd hg hne) hbad
  | created _ hstore =>
      -- the group is undecided again
      rw [stateOf, hstore]
      intro he
      rw [← Option.some.inj he] at hd
      exact absurd hd (by simp [TransactionState.decided])
  | joinedNothing => exact absurd trivial hbad
  | joined => exact absurd trivial hbad
  | notifiedNothing _ hnone => rw [hG] at hnone; exact absurd hnone (by simp)
  | notified hg _ hstore =>
      rw [stateOf, hstore]
      intro he
      exact hbad fun _ => Option.some.inj he

/-- Whoever has been told about `g` has been told what is stored. -/
def ToldStored (g : String) (s : TmState) : Prop :=
  ∀ d, Announced s g d → stateOf s g = some (.parser d)

theorem announced_append {out : Outbox} {d : Bool} (hsent : t.sent = s.sent ++ out)
    (h : Announced t g d) : Announced s g d ∨
      ∃ k event, (k, Message.commit event) ∈ out ∧ event.groupId = some g ∧ event.commit = d := by
  obtain ⟨k, event, hmem, hg, hd⟩ := h
  rw [hsent, List.mem_append] at hmem
  rcases hmem with hmem | hmem
  · exact Or.inl ⟨k, event, hmem, hg, hd⟩
  · exact Or.inr ⟨k, event, hmem, hg, hd⟩

/-- A reply announces nothing. -/
theorem announced_of_reply {msg : String × Message} {d : Bool}
    (hsent : t.sent = s.sent ++ sendMsg connections [msg]) (hmsg : ∀ event, msg.2 ≠ .commit event)
    (h : Announced t g d) : Announced s g d := by
  rcases announced_append hsent h with ha | ⟨k, event, hmem, _⟩
  · exact ha
  · have heq := List.mem_singleton.mp (mem_sendMsg.mp hmem).1
    exact absurd (congrArg Prod.snd heq).symm (hmsg event)

theorem toldStored_step (hk : KeepsDecision g s ev)
    (h : TmState.step connections s ev = some t) (hs : ToldStored g s) : ToldStored g t := by
  intro d hd
  have old : Announced s g d → stateOf t g = some (.parser d) := fun ha =>
    stateOf_step hk h (hs d ha) (TransactionState.parser_decided d)
  cases step_handled h g with
  | elsewhere _ _ hsent hout =>
      rcases announced_append hsent hd with ha | ⟨k, event, hmem, hg, _⟩
      · exact old ha
      · exact absurd hg (hout _ hmem)
  | created _ _ hsent => exact old (announced_of_reply hsent (by simp) hd)
  | joinedNothing _ _ _ hsent => exact old (announced_of_reply hsent (by simp) hd)
  | joined _ _ _ hsent => exact old (announced_of_reply hsent (by simp) hd)
  | notifiedNothing _ _ _ hsent => exact old (announced_of_reply hsent (by simp) hd)
  | notified _ _ hstore hsent =>
      rcases announced_append hsent hd with ha | ⟨k, event, hmem, _, hcommit⟩
      · exact old ha
      · -- the messages of this notification carry the flag it has just stored
        have hout := (mem_sendMsg.mp hmem).1
        rw [List.mem_append, List.mem_singleton] at hout
        rcases hout with hout | hout
        · obtain ⟨info, _, heq⟩ := mem_announcements.mp hout
          cases heq
          rw [← hcommit, stateOf, hstore]
          rfl
        · cases hout

/-! ## Whole runs -/

/--
**The decision is write-once exactly when** no `create` of the group and no
notification with the other flag is handled while the group is stored decided.
-/
theorem decision_write_once_iff (connections : String → Bool) (g : String) (es : List Event) :
    WriteOnce connections g es
      ↔ AllSteps (TmState.step connections) (KeepsDecision g) {} es := by
  refine ⟨?_, ?_⟩
  · intro hw
    rw [allSteps_iff_split]
    intro pre ev post s t hsplit hrun hstep
    by_contra hk
    obtain ⟨d, hs, hd, hne⟩ := stateOf_step_ne hk hstep
    have hsplit' : es = pre ++ [ev] ++ post := by rw [hsplit, List.append_assoc]; rfl
    exact hne (hw.state pre [ev] post s t d hsplit' hrun
      (by rw [exec_singleton]; exact hstep) hs hd)
  · intro hC
    refine ⟨?_, ?_⟩
    · intro pre mid post s t d hsplit hpre hmid hs hd
      subst hsplit
      rw [List.append_assoc, allSteps_append hpre, allSteps_append hmid] at hC
      exact exec_invariant_of_allSteps (I := fun s => stateOf s g = some d)
        (fun _ _ _ hI hk hstep => stateOf_step hk hstep hI hd) hs hC.2.1 hmid
    · -- every flag that was sent is the one that is stored in the end
      intro t d₁ d₂ hrun h₁ h₂
      have hstart : ToldStored g {} := by
        intro d hsent
        obtain ⟨k, event, hmem, _⟩ := hsent
        exact absurd hmem List.not_mem_nil
      have htold := exec_invariant_of_allSteps (I := ToldStored g)
        (fun _ _ _ hI hk hstep => toldStored_step hk hstep hI) hstart hC hrun
      have heq : TransactionState.parser d₁ = .parser d₂ :=
        Option.some.inj ((htold d₁ h₁).symm.trans (htold d₂ h₂))
      exact TransactionState.parser_injective heq

/-- A creator that notifies twice: once that it succeeded, once that it failed. -/
theorem decision_not_always_write_once :
    ¬ ∀ (connections : String → Bool) (g : String) (es : List Event),
      WriteOnce connections g es := by
  intro h
  have hw := h (fun _ => true) "g"
    [.create (.new (some "g")) "a" 0, .notify (.new (some "g") true) "a",
      .notify (.new (some "g") false) "a"]
  have hs := hw.state
    [.create (.new (some "g")) "a" 0, .notify (.new (some "g") true) "a"]
    [.notify (.new (some "g") false) "a"] [] _ _ .COMMIT rfl rfl rfl rfl rfl
  exact absurd hs (by decide)

end TxLcn.Proof
