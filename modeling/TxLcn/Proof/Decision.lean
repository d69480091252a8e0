import TxLcn.Protocol.Exchange

/-!
# Whether a joiner takes the decision

The join task registers its lock under the group id and commits what the event
it finds there says. But handling a message looks for a lock under the message
id only, and a `TransactionCommitEvent`, as a TM builds it, has none. So no such
event is ever put into a lock, and no join task ever commits anything.
-/

namespace TxLcn.Proof

open TxLcn.Lib TxLcn.Protocol Exchange

variable {W H : Type} [DecidableEq W] [DecidableEq H]

/-- The commit events are those a TM sends: built from a group id and a flag. -/
def SentByTm (P : Threads W H) : Prop :=
  ∀ h event, P.message h = .commit event →
    ∃ groupId commit, event = TransactionCommitEvent.new (some groupId) commit

/--
The event `h` handles is about the group the task `j` waits for, and it has been
handled while `j` was still to register, or waiting.
-/
structure HandledInTime (P : Threads W H) (j : W) (h : H) (event : TransactionCommitEvent)
    (s : Exchange W H) : Prop where
  task : P.task j = .executeJoin event.groupId
  message : P.message h = .commit event
  handled : s.handler h = .done
  waiting : s.waiter j = .start ∨ ∃ lock, s.waiter j = .registered lock

/-- At some point of the run the event has just been handled in time. -/
def InTime (P : Threads W H) (j : W) (h : H) (event : TransactionCommitEvent)
    (es : List (Thread W H)) : Prop :=
  ∃ pre post s, es = pre ++ post ∧ exec (step P) {} pre = some s ∧ HandledInTime P j h event s

/-- No decision has been seen anywhere. -/
structure Undecided (s : Exchange W H) : Prop where
  /-- None is in a lock. -/
  locks : ∀ l event, s.resAt l ≠ some (.commit event)
  /-- None has been read. -/
  outcomes : ∀ w event, (s.waiter w).outcome? ≠ some (.returned (some (.commit event)))
  /-- None has been carried out. -/
  commits : ∀ w, s.commits w = []

variable {P : Threads W H} {s t : Exchange W H}

omit [DecidableEq W] [DecidableEq H] in
theorem undecided_init : Undecided ({} : Exchange W H) where
  locks := by intro l event; simp [resAt]
  outcomes := by intro w event; simp [WaiterPc.outcome?]
  commits := by intro w; rfl

omit [DecidableEq H] in
theorem undecided_waited {w : W} (hs : Undecided s) (hw : Waited P s w t) : Undecided t := by
  refine ⟨fun l event heq => ?_, fun w' event hout => ?_, fun w' => ?_⟩
  · rcases hw.resAt l with h | h
    · exact hs.locks l event (h.symm.trans heq)
    · exact absurd (h.symm.trans heq) (by simp)
  · by_cases hne : w' = w
    · subst hne
      rcases hw.outcome? hout with hold | hno | ⟨lock, _, hread⟩
      · exact hs.outcomes w' event hold
      · cases hno
      · exact hs.locks lock event (Task.outcome_eq_returned hread.symm)
    · rw [hw.waiter_of_ne hne] at hout
      exact hs.outcomes w' event hout
  · rcases hw.commits with hsame | ⟨event, hread⟩
    · rw [hsame]
      exact hs.commits w'
    · exact absurd hread (hs.outcomes w event)

omit [DecidableEq W] in
theorem undecided_handles {h : H} (hP : SentByTm P) (hs : Undecided s) (hh : Handles P s h t) :
    Undecided t := by
  refine ⟨fun l event heq => ?_, ?_, ?_⟩
  · rcases hh.resAt l with hold | ⟨hid, _, hnew⟩
    · exact hs.locks l event (hold.symm.trans heq)
    · -- a message with an id has been put into the lock; a decision has none
      have hmsg := Option.some.inj (hnew.symm.trans heq)
      obtain ⟨g, d, rfl⟩ := hP h event hmsg
      rw [hmsg] at hid
      exact hid rfl
  · rw [hh.waiter]
    exact hs.outcomes
  · rw [hh.commits]
    exact hs.commits

theorem undecided_step {e : Thread W H} (hP : SentByTm P) (hs : Undecided s)
    (h : s.step P e = some t) : Undecided t := by
  cases e with
  | waiter w => exact undecided_waited hs (stepWaiter_waited h)
  | handler h' => exact undecided_handles hP hs (stepHandler_handles h)

/-- No thread ever carries out a decision. -/
theorem commits_eq_nil {es : List (Thread W H)} (hP : SentByTm P)
    (hrun : exec (step P) {} es = some t) (w : W) : t.commits w = [] :=
  (exec_invariant (fun _ _ _ hs h => undecided_step hP hs h) undecided_init hrun).commits w

/--
**The decision is never taken.** In no run does a task commit, with its flag, an
event that was handled in time for it.
-/
theorem decision_never_taken (hP : SentByTm P) {es : List (Thread W H)}
    (hrun : exec (step P) {} es = some t) (j : W) (h : H) (event : TransactionCommitEvent) :
    ¬ (InTime P j h event es ∧ t.commits j = [event.commit]) := by
  intro htaken
  obtain ⟨_, hcommit⟩ := htaken
  rw [commits_eq_nil hP hrun j] at hcommit
  exact absurd hcommit (by simp)

/-- One joiner, and a decision for its group. -/
def oneJoiner : Threads Unit Unit where
  task _ := .executeJoin (some "g")
  message _ := .commit (.new (some "g") true)

theorem oneJoiner_sentByTm : SentByTm oneJoiner := by
  intro h event heq
  cases heq
  exact ⟨"g", true, rfl⟩

/-- The task registers its lock, the decision is handled, then the wait ends. -/
def joinerRun : List (Thread Unit Unit) :=
  [.waiter (), .handler (), .waiter (), .waiter (), .waiter ()]

theorem joinerRun_inTime : InTime oneJoiner () () (.new (some "g") true) joinerRun :=
  ⟨[.waiter (), .handler ()], [.waiter (), .waiter (), .waiter ()], _, rfl, rfl,
    rfl, rfl, rfl, Or.inr ⟨0, rfl⟩⟩

/-- That task is done, and has committed nothing. -/
theorem joinerRun_takes_nothing : ∃ t, exec (step oneJoiner) {} joinerRun = some t
    ∧ t.waiter () = .done (.returned none)
    ∧ ¬ (InTime oneJoiner () () (.new (some "g") true) joinerRun ∧ t.commits () = [true]) :=
  ⟨_, rfl, rfl, decision_never_taken oneJoiner_sentByTm rfl () () (.new (some "g") true)⟩

/-- So not every decision that is handled in time is taken. -/
theorem decision_not_always_taken :
    ¬ ∀ (W H : Type) [DecidableEq W] [DecidableEq H] (P : Threads W H) (j : W) (h : H)
      (event : TransactionCommitEvent) (es : List (Thread W H)) (t : Exchange W H),
      SentByTm P → exec (step P) {} es = some t → InTime P j h event es →
      (∃ outcome, t.waiter j = .done outcome) → t.commits j = [event.commit] := by
  intro hall
  have hcommit := hall Unit Unit oneJoiner () () _ joinerRun _ oneJoiner_sentByTm rfl
    joinerRun_inTime ⟨_, rfl⟩
  exact absurd (show ([] : List Bool) = [true] from hcommit) (by simp)

end TxLcn.Proof
