import TxLcn.Tc.Jdbc

/-!
# The connections of one TC

Every participation, a run of an annotated method, has a thread of its own to do
its database work on, and what the thread local `JdbcTransaction` refers to goes
with it to the task that waits for the decision. The `JdbcContext` there is only
one of. All participations of the TC take their steps on these in any order.
-/

namespace TxLcn.Tc

structure Participation where
  groupId : String
  transactionState : TransactionState
  /-- `JdbcTransaction.current()` on its thread. -/
  jdbcTransaction : Option JdbcTransaction
  /-- What it has been told in the end. -/
  decision : Option Bool := none

/-- The `TransactionInfo` that goes with it. -/
def Participation.transactionInfo (q : Participation) : TransactionInfo :=
  { groupId := some q.groupId, transactionType := some TransactionConstant.LCN,
    transactionState := q.transactionState }

structure Captures where
  participations : Nat → Option Participation := fun _ => none
  context : JdbcContext := fun _ => none
  /-- Which participation has opened a connection. -/
  owner : Nat → Option Nat := fun _ => none
  /-- `commit()` or `rollback()` has been called on the proxy of a connection. -/
  called : Nat → Bool := fun _ => false
  raw : Nat → RawConnection := fun _ => {}

namespace Captures

inductive Event where
  /-- A participation of the group starts on a thread that may have something left over. -/
  | start (p : Nat) (groupId : String) (transactionState : TransactionState)
      (leftover : Option JdbcTransaction)
  /-- `new ProxyConnection` before a connection that nobody uses. -/
  | openConnection (p : Nat) (connection : Nat)
  /-- `commit()` on the proxy of a connection. -/
  | proxyCommit (p : Nat) (connection : Nat) (saved : Bool)
  | proxyRollback (p : Nat) (connection : Nat)
  /-- `TransactionCommitorStrategy.commit` for this participation. -/
  | decide (p : Nat) (state : Bool) (succeeds : RawCall → Bool)

/-- A participation that is still to be decided. -/
def undecided (s : Captures) (p : Nat) : Option Participation :=
  (s.participations p).filter fun q => q.decision.isNone

/-- The participation, if the connection is one of its own. -/
def ownerOf (s : Captures) (p connection : Nat) : Option Participation :=
  if s.owner connection = some p then s.undecided p else none

def setParticipation (s : Captures) (p : Nat) (q : Participation) : Captures :=
  { s with participations := Function.update s.participations p (some q) }

/-- A call on a proxy; without a new `JdbcContext` it has thrown. -/
def capture (s : Captures) (connection : Nat)
    (context : Except (Option TxException) JdbcContext) : Captures :=
  { s with
    called := Function.update s.called connection true
    context := match context with
      | .ok context => context
      | .error _ => s.context }

/-- The calls of the commitor; if it throws there are none. -/
def finalise (s : Captures) (p : Nat) (q : Participation) (state : Bool)
    (succeeds : RawCall → Bool) : Captures :=
  let s' := s.setParticipation p { q with decision := some state }
  match TransactionCommitorStrategy.commit succeeds s.raw s.context (some q.transactionInfo)
      q.jdbcTransaction state with
  | .ok (some (connection, after)) =>
      { s' with raw := Function.update s.raw connection after }
  | _ => s'

def step (s : Captures) : Event → Option Captures
  | .start p groupId transactionState leftover =>
      match s.participations p with
      | some _ => none
      | none => some (s.setParticipation p
          { groupId, transactionState, jdbcTransaction := leftover })
  | .openConnection p connection =>
      match s.undecided p, s.owner connection with
      -- the thread refers to the connection that was opened last
      | some q, none =>
          some { s.setParticipation p { q with jdbcTransaction := some { connection } } with
            owner := Function.update s.owner connection (some p) }
      | _, _ => none
  | .proxyCommit p connection saved => (s.ownerOf p connection).map fun q =>
      s.capture connection (TransactionJdbcEventListener.onBeforeCommit
        (some q.transactionInfo) q.jdbcTransaction saved s.context)
  | .proxyRollback p connection => (s.ownerOf p connection).map fun q =>
      s.capture connection (TransactionJdbcEventListener.onBeforeRollback
        (some q.transactionInfo) q.jdbcTransaction s.context)
  | .decide p state succeeds =>
      (s.undecided p).map fun q => s.finalise p q state succeeds

/-! ## What one step can do -/

variable {s t : Captures} {p c : Nat} {q : Participation} {e : Event} {d : Bool}
  {succeeds : RawCall → Bool}

@[simp] theorem setParticipation_context : (s.setParticipation p q).context = s.context := rfl
@[simp] theorem setParticipation_owner : (s.setParticipation p q).owner = s.owner := rfl
@[simp] theorem setParticipation_called : (s.setParticipation p q).called = s.called := rfl
@[simp] theorem setParticipation_raw : (s.setParticipation p q).raw = s.raw := rfl

@[simp] theorem setParticipation_self : (s.setParticipation p q).participations p = some q := by
  simp [setParticipation]

theorem setParticipation_of_ne {p' : Nat} (h : p' ≠ p) :
    (s.setParticipation p q).participations p' = s.participations p' := by
  simp [setParticipation, h]

theorem undecided_eq_some :
    s.undecided p = some q ↔ s.participations p = some q ∧ q.decision = none := by
  simp [undecided, Option.filter_eq_some_iff]

theorem ownerOf_eq_some : s.ownerOf p c = some q
    ↔ s.owner c = some p ∧ s.participations p = some q ∧ q.decision = none := by
  unfold ownerOf
  split
  · rename_i h
    simp [undecided_eq_some, h]
  · rename_i h
    simp [h]

/-- What a step does, by the kind of the event. -/
inductive Stepped (s : Captures) : Event → Captures → Prop where
  | started {p : Nat} {groupId : String} {transactionState : TransactionState}
      {leftover : Option JdbcTransaction} (hnew : s.participations p = none) :
      Stepped s (.start p groupId transactionState leftover) (s.setParticipation p
        { groupId, transactionState, jdbcTransaction := leftover })
  | opened {p c : Nat} {q : Participation} (hq : s.participations p = some q)
      (hd : q.decision = none) (hc : s.owner c = none) :
      Stepped s (.openConnection p c)
        { s.setParticipation p { q with jdbcTransaction := some { connection := c } } with
          owner := Function.update s.owner c (some p) }
  /-- The connection that is kept now is the last one that was opened, if it was not refused. -/
  | called {e : Event} {p c : Nat} {q : Participation} {context : JdbcContext}
      (he : e = .proxyRollback p c ∨ ∃ saved, e = .proxyCommit p c saved)
      (hc : s.owner c = some p) (hq : s.participations p = some q) (hd : q.decision = none)
      (hcontext : context = s.context ∨ ∃ j, q.jdbcTransaction = some j
        ∧ context = Function.update s.context q.groupId (some j.connection)) :
      Stepped s e { s with called := Function.update s.called c true, context }
  | decided {p : Nat} {d : Bool} {succeeds : RawCall → Bool} {q : Participation}
      (hq : s.participations p = some q) (hd : q.decision = none) :
      Stepped s (.decide p d succeeds) (s.finalise p q d succeeds)

/-- A call on a proxy is refused, or keeps the last connection that was opened. -/
theorem stepped_called (he : e = .proxyRollback p c ∨ ∃ saved, e = .proxyCommit p c saved)
    (hc : s.owner c = some p) (hq : s.participations p = some q)
    (hd : q.decision = none) {x : Except (Option TxException) JdbcContext}
    (hx : ∀ context, x = .ok context → ∃ j, q.jdbcTransaction = some j
      ∧ context = Function.update s.context q.groupId (some j.connection)) :
    Stepped s e (s.capture c x) := by
  cases x with
  -- the proxy has been called all the same
  | error thrown => exact Stepped.called he hc hq hd (Or.inl rfl)
  | ok context => exact Stepped.called he hc hq hd (Or.inr (hx context rfl))

theorem onBeforeCommit_ok {saved : Bool} {context : JdbcContext}
    (h : TransactionJdbcEventListener.onBeforeCommit (some q.transactionInfo) q.jdbcTransaction
      saved s.context = .ok context) : ∃ j, q.jdbcTransaction = some j
        ∧ context = Function.update s.context q.groupId (some j.connection) := by
  simp only [TransactionJdbcEventListener.onBeforeCommit, TransactionJdbcEventListener.hasEvent,
    Participation.transactionInfo, decide_true, if_true,
    LcnCommitTransactionJdbcEvent.execute] at h
  cases hj : q.jdbcTransaction with
  | none => rw [hj] at h; cases h
  | some j =>
      rw [hj] at h
      cases saved <;> cases h
      exact ⟨j, rfl, rfl⟩

theorem onBeforeRollback_ok {context : JdbcContext}
    (h : TransactionJdbcEventListener.onBeforeRollback (some q.transactionInfo) q.jdbcTransaction
      s.context = .ok context) : ∃ j, q.jdbcTransaction = some j
        ∧ context = Function.update s.context q.groupId (some j.connection) := by
  simp only [TransactionJdbcEventListener.onBeforeRollback, TransactionJdbcEventListener.hasEvent,
    Participation.transactionInfo, decide_true, if_true,
    LcnRollbackTransactionJdbcEvent.execute] at h
  cases hj : q.jdbcTransaction with
  | none => rw [hj] at h; cases h
  | some j =>
      rw [hj] at h
      cases h
      exact ⟨j, rfl, rfl⟩

theorem stepped (h : s.step e = some t) : Stepped s e t := by
  cases e with
  | start p groupId transactionState leftover =>
      simp only [step] at h
      split at h
      · cases h
      · cases h
        exact Stepped.started ‹_›
  | openConnection p c =>
      simp only [step] at h
      split at h
      · rename_i q hq hc
        cases h
        obtain ⟨hq, hd⟩ := undecided_eq_some.mp hq
        exact Stepped.opened hq hd hc
      · cases h
  | proxyCommit p c saved =>
      obtain ⟨q, hq, rfl⟩ := Option.map_eq_some_iff.mp h
      obtain ⟨hc, hq, hd⟩ := ownerOf_eq_some.mp hq
      exact stepped_called (Or.inr ⟨saved, rfl⟩) hc hq hd fun _ hx => onBeforeCommit_ok hx
  | proxyRollback p c =>
      obtain ⟨q, hq, rfl⟩ := Option.map_eq_some_iff.mp h
      obtain ⟨hc, hq, hd⟩ := ownerOf_eq_some.mp hq
      exact stepped_called (Or.inl rfl) hc hq hd fun _ hx => onBeforeRollback_ok hx
  | decide p d succeeds =>
      obtain ⟨q, hq, rfl⟩ := Option.map_eq_some_iff.mp h
      obtain ⟨hq, hd⟩ := undecided_eq_some.mp hq
      exact Stepped.decided hq hd

/-- A decision is carried out on the connection kept for the group, or not at all. -/
theorem finalise_cases (s : Captures) (p : Nat) (q : Participation) (d : Bool)
    (succeeds : RawCall → Bool) :
    (∃ c, s.context q.groupId = some c ∧ (d = true → q.jdbcTransaction ≠ none)
        ∧ s.finalise p q d succeeds = { s.setParticipation p { q with decision := some d } with
          raw := Function.update s.raw c
            { calls := (s.raw c).calls ++ LcnCommitor.calls succeeds d } })
      ∨ ((s.context q.groupId = none ∨ d = true ∧ q.jdbcTransaction = none)
        ∧ s.finalise p q d succeeds = s.setParticipation p { q with decision := some d }) := by
  have hlcn : q.transactionInfo.transactionType = some "lcn" := rfl
  rcases TransactionCommitorStrategy.commit_lcn succeeds s.raw s.context q.jdbcTransaction d hlcn
    rfl with ⟨c, hc, hj, heq⟩ | ⟨hwhy, _, heq⟩
  · exact Or.inl ⟨c, hc, hj, by simp only [finalise, heq]⟩
  · exact Or.inr ⟨hwhy, by simp only [finalise, heq]⟩

end Captures

end TxLcn.Tc
