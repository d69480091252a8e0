import TxLcn.Tc.SqlAnalyse
import TxLcn.Tc.Captures

/-!
# The session behind a proxy

One participation on one connection that a pool has handed out, and what becomes
of the session behind it. `setAutoCommit` of the proxy sets the flag to false,
whatever it is asked for; `commit`, `rollback` and `close` do nothing to the
session. A statement of the business is executed on the session as it is, and
analysed.

The rows of `transaction_log` are in the same database. They are saved through
another session, which has its auto-commit flag set, and deleted through this one.
-/

namespace TxLcn.Tc

open TxLcn.Lib

/-- A change in the database. -/
inductive Written (β : Type) where
  | business (change : β)
  /-- The row with that id is put into `transaction_log`. -/
  | inserted (id : Long)
  | deleted (ids : List Long)
  deriving Repr, DecidableEq

namespace Written

variable {β : Type}

def business? : Written β → Option β
  | business change => some change
  | _ => none

/-- What there is of the business. -/
def changes (ws : List (Written β)) : List β := ws.filterMap business?

/-- One change of `transaction_log`, by the ids of its rows. -/
def apply (rows : List Long) : Written β → List Long
  | business _ => rows
  | inserted id => rows ++ [id]
  | deleted ids => rows.filter fun id => id ∉ ids

/-- The rows of `transaction_log`. -/
def rows (ws : List (Written β)) : List Long := ws.foldl apply []

end Written

/-- The execution of a statement, and what its analysis depends on. -/
structure Execution (β : Type) where
  /-- The changes that the statement makes. -/
  changes : List β
  sql : String
  platform : Platform
  insert : Session (Written β) → String → Option (List β × List Row)
  query : Session (Written β) → String → Option (List Row)
  refuses : SessionCall → Bool
  sqlType : String
  analyseHandlers : List SqlSqlAnalyseHandler
  tableList : TableList
  newLog : String → Option TransactionLog

namespace Execution

variable {β : Type}

def database (e : Execution β) : Database (Written β) where
  insert s sql := (e.insert s sql).map fun (changes, rows) => (changes.map .business, rows)
  query := e.query
  refuses := e.refuses

def analysis (e : Execution β) (q : Participation) :
    Analysis (Written β) (Option JdbcTransaction) :=
  TransactionJdbcEventListener.onAfterAnyExecute e.platform e.database e.sqlType
    e.analyseHandlers e.tableList e.newLog (some q.transactionInfo) q.jdbcTransaction e.sql

end Execution

structure Proxied (β : Type) where
  participation : Participation
  session : Session (Written β) := {}
  context : JdbcContext := fun _ => none
  /-- The calls of the commitor. -/
  raw : RawConnection := {}

namespace Proxied

variable {β : Type}

inductive Event (β : Type) where
  | execute (execution : Execution β)
  | setAutoCommit (autoCommit : Bool)
  /-- `saveLog` throws after that many rows, if there are more. -/
  | commit (saved : Nat)
  | rollback
  | close
  /-- `TransactionCommitorStrategy.commit` of the participation. -/
  | decide (state : Bool) (succeeds : RawCall → Bool)

/-- A participation that has just been given a connection. -/
def init (groupId : String) (transactionState : TransactionState) : Proxied β where
  participation := { groupId, transactionState, jdbcTransaction := some { connection := 0 } }

/-- What has been recorded. -/
def transactionLogs (s : Proxied β) : List TransactionLog :=
  match s.participation.jdbcTransaction with
  | some jdbcTransaction => jdbcTransaction.transactionLogs
  | none => []

def logIds (s : Proxied β) : List Long := s.transactionLogs.map TransactionLog.id

def execute (s : Proxied β) (e : Execution β) : Proxied β :=
  match e.analysis s.participation (s.session.write (e.changes.map .business)) with
  | .ok jdbcTransaction session =>
      { s with session, participation := { s.participation with jdbcTransaction } }
  | .error _ session => { s with session }

/-- A call on the proxy; without a new `JdbcContext` it has thrown. -/
def capture (s : Proxied β) (context : Except (Option TxException) JdbcContext) : Proxied β :=
  { s with
    context := match context with
      | .ok context => context
      | .error _ => s.context }

/-- The rows are there even if the call throws in the end. -/
def commit (s : Proxied β) (saved : Nat) : Proxied β :=
  let s := { s with
    session := s.session.elsewhere ((s.logIds.take saved).map .inserted) }
  s.capture (TransactionJdbcEventListener.onBeforeCommit (some s.participation.transactionInfo)
    s.participation.jdbcTransaction (s.logIds.length ≤ saved) s.context)

def rollback (s : Proxied β) : Proxied β :=
  s.capture (TransactionJdbcEventListener.onBeforeRollback
    (some s.participation.transactionInfo) s.participation.jdbcTransaction s.context)

/-- What a call of the commitor does to the session, if it succeeds. -/
def called (ids : List Long) (s : Session (Written β)) : RawCall × Bool → Session (Written β)
  | (.delete, true) => s.write [.deleted ids]
  | (.commit, true) => s.commit
  | (.rollback, true) => s.rollback
  | (.close, true) => s.close
  | (_, false) => s

def decide (s : Proxied β) (state : Bool) (succeeds : RawCall → Bool) : Proxied β :=
  let s := { s with participation := { s.participation with decision := some state } }
  match TransactionCommitorStrategy.commit succeeds (fun _ => {}) s.context
      (some s.participation.transactionInfo) s.participation.jdbcTransaction state with
  | .ok (some (_, raw)) =>
      { s with raw, session := raw.calls.foldl (called s.logIds) s.session }
  | _ => s

/-- There is one decision. -/
def step (s : Proxied β) : Event β → Option (Proxied β)
  | .execute e => some (s.execute e)
  -- whatever the flag is to be, the connection gets false
  | .setAutoCommit _ => some { s with session := s.session.setAutoCommit false }
  | .commit saved => some (s.commit saved)
  | .rollback => some s.rollback
  -- the connection is closed by the commitor
  | .close => some s
  | .decide state succeeds =>
      match s.participation.decision with
      | none => some (s.decide state succeeds)
      | some _ => none

/-! ## What the operations change -/

variable {s : Proxied β} {e : Execution β} {saved : Nat} {d : Bool} {succeeds : RawCall → Bool}
  {ids : List Long}

/-- The session is left as the analysis leaves it, whichever way it ends. -/
theorem execute_session : (s.execute e).session
    = stateAfter (e.analysis s.participation) (s.session.write (e.changes.map .business)) := by
  unfold execute stateAfter
  split <;> rename_i h <;> rw [h]

@[simp] theorem execute_decision :
    (s.execute e).participation.decision = s.participation.decision := by
  unfold execute
  split <;> rfl

@[simp] theorem execute_raw : (s.execute e).raw = s.raw := by
  unfold execute
  split <;> rfl

@[simp] theorem commit_session : (s.commit saved).session
    = s.session.elsewhere ((s.logIds.take saved).map .inserted) := rfl

@[simp] theorem decide_decision : (s.decide d succeeds).participation.decision = some d := by
  unfold decide
  dsimp only
  split <;> rfl

/-- The commitor makes its calls, or throws before the first one. -/
theorem decide_cases (s : Proxied β) (d : Bool) (succeeds : RawCall → Bool) :
    ((s.context s.participation.groupId ≠ none
          ∧ (d = true → s.participation.jdbcTransaction ≠ none))
        ∧ (s.decide d succeeds).raw = { calls := LcnCommitor.calls succeeds d }
        ∧ (s.decide d succeeds).session
          = (LcnCommitor.calls succeeds d).foldl (called s.logIds) s.session)
      ∨ ((s.context s.participation.groupId = none
          ∨ d = true ∧ s.participation.jdbcTransaction = none)
        ∧ (s.decide d succeeds).raw = s.raw ∧ (s.decide d succeeds).session = s.session) := by
  have hlcn : s.participation.transactionInfo.transactionType = some "lcn" := rfl
  rcases TransactionCommitorStrategy.commit_lcn succeeds (fun _ => {}) s.context
    s.participation.jdbcTransaction d hlcn rfl with ⟨c, hc, hj, heq⟩ | ⟨hwhy, _, heq⟩
  · refine Or.inl ⟨⟨by simp [hc], hj⟩, ?_⟩
    unfold decide
    dsimp only
    simp only [Participation.transactionInfo] at heq ⊢
    rw [heq]
    exact ⟨rfl, rfl⟩
  · refine Or.inr ⟨hwhy, ?_⟩
    unfold decide
    dsimp only
    simp only [Participation.transactionInfo] at heq ⊢
    rw [heq]
    exact ⟨rfl, rfl⟩

/-- A call that throws does nothing. -/
theorem called_failed {c : RawCall} {session : Session (Written β)} :
    called ids session (c, false) = session := by
  cases c <;> rfl

/-- Unless the rows can be deleted and it is to commit, the commitor does not come to commit. -/
theorem not_mem_calls (h : ¬ (d = true ∧ succeeds .delete = true)) :
    ∀ call ∈ LcnCommitor.calls succeeds d, call.1 ≠ .commit ∧ call ≠ (.delete, true) := by
  intro call hmem
  cases d with
  | false =>
      simp only [LcnCommitor.calls, List.mem_cons, List.not_mem_nil, or_false] at hmem
      rcases hmem with rfl | rfl <;> simp
  | true =>
      have hdelete : succeeds .delete = false := by simpa using h
      simp only [LcnCommitor.calls, hdelete, Bool.false_eq_true, if_false, List.mem_cons,
        List.not_mem_nil, or_false] at hmem
      rcases hmem with rfl | rfl <;> simp

/-- Without a commit and a delete nothing becomes durable. -/
theorem foldl_called_durable {calls : List (RawCall × Bool)} {session : Session (Written β)}
    (h : ∀ call ∈ calls, call.1 ≠ .commit ∧ call ≠ (.delete, true)) :
    (calls.foldl (called ids) session).durable = session.durable := by
  induction calls generalizing session with
  | nil => rfl
  | cons call calls ih =>
      rw [List.foldl_cons, ih fun call' hmem => h call' (List.mem_cons_of_mem _ hmem)]
      obtain ⟨hcommit, hdelete⟩ := h call List.mem_cons_self
      obtain ⟨c, b⟩ := call
      cases b with
      | false => rw [called_failed]
      | true =>
          cases c with
          | delete => exact absurd rfl hdelete
          | commit => exact absurd rfl hcommit
          | rollback => exact Session.rollback_durable
          | close => exact Session.close_durable

end Proxied

end TxLcn.Tc
