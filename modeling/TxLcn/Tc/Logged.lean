import TxLcn.Tc.Captures
import TxLcn.Tc.LogExecutor

/-!
# The log of one TC

All participations of a TC put their rows into one table, with the log id that
the TC has in its cache at the time. A row is recorded when a statement has been
executed, saved when the business commits, and deleted when the participation is
told to commit.

The deletion is a statement on the connection of the business: it lasts if that
is committed, or at once if the connection is in auto-commit mode.
-/

namespace TxLcn.Tc

open TxLcn.Lib TxLcn.Protocol

/-- What `JdbcTransaction.current()` lists on its thread. -/
def Participation.transactionLogs (q : Participation) : List TransactionLog :=
  match q.jdbcTransaction with
  | some jdbcTransaction => jdbcTransaction.transactionLogs
  | none => []

structure Logged where
  captures : Captures := {}
  cache : Cache := {}
  /-- Of the raw connections, as a pool hands them out. -/
  autoCommit : Nat → Bool := fun _ => true
  table : LogTable := []

namespace Logged

inductive Event where
  /-- `reply` is what the TM answers, if it is asked. -/
  | getGroupIdAndLogId (reply : Option SnowflakeCreateEvent)
  | refresh (key : String)
  /-- A participation starts on a new thread, or on the one of an earlier participation. -/
  | start (p : Nat) (groupId : String) (transactionState : TransactionState) (thread : Option Nat)
  | openConnection (p connection : Nat)
  | setAutoCommit (p connection : Nat)
  /--
  A statement of the business has been executed and analysed. `restored` is whether
  the analysis leaves the flag as it was; that of an INSERT that returns early does not.
  -/
  | record (p connection : Nat) (newSql : String) (now : Nat) (leastSignificantBits : Long)
      (restored : Bool)
  | commit (p connection : Nat)
  | rollback (p connection : Nat)
  | decide (p : Nat) (state : Bool) (succeeds : RawCall → Bool)

/-- What the thread refers to. -/
def leftBy (s : Logged) (thread : Option Nat) : Option JdbcTransaction :=
  (thread.bind s.captures.participations).bind Participation.jdbcTransaction

/-- `JdbcTransaction.current().add(new TransactionLog(newSql))`. -/
def record (s : Logged) (p : Nat) (q : Participation) (newSql : String) (now : Nat)
    (leastSignificantBits : Long) : Logged :=
  let (log, cache) :=
    TransactionLog.new newSql (some q.transactionInfo) now s.cache leastSignificantBits
  let jdbcTransaction := q.jdbcTransaction.map fun jdbcTransaction =>
    { jdbcTransaction with
      transactionLogs := jdbcTransaction.transactionLogs ++ log.toList }
  { s with captures := s.captures.setParticipation p { q with jdbcTransaction }, cache }

/-- The context after `LcnCommitTransactionJdbcEvent`, or what it throws, and the rows. -/
def saving (rejects : LogTable → TransactionLog → Bool) (s : Logged) (q : Participation) :
    Except (Option TxException) JdbcContext × LogTable :=
  LcnCommitTransactionJdbcEvent.executeOn rejects q.transactionInfo q.jdbcTransaction
    s.captures.context s.table

/-- The ids that `LcnCommitor` deletes, if that lasts. -/
def deleted (s : Logged) (p : Nat) (state : Bool) (succeeds : RawCall → Bool) : List Long :=
  match s.captures.undecided p with
  | none => []
  | some q =>
      match TransactionCommitorStrategy.commit succeeds s.captures.raw s.captures.context
          (some q.transactionInfo) q.jdbcTransaction state with
      | .ok (some (connection, _)) =>
          if state && succeeds .delete && (s.autoCommit connection || succeeds .commit) then
            q.transactionLogs.map TransactionLog.id
          else []
      | _ => []

def step (rejects : LogTable → TransactionLog → Bool) (s : Logged) : Event → Option Logged
  | .getGroupIdAndLogId reply =>
      some { s with cache := SnowflakeInfo.getGroupIdAndLogId s.cache reply }
  | .refresh key => some { s with cache := s.cache.refresh key }
  | .start p groupId transactionState thread =>
      (s.captures.step (.start p groupId transactionState (s.leftBy thread))).map fun captures =>
        { s with captures }
  | .openConnection p connection =>
      (s.captures.step (.openConnection p connection)).map fun captures => { s with captures }
  | .setAutoCommit p connection =>
      -- whatever the flag is to be, the connection gets false; so it does when the analysis
      -- of an INSERT throws, and nothing is recorded
      (s.captures.ownerOf p connection).map fun _ =>
        { s with autoCommit := Function.update s.autoCommit connection false }
  | .record p connection newSql now bits restored =>
      (s.captures.ownerOf p connection).map fun q =>
        let recorded := s.record p q newSql now bits
        { recorded with
          autoCommit := if restored then recorded.autoCommit
            else Function.update recorded.autoCommit connection false }
  | .commit p connection =>
      (s.captures.ownerOf p connection).map fun q =>
        let (context, table) := s.saving rejects q
        { s with captures := s.captures.capture connection context, table }
  | .rollback p connection =>
      (s.captures.step (.proxyRollback p connection)).map fun captures => { s with captures }
  | .decide p state succeeds =>
      (s.captures.step (.decide p state succeeds)).map fun captures =>
        { s with
          captures
          table := s.table.filter fun row => row.id ∉ s.deleted p state succeeds }

/-- The ids of the rows. -/
def rows (s : Logged) : List Long := s.table.map TransactionLog.id

/-! ## What the operations change -/

variable {rejects : LogTable → TransactionLog → Bool} {s : Logged} {p : Nat} {q : Participation}
  {newSql : String} {now : Nat} {bits id : Long}

/-- The rows that are saved stay, whichever way the call ends. -/
theorem saving_table : (s.saving rejects q).2
    = (TransactionLogExecutor.saveLog rejects q.transactionLogs s.table).2 := by
  unfold saving LcnCommitTransactionJdbcEvent.executeOn Participation.transactionLogs
  cases q.jdbcTransaction with
  | none => rfl
  | some current => rfl

/-- The connection is captured once all rows are saved. -/
theorem saving_ok_iff {current : JdbcTransaction} (hthere : q.jdbcTransaction = some current) :
    (∃ context, (s.saving rejects q).1 = .ok context)
      ↔ (TransactionLogExecutor.saveLog rejects q.transactionLogs s.table).1 = true := by
  have hlogs : q.transactionLogs = current.transactionLogs := by
    rw [Participation.transactionLogs, hthere]
  unfold saving LcnCommitTransactionJdbcEvent.executeOn LcnCommitTransactionJdbcEvent.execute
  rw [hlogs, hthere]
  dsimp only
  cases (TransactionLogExecutor.saveLog rejects current.transactionLogs s.table).1 with
  | false => simp
  | true => simp [Participation.transactionInfo, JdbcContext.push]

/-- What is recorded takes the id in the cache. -/
theorem record_cached (hid : s.cache.lookup SnowflakeConstant.LOG_ID = some (.long id)) :
    s.record p q newSql now bits = { s with
      captures := s.captures.setParticipation p { q with
        jdbcTransaction := q.jdbcTransaction.map fun jdbcTransaction =>
          { jdbcTransaction with
            transactionLogs :=
              jdbcTransaction.transactionLogs ++ [⟨id, some q.groupId, newSql, now, 0⟩] } }
      cache := (s.cache.getLogId bits).2 } := by
  have hget : s.cache.getLogId bits = (id, (s.cache.getLogId bits).2) :=
    Prod.ext (Cache.getLogId_long hid) rfl
  unfold record TransactionLog.new
  rw [hget]
  rfl

end Logged

end TxLcn.Tc
