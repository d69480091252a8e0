import TxLcn.Proof.LogRows
import TxLcn.Tc.LogExecutor

/-!
# A failed save

The rows are saved before the connection is captured. If one of them cannot be
saved the event ends there: the rows before it stay, and the connection is in the
`JdbcContext` only if an earlier call of the business has put it there.

`nothing_left_iff` says when a failed save leaves nothing behind and the commitor
finds the connection.
-/

namespace TxLcn.Proof

open TxLcn.Lib TxLcn.Tc TransactionLogExecutor

variable {rejects : LogTable → TransactionLog → Bool} {transactionLogs : List TransactionLog}
  {table : LogTable} {context : JdbcContext} {info : TransactionInfo} {current : JdbcTransaction}
  {g : String}

/-! ## What the event leaves -/

/-- The context after a call, which keeps what there was if it throws. -/
def contextAfter (context : JdbcContext) : Except (Option TxException) JdbcContext → JdbcContext
  | .ok context => context
  | .error _ => context

/-- A participation on a proxy is left with these rows, and with this context. -/
theorem proxied_commit {β : Type} {s : Proxied β}
    (hthere : s.participation.jdbcTransaction = some current)
    (hrows : Written.rows s.session.durable = table.map TransactionLog.id) :
    let result := LcnCommitTransactionJdbcEvent.executeOn rejects s.participation.transactionInfo
      (some current) s.context table
    let after := s.commit (saved rejects current.transactionLogs table)
    Written.rows after.session.durable = result.2.map TransactionLog.id
      ∧ after.context = contextAfter s.context result.1 := by
  have hlogs : s.transactionLogs = current.transactionLogs := by
    rw [Proxied.transactionLogs, hthere]
  have hlength : s.logIds.length = current.transactionLogs.length := by
    rw [Proxied.logIds, hlogs, List.length_map]
  refine ⟨?_, ?_⟩
  · rw [Proxied.commit_session, Session.elsewhere, rows_append_inserted, hrows]
    unfold LcnCommitTransactionJdbcEvent.executeOn
    rw [saveLog_table, List.map_append, List.map_take, Proxied.logIds, hlogs]
  · have hcaptured : (s.commit (saved rejects current.transactionLogs table)).context
        = contextAfter s.context (LcnCommitTransactionJdbcEvent.execute
            s.participation.transactionInfo s.participation.jdbcTransaction
            (s.logIds.length ≤ saved rejects current.transactionLogs table) s.context) := by
      rfl
    rw [hcaptured, hthere, hlength]
    unfold LcnCommitTransactionJdbcEvent.executeOn
    dsimp only
    rw [saveLog_returns]

/-! ## The commitor, after a failure -/

/-- There is no row, and a decision to roll back reaches the connection. -/
def NothingLeft (belongs : TransactionLog → Prop) (succeeds : RawCall → Bool)
    (raw : Nat → RawConnection) (info : TransactionInfo) (current : JdbcTransaction)
    (context : JdbcContext) (table : LogTable) : Prop :=
  (∀ row ∈ table, ¬ belongs row)
    ∧ ∃ after, TransactionCommitorStrategy.commit succeeds raw context (some info) (some current)
        false = .ok (some (current.connection, after))
      ∧ after.calls = (raw current.connection).calls
        ++ [(.rollback, succeeds .rollback), (.close, succeeds .close)]

/-- The commitor rolls back what the context has for the group. -/
theorem rolls_back_iff {succeeds : RawCall → Bool} {raw : Nat → RawConnection}
    (hlcn : info.transactionType = some TransactionConstant.LCN) (hgroup : info.groupId = some g) :
    (∃ after, TransactionCommitorStrategy.commit succeeds raw context (some info) (some current)
          false = .ok (some (current.connection, after))
        ∧ after.calls = (raw current.connection).calls
          ++ [(.rollback, succeeds .rollback), (.close, succeeds .close)])
      ↔ context g = some current.connection := by
  have hends := TransactionCommitorStrategy.commit_lcn succeeds raw context (some current) false
    hlcn hgroup
  constructor
  · intro ⟨after, hafter, _⟩
    rcases hends with ⟨c, hc, _, heq⟩ | ⟨_, e, heq⟩
    · rw [heq] at hafter
      cases hafter
      exact hc
    · rw [heq] at hafter
      cases hafter
  · intro hc
    rcases hends with ⟨c, hc', _, heq⟩ | ⟨hnone, _⟩
    · rw [hc] at hc'
      cases hc'
      exact ⟨_, heq, rfl⟩
    · simp [hc] at hnone

/-- No row is left if the first one cannot be saved, and there has been none. -/
theorem no_rows_iff {belongs : TransactionLog → Prop}
    (hlogs : ∀ transactionLog ∈ transactionLogs, belongs transactionLog)
    (hfails : (saveLog rejects transactionLogs table).1 = false) :
    (∀ row ∈ (saveLog rejects transactionLogs table).2, ¬ belongs row)
      ↔ (∃ first ∈ transactionLogs.head?, rejects table first = true)
        ∧ ∀ row ∈ table, ¬ belongs row := by
  rw [saveLog_table]
  cases transactionLogs with
  | nil => cases hfails
  | cons transactionLog transactionLogs =>
      unfold saved
      split
      · rename_i hreject
        simp [hreject]
      · rename_i haccept
        have hfirst := hlogs transactionLog List.mem_cons_self
        -- it is the first row that stays
        constructor
        · intro hnone
          exact absurd hfirst (hnone transactionLog (by simp))
        · rintro ⟨⟨first, hhead, hreject⟩, _⟩
          cases hhead
          exact absurd hreject haccept

/--
**A save that fails leaves nothing behind exactly when** it fails at the first
row, there has been no row before, and an earlier call has captured the
connection for the group.
-/
theorem nothing_left_iff {belongs : TransactionLog → Prop} (succeeds : RawCall → Bool)
    (raw : Nat → RawConnection)
    (hlogs : ∀ transactionLog ∈ current.transactionLogs, belongs transactionLog)
    (hlcn : info.transactionType = some TransactionConstant.LCN) (hgroup : info.groupId = some g)
    (hfails : (saveLog rejects current.transactionLogs table).1 = false) :
    let result := LcnCommitTransactionJdbcEvent.executeOn rejects info (some current) context table
    NothingLeft belongs succeeds raw info current (contextAfter context result.1) result.2
      ↔ (∃ first ∈ current.transactionLogs.head?, rejects table first = true)
        ∧ (∀ row ∈ table, ¬ belongs row) ∧ context g = some current.connection := by
  -- the connection is not captured, since that comes after the rows
  have hthrown : (LcnCommitTransactionJdbcEvent.executeOn rejects info (some current) context
      table).1 = .error none := by
    unfold LcnCommitTransactionJdbcEvent.executeOn LcnCommitTransactionJdbcEvent.execute
    dsimp only
    rw [hfails]
    rfl
  dsimp only
  rw [hthrown]
  unfold NothingLeft contextAfter
  rw [rolls_back_iff hlcn hgroup, ← and_assoc]
  exact and_congr_left' (no_rows_iff hlogs hfails)

/-- A thread that has recorded these statements of the group `g`. -/
def recorded (ids : List Long) : JdbcTransaction where
  connection := 0
  transactionLogs := ids.map fun id =>
    { id, groupId := some "g", sql := "update account set balance = 0 where id = 1", time := 0
      flag := 0 }

/-- Its thread. -/
def lcnCreator : TransactionInfo :=
  { groupId := some "g", transactionType := some "lcn", transactionState := .CREATE }

/-- What is left of the log, if the row with the id `2` cannot be saved. -/
def savedRecorded (ids : List Long) (context : JdbcContext) :
    Except (Option TxException) JdbcContext × LogTable :=
  LcnCommitTransactionJdbcEvent.executeOn (fun _ row => row.id = 2) lcnCreator
    (some (recorded ids)) context []

/-- The business has called `rollback` before `commit`. -/
theorem nothing_left_captured : NothingLeft (fun row => row.groupId = some "g") (fun _ => true)
    (fun _ => {}) lcnCreator (recorded [2])
    (contextAfter (fun _ => some 0) (savedRecorded [2] fun _ => some 0).1)
    (savedRecorded [2] fun _ => some 0).2 := by
  have hlogs : ∀ row ∈ (recorded [2]).transactionLogs, row.groupId = some "g" := by decide
  exact (nothing_left_iff _ _ hlogs rfl rfl rfl).mpr ⟨⟨_, rfl, rfl⟩, by simp, rfl⟩

/-- A business that has not: the first row stays, and the context has nothing for the group. -/
theorem not_nothing_left : ¬ NothingLeft (fun row => row.groupId = some "g") (fun _ => true)
    (fun _ => {}) lcnCreator (recorded [1, 2])
    (contextAfter (fun _ => none) (savedRecorded [1, 2] fun _ => none).1)
    (savedRecorded [1, 2] fun _ => none).2 := by
  intro ⟨hnone, _⟩
  have hstays : (savedRecorded [1, 2] fun _ => none).2 = (recorded [1]).transactionLogs := rfl
  rw [hstays] at hnone
  exact hnone _ List.mem_cons_self rfl

end TxLcn.Proof
