import TxLcn.Tc.Participant

/-!
# How a TC keeps a connection open

A `ProxyConnection` stands before a raw connection and makes the thread's
`JdbcTransaction` refer to it. When the business commits or rolls back, nothing
is called on the raw connection: the one the thread's `JdbcTransaction` refers
to, whichever proxy was called, is put into the `JdbcContext` under the group.
The commitor of the group takes it from there.

All of them look at the `TransactionInfo` and the `JdbcTransaction` of the
thread they run on, and throw if these are `null`. A raw connection is referred
to by its number.
-/

namespace TxLcn.Tc

namespace TransactionConstant

def LCN : String := "lcn"

def TXC : String := "txc"

end TransactionConstant

/-- What the thread local of a thread holds once it has opened a connection. -/
structure JdbcTransaction where
  connection : Nat
  transactionLogs : List TransactionLog := []
  deriving Repr, DecidableEq

/-- Which raw connection is kept for a group. -/
abbrev JdbcContext := String → Option Nat

/-- The map refuses a null key. -/
def JdbcContext.push (context : JdbcContext) (key : Option String) (connection : Nat) :
    Except (Option TxException) JdbcContext :=
  match key with
  | none => .error none
  | some key => .ok (Function.update context key (some connection))

/-- `saved` says whether `saveLog` returned; if not, it has thrown an `SQLException`. -/
def LcnCommitTransactionJdbcEvent.execute (transactionInfo : TransactionInfo)
    (jdbcTransaction : Option JdbcTransaction) (saved : Bool) (context : JdbcContext) :
    Except (Option TxException) JdbcContext :=
  match jdbcTransaction with
  | none => .error none
  | some jdbcTransaction =>
      if saved then context.push transactionInfo.groupId jdbcTransaction.connection
      else .error none

/-- The log rows are not saved. -/
def LcnRollbackTransactionJdbcEvent.execute (transactionInfo : TransactionInfo)
    (jdbcTransaction : Option JdbcTransaction) (context : JdbcContext) :
    Except (Option TxException) JdbcContext :=
  match jdbcTransaction with
  | none => .error none
  | some jdbcTransaction => context.push transactionInfo.groupId jdbcTransaction.connection

namespace TransactionJdbcEventListener

/-- There are events for the type LCN only, and the type is LCN or null. -/
def hasEvent (transactionInfo : TransactionInfo) : Bool :=
  transactionInfo.transactionType = some TransactionConstant.LCN

def onBeforeCommit (transactionInfo : Option TransactionInfo)
    (jdbcTransaction : Option JdbcTransaction) (saved : Bool) (context : JdbcContext) :
    Except (Option TxException) JdbcContext :=
  match transactionInfo with
  | none => .error none
  | some transactionInfo =>
      if hasEvent transactionInfo then
        LcnCommitTransactionJdbcEvent.execute transactionInfo jdbcTransaction saved context
      else .error none

def onBeforeRollback (transactionInfo : Option TransactionInfo)
    (jdbcTransaction : Option JdbcTransaction) (context : JdbcContext) :
    Except (Option TxException) JdbcContext :=
  match transactionInfo with
  | none => .error none
  | some transactionInfo =>
      if hasEvent transactionInfo then
        LcnRollbackTransactionJdbcEvent.execute transactionInfo jdbcTransaction context
      else .error none

end TransactionJdbcEventListener

/--
`TransactionCommitorStrategy.commit`, with the thread's `TransactionInfo` and
`JdbcTransaction`: which raw connection has been dealt with, and how. `raw`
gives the connections as they are before.
-/
def TransactionCommitorStrategy.commit (succeeds : RawCall → Bool) (raw : Nat → RawConnection)
    (context : JdbcContext) (transactionInfo : Option TransactionInfo)
    (jdbcTransaction : Option JdbcTransaction) (state : Bool) :
    Except (Option TxException) (Option (Nat × RawConnection)) :=
  match transactionInfo with
  | none => .error none
  | some transactionInfo =>
      if transactionInfo.transactionType = some TransactionConstant.LCN then
        match transactionInfo.groupId with
        | none => .error none
        | some groupId =>
            match context groupId with
            | none =>
                match LcnCommitor.commit succeeds none state with
                | .error e => .error (some e)
                | .ok _ => .ok none
            | some connection =>
                -- the ids of the log rows are asked of the `JdbcTransaction` before anything else
                if state && jdbcTransaction.isNone then .error none
                else match LcnCommitor.commit succeeds (some (raw connection)) state with
                  | .error e => .error (some e)
                  | .ok after => .ok (some (connection, after))
      else .ok none

/-! ## What the commitor does -/

variable {succeeds : RawCall → Bool} {connection : RawConnection} {d : Bool}

/-- The calls that `LcnCommitor` makes on the connection it has found. -/
def LcnCommitor.calls (succeeds : RawCall → Bool) : Bool → List (RawCall × Bool)
  | true =>
      if succeeds .delete then
        [(.delete, true), (.commit, succeeds .commit), (.close, succeeds .close)]
      else [(.delete, false), (.close, succeeds .close)]
  | false => [(.rollback, succeeds .rollback), (.close, succeeds .close)]

theorem LcnCommitor.commit_some : LcnCommitor.commit succeeds (some connection) d
    = .ok { calls := connection.calls ++ LcnCommitor.calls succeeds d } := by
  cases d with
  | false => simp [LcnCommitor.commit, LcnCommitor.calls, RawConnection.call]
  | true =>
      cases h : succeeds .delete <;>
        simp [LcnCommitor.commit, LcnCommitor.calls, RawConnection.call, h]

variable {raw : Nat → RawConnection} {context : JdbcContext} {info : TransactionInfo}
  {jdbcTransaction : Option JdbcTransaction} {g : String}

/-- The commitor of an LCN transaction ends in one of two ways. -/
theorem TransactionCommitorStrategy.commit_lcn (succeeds : RawCall → Bool)
    (raw : Nat → RawConnection) (context : JdbcContext) (jdbcTransaction : Option JdbcTransaction)
    (d : Bool) (hlcn : info.transactionType = some "lcn") (hg : info.groupId = some g) :
    (∃ c, context g = some c ∧ (d = true → jdbcTransaction ≠ none)
        ∧ commit succeeds raw context (some info) jdbcTransaction d
          = .ok (some (c, { calls := (raw c).calls ++ LcnCommitor.calls succeeds d })))
      ∨ ((context g = none ∨ d = true ∧ jdbcTransaction = none)
        ∧ ∃ e, commit succeeds raw context (some info) jdbcTransaction d = .error e) := by
  unfold commit
  simp only [hlcn, hg, TransactionConstant.LCN, if_true]
  cases hc : context g with
  | none => exact Or.inr ⟨Or.inl rfl, _, rfl⟩
  | some c =>
      dsimp only
      split
      · rename_i hnull
        simp only [Bool.and_eq_true, Option.isNone_iff_eq_none] at hnull
        exact Or.inr ⟨Or.inr hnull, _, rfl⟩
      · rename_i hthere
        simp only [Bool.and_eq_true, Option.isNone_iff_eq_none, not_and] at hthere
        rw [LcnCommitor.commit_some]
        exact Or.inl ⟨c, rfl, hthere, rfl⟩

end TxLcn.Tc
