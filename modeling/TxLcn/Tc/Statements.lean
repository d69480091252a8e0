import Mathlib.Logic.Function.Basic
import TxLcn.Lib.Exec
import TxLcn.Tc.SqlAnalyse

/-!
# The statements of a proxied connection

The driver's statements are wrapped, and what is known of each of them is kept
beside it: the text, and the values of its parameters. After an execution the
listener is told in a `finally` block, whether or not the driver has thrown, and
works with the text as it is kept then.

The text of a `Statement` grows with every `addBatch` and starts anew with the
next execution that is given one. A batch is executed at once, and the listener
is told once.
-/

namespace TxLcn.Tc

open TxLcn.Lib

/-- `Map<Integer, Value>`, each value by what it prints. -/
abbrev ParameterValues := List (Nat × String)

def ParameterValues.put (values : ParameterValues) (key : Nat) (value : String) :
    ParameterValues :=
  (key, value) :: values.filter fun entry => entry.1 ≠ key

/-- The text from here on, with the values in place of the question marks. -/
def replaceParameters (parameterValues : ParameterValues) : Nat → List Char → List Char
  | _, [] => []
  | currentParameter, character :: rest =>
      if character = '?' ∧ currentParameter ≤ parameterValues.length then
        ((parameterValues.lookup currentParameter).getD "NULL").toList
          ++ replaceParameters parameterValues (currentParameter + 1) rest
      else character :: replaceParameters parameterValues currentParameter rest

/-- What is kept beside a statement of the driver, and what the driver holds of its batch. -/
structure StatementInformation where
  statementQuery : Option String := none
  /-- Of a `PreparedStatement`. -/
  parameterValues : Option ParameterValues := none
  /-- The elements as they will get to the database. -/
  batch : List String := []
  deriving Repr, DecidableEq

namespace StatementInformation

def getSql (info : StatementInformation) : Option String := info.statementQuery

def getSqlWithValues (info : StatementInformation) : Option String :=
  match info.parameterValues with
  | none => info.getSql
  | some parameterValues => info.statementQuery.map fun statementQuery =>
      String.ofList (replaceParameters parameterValues 0 statementQuery.toList)

/-- `StatementWrapper.addBatch`: the text in front of what there is. -/
def appendQuery (info : StatementInformation) (lineSeparator sql : String) :
    StatementInformation :=
  { info with
    statementQuery := match info.statementQuery with
      | none => sql
      | some statementQuery => sql ++ lineSeparator ++ statementQuery }

end StatementInformation

/-- What an execution does, and the log row that a text would be made into after it. -/
structure Outcome (α : Type) where
  changes : List α := []
  newLog : String → TransactionLog

/-- A call on the connection or on one of its statements; `St` names these. -/
inductive StatementCall (St α : Type) where
  | createStatement (st : St)
  | prepareStatement (st : St) (sql : String)
  /-- Any of the `set` methods. -/
  | setParameter (st : St) (parameterIndex : Nat) (value : String)
  /-- `execute`, `executeUpdate` or `executeQuery`, which the database accepts or not. -/
  | execute (st : St) (sql : Option String) (accepted : Bool) (outcome : Outcome α)
  | addBatch (st : St) (sql : Option String)
  /-- Which of the elements the database accepts, as far as the driver has come. -/
  | executeBatch (st : St) (accepted : List Bool) (outcome : Outcome α)

/-- What the listener works with, on a thread that has a transaction. -/
structure Listener (α : Type) where
  platform : Platform
  database : Database α
  analyseHandlers : List SqlSqlAnalyseHandler
  tableList : TableList
  transactionInfo : TransactionInfo
  lineSeparator : String

namespace Listener

variable {α : Type}

def preAnalyse (l : Listener α) (sql : String) : Bool := MysqlSqlAnalyse.preAnalyse l.platform sql

def analyse (l : Listener α) (sql : String) : Analysis α String :=
  MysqlSqlAnalyse.analyse l.platform l.database l.analyseHandlers l.tableList sql

/-- MySQL is configured, and the connection is the only one of the thread. -/
def onAfterAnyExecute (l : Listener α) (newLog : String → TransactionLog)
    (jdbcTransaction : JdbcTransaction) (sql : String) : Analysis α (Option JdbcTransaction) :=
  TransactionJdbcEventListener.onAfterAnyExecute l.platform l.database MysqlSqlAnalyse.sqlType
    l.analyseHandlers l.tableList (fun sql => some (newLog sql)) (some l.transactionInfo)
    (some jdbcTransaction) sql

variable {l : Listener α} {sql : String}

theorem orThrow_type {info : TransactionInfo} {s : Session α}
    (hlcn : TransactionJdbcEventListener.hasEvent info = true) :
    Analysis.orThrow .nullPointerException info.transactionType s
      = .ok TransactionConstant.LCN s := by
  have htype : info.transactionType = some TransactionConstant.LCN := of_decide_eq_true hlcn
  rw [htype]
  rfl

/-- A recognised text is analysed, and what has become of it is added to the logs. -/
theorem onAfterAnyExecute_recognised (newLog : String → TransactionLog) (j : JdbcTransaction)
    (s : Session α) (hlcn : TransactionJdbcEventListener.hasEvent l.transactionInfo = true)
    (h : l.preAnalyse sql = true) :
    l.onAfterAnyExecute newLog j sql s = match l.analyse sql s with
      | .ok newSql t =>
          .ok (some { j with transactionLogs := j.transactionLogs ++ [newLog newSql] }) t
      | .error e t => .error e t := by
  have hpre : MysqlSqlAnalyse.preAnalyse l.platform sql = true := h
  unfold onAfterAnyExecute TransactionJdbcEventListener.onAfterAnyExecute
  refine (bind_of_ok rfl).trans ((bind_of_ok (orThrow_type hlcn)).trans ?_)
  rw [if_pos hlcn]
  unfold LcnAfterTransactionJdbcEvent.execute SqlAnalyseStrategy.analyse
  rw [if_pos (by simp [hpre])]
  split
  · rename_i newSql t hanalyse
    exact bind_of_ok (a := (newSql, true)) (t := t) (bind_of_ok hanalyse)
  · exact bind_of_error (bind_of_error ‹_›)

theorem onAfterAnyExecute_other (newLog : String → TransactionLog) (j : JdbcTransaction)
    (s : Session α) (hlcn : TransactionJdbcEventListener.hasEvent l.transactionInfo = true)
    (h : l.preAnalyse sql = false) :
    l.onAfterAnyExecute newLog j sql s = .ok (some j) s := by
  have hpre : MysqlSqlAnalyse.preAnalyse l.platform sql = false := h
  unfold onAfterAnyExecute TransactionJdbcEventListener.onAfterAnyExecute
  refine (bind_of_ok rfl).trans ((bind_of_ok (orThrow_type hlcn)).trans ?_)
  rw [if_pos hlcn]
  unfold LcnAfterTransactionJdbcEvent.execute SqlAnalyseStrategy.analyse
  rw [if_neg (by simp [hpre])]
  exact bind_of_ok rfl

end Listener

/-- The statements of a connection. The last two fields are for the record only. -/
structure Statements (St α : Type) where
  informations : St → Option StatementInformation := fun _ => none
  session : Session α := {}
  jdbcTransaction : JdbcTransaction
  /-- For each log, the text that it was made from. -/
  analysed : List String := []
  /-- What the database has accepted and `preAnalyse` recognises. -/
  accepted : List String := []

namespace Statements

variable {St α : Type} [DecidableEq St]

def setInformation (s : Statements St α) (st : St) (info : StatementInformation) :
    Statements St α :=
  { s with informations := Function.update s.informations st (some info) }

/-- The listener is told. What it throws reaches the business; the logs are as they were. -/
def onAfterAnyExecute (l : Listener α) (s : Statements St α) (outcome : Outcome α)
    (sql : Option String) : Statements St α :=
  match sql with
  | none => s
  | some sql =>
      match l.onAfterAnyExecute outcome.newLog s.jdbcTransaction sql s.session with
      | .ok (some jdbcTransaction) session =>
          { s with
            session
            jdbcTransaction
            analysed :=
              if jdbcTransaction.transactionLogs.length = s.jdbcTransaction.transactionLogs.length
              then s.analysed
              else s.analysed ++ [sql] }
      | .ok none session => { s with session }
      | .error _ session => { s with session }

/-- The database has accepted these texts, and perhaps thrown besides. -/
def executed (l : Listener α) (s : Statements St α) (st : St) (info : StatementInformation)
    (accepted : List String) (outcome : Outcome α) : Statements St α :=
  let s := s.setInformation st info
  let s := { s with
    session := s.session.write outcome.changes
    accepted := s.accepted ++ accepted.filter l.preAnalyse }
  s.onAfterAnyExecute l outcome info.getSqlWithValues

/-- A text that is executed is kept; a `PreparedStatement` has one. -/
def toExecute (info : StatementInformation) : Option String → Option StatementInformation
  | some sql => some { info with statementQuery := sql }
  | none => if info.parameterValues.isSome then some info else none

/-- The driver gets what the listener gives it: the whole text of a `Statement`. -/
def batched (lineSeparator : String) (info : StatementInformation) :
    Option String → Option StatementInformation
  | some sql =>
      let info := info.appendQuery lineSeparator sql
      some { info with batch := info.batch ++ info.getSql.toList }
  | none =>
      if info.parameterValues.isSome then
        some { info with batch := info.batch ++ info.getSqlWithValues.toList }
      else none

/-- The elements that the database accepts. -/
def acceptedElements (batch : List String) (accepted : List Bool) : List String :=
  ((batch.zip accepted).filter Prod.snd).map Prod.fst

def step (l : Listener α) (s : Statements St α) : StatementCall St α → Option (Statements St α)
  | .createStatement st =>
      if (s.informations st).isSome then none else some (s.setInformation st {})
  | .prepareStatement st sql =>
      if (s.informations st).isSome then none
      else some (s.setInformation st { statementQuery := sql, parameterValues := some [] })
  | .setParameter st parameterIndex value => do
      let info ← s.informations st
      let parameterValues ← info.parameterValues
      if parameterIndex = 0 then none
      else
        some (s.setInformation st { info with
          parameterValues := some (parameterValues.put (parameterIndex - 1) value) })
  | .execute st sql accepted outcome => do
      let info ← s.informations st
      let info ← toExecute info sql
      some (s.executed l st info (if accepted then info.getSqlWithValues.toList else []) outcome)
  | .addBatch st sql => do
      let info ← s.informations st
      let info ← batched l.lineSeparator info sql
      some (s.setInformation st info)
  | .executeBatch st accepted outcome => do
      let info ← s.informations st
      -- the listener works with the text that is kept, whatever the elements are
      some (s.executed l st { info with batch := [] } (acceptedElements info.batch accepted)
        outcome)

end Statements

end TxLcn.Tc
