import Mathlib.Data.List.Infix
import TxLcn.Lib.Session
import TxLcn.Tc.Jdbc

/-!
# The analysis of a statement

After a statement of the business has been executed through a proxy it is parsed
and, if it is recognised, rewritten so that it names the rows it is about; the
text is added to the logs of the thread's `JdbcTransaction`. An `UPDATE` or a
`DELETE` is rewritten with the keys that a query gives. For an `INSERT` the keys
are found by executing it once more and rolling it back. All of this happens on
the raw connection that the business works on.

The parser, the database and what depends on the platform are parameters. An
expression is given by the text that it prints.
-/

namespace TxLcn.Tc

open TxLcn.Lib

/-! ## Statements -/

structure Alias where
  name : String
  /-- What it prints. -/
  text : String

structure Table where
  name : String
  «alias» : Option Alias := none

inductive ItemsList where
  | expressionList (expressions : List String)
  | multiExpressionList (exprList : List (List String))
  /-- A select, for example. -/
  | other

structure Insert where
  table : Table
  columns : Option (List String)
  itemsList : Option ItemsList

/-- Its right item, if that is a table. -/
structure Join where
  rightItem : Option Table

/-- An `UPDATE` or a `DELETE`. -/
structure Change where
  table : Table
  condition : Option String
  joins : Option (List Join)

inductive Statement where
  | insert (statement : Insert)
  | update (statement : Change)
  | delete (statement : Change)
  | other

/-! ## Tables -/

inductive JDBCType where
  | VARCHAR
  | NVARCHAR
  | CHAR
  | INTEGER
  | SMALLINT
  | TINYINT
  | BIGINT
  | other (name : String)
  deriving Repr, DecidableEq

structure ColumnInfo where
  name : String
  type : JDBCType

structure TableInfo where
  table : String
  columnInfos : List ColumnInfo
  primaryKeys : List String

/-- `null` if nothing is known about the catalog. -/
abbrev TableList := Option (List TableInfo)

/-! ## What comes from outside -/

inductive SqlValue where
  | string (value : String)
  | integer (value : Int)
  | long (value : Int)
  /-- Of any other class, by what it prints. -/
  | other (text : String)
  deriving Repr, DecidableEq

def SqlValue.toString : SqlValue → String
  | string value => value
  | integer value => Int.repr value
  | long value => Int.repr value
  | other text => text

abbrev Row := String → Option SqlValue

/-- What is called on the raw connection besides the execution of statements. -/
inductive SessionCall where
  | setAutoCommit
  | rollback

structure Database (α : Type) where
  /-- The changes that a statement makes and the keys that it generates, if it is executed. -/
  insert : Session α → String → Option (List α × List Row)
  query : Session α → String → Option (List Row)
  /-- The call throws. -/
  refuses : SessionCall → Bool

structure Platform where
  toUpperCase : String → String
  equalsIgnoreCase : String → String → Bool
  /-- `CCJSqlParserManager.parse`, if it does not throw. -/
  parse : String → Option Statement
  /-- What an `INSERT` prints. -/
  print : Insert → String
  /-- What a `StringValue` prints. -/
  stringValue : String → String

inductive Thrown where
  | sqlException
  | jsqlParserException
  | nullPointerException
  | indexOutOfBoundsException
  | classCastException
  | noSuchElementException
  deriving Repr, DecidableEq

/-- The analysis works on a session; what it has done before it throws stays done. -/
abbrev Analysis (α β : Type) := EStateM Thrown (Session α) β

namespace Analysis

variable {α β : Type}

def ofExcept : Except Thrown β → Analysis α β
  | .ok b => pure b
  | .error e => throw e

def orThrow (e : Thrown) : Option β → Analysis α β
  | some b => pure b
  | none => throw e

def setAutoCommit (db : Database α) (autoCommit : Bool) : Analysis α Unit :=
  if db.refuses .setAutoCommit then throw .sqlException
  else modify fun s => s.setAutoCommit autoCommit

def rollback (db : Database α) : Analysis α Unit :=
  if db.refuses .rollback then throw .sqlException else modify fun s => s.rollback

/-- `queryRunner.query`. -/
def query (db : Database α) (sql : String) : Analysis α (List Row) := do
  orThrow .sqlException (db.query (← get) sql)

/-- `queryRunner.insert`. -/
def insert (db : Database α) (sql : String) : Analysis α (List Row) := do
  let (changes, rows) ← orThrow .sqlException (db.insert (← get) sql)
  modify fun s => s.write changes
  pure rows

end Analysis

variable {α : Type} (p : Platform) (db : Database α)

/-! ## Filters -/

/-- A table that is not known is `null`. -/
def TableList.getTable (tableList : TableList) (tableName : String) :
    Except Thrown (Option TableInfo) :=
  match tableList with
  | none => .error .nullPointerException
  | some tableInfos =>
      .ok (tableInfos.find? fun tableInfo => p.equalsIgnoreCase tableInfo.table tableName)

/-- `null.getPrimaryKeys()` throws. -/
def TableList.getPrimaryKeys (tableList : TableList) (table : Table) :
    Except Thrown (List String) :=
  match TableList.getTable p tableList table.name with
  | .error e => .error e
  | .ok none => .error .nullPointerException
  | .ok (some tableInfo) => .ok tableInfo.primaryKeys

/-- `getPrimaryKeys().get(0)`. -/
def TableList.getPrimaryKey (tableList : TableList) (table : Table) : Except Thrown String :=
  match TableList.getPrimaryKeys p tableList table with
  | .error e => .error e
  | .ok [] => .error .indexOutOfBoundsException
  | .ok (pk :: _) => .ok pk

def CheckTableContainsPkFilter.doFilter (tableList : TableList) (table : Table) :
    Except Thrown Bool :=
  (TableList.getPrimaryKeys p tableList table).map fun primaryKeys => !primaryKeys.isEmpty

def ItemsListFilter.doFilter (itemsList : Option ItemsList) : Except Thrown Bool :=
  .ok itemsList.isSome

def WhereFilter.doFilter (condition : Option String) : Except Thrown Bool := .ok condition.isSome

/-- Whether the text occurs in the other one. -/
def contains (text occurs : String) : Bool := occurs.toList <:+: text.toList

def CheckWhereContainsPkFilter.doFilter (tableList : TableList) (table : Table)
    (condition : Option String) : Except Thrown Bool :=
  match TableList.getTable p tableList table.name, condition with
  | .error e, _ => .error e
  | .ok _, none => .error .nullPointerException
  | .ok _, some condition =>
      (TableList.getPrimaryKey p tableList table).map fun pk =>
        contains (p.toUpperCase condition) (p.toUpperCase pk)

/-- `SqlAnalysqFilterChain.doFilter`: a filter is asked only if those before it have agreed. -/
def SqlAnalysqFilterChain.doFilter : List (Except Thrown Bool) → Except Thrown Bool
  | [] => .ok true
  | filter :: filterList =>
      match filter with
      | .ok true => doFilter filterList
      | .ok false => .ok false
      | .error e => .error e

/-! ## Inserts -/

namespace MysqlSqlDetailAnalyse

/-- The row and the columns without the key, or nothing if its value is not `NULL`. -/
def removeKey (columns row : List String) (pkIndex : Nat) :
    Except Thrown (Option (List String × List String)) :=
  match row[pkIndex]? with
  | none => .error .indexOutOfBoundsException
  | some defaultValue =>
      if p.toUpperCase defaultValue ≠ "NULL" then .ok none
      else if pkIndex < columns.length then
        .ok (some (columns.eraseIdx pkIndex, row.eraseIdx pkIndex))
      else .error .indexOutOfBoundsException

/-- Each row takes a column away. -/
def removeKeys (pkIndex : Nat) : List String → List (List String) →
    Except Thrown (Option (List String × List (List String)))
  | columns, [] => .ok (some (columns, []))
  | columns, row :: rows =>
      match removeKey p columns row pkIndex with
      | .error e => .error e
      | .ok none => .ok none
      | .ok (some (columns, row)) =>
          match removeKeys pkIndex columns rows with
          | .error e => .error e
          | .ok none => .ok none
          | .ok (some (columns, rows)) => .ok (some (columns, row :: rows))

/-- `insert.get(i).get("GENERATED_KEY").toString()`. -/
def generatedKey (insert : List Row) (i : Nat) : Except Thrown String :=
  match insert[i]? with
  | none => .error .indexOutOfBoundsException
  | some row =>
      match row "GENERATED_KEY" with
      | none => .error .nullPointerException
      | some value => .ok value.toString

/-- The generated keys from the `i`th on, one behind each row. -/
def addKeys (insert : List Row) : Nat → List (List String) → Except Thrown (List (List String))
  | _, [] => .ok []
  | i, row :: rows =>
      match generatedKey insert i with
      | .error e => .error e
      | .ok key =>
          match addKeys insert (i + 1) rows with
          | .error e => .error e
          | .ok rows => .ok ((row ++ [p.stringValue key]) :: rows)

/--
What the two insert analyses have in common, for the rows of the statement: with
a key that is not `NULL` the statement is left as it is; otherwise it is executed
once more, and its columns and rows are given back with the generated keys.
-/
def insertAnalyse (sql : String) (columns : List String) (rows : List (List String))
    (pk : String) (pkIndex : Option Nat) :
    Analysis α (Option (List String × List (List String))) := do
  let removed ← Analysis.ofExcept <| match pkIndex with
    | none => .ok (some (columns, rows))
    | some pkIndex => removeKeys p pkIndex columns rows
  match removed with
  | none => pure none
  | some (columns, rows) =>
      let insert ← Analysis.insert db sql
      let rows ← Analysis.ofExcept (addKeys p insert 0 rows)
      pure (some (columns ++ [pk], rows))

/-- Whether the statement is to be left as it is, and what has become of it. -/
def multiInsertAnalyse (sql : String) (statement : Insert) (columns : List String)
    (pk : String) (pkIndex : Option Nat) : Analysis α (Bool × Insert) := do
  match statement.itemsList with
  | some (.multiExpressionList exprList) =>
      match ← insertAnalyse p db sql columns exprList pk pkIndex with
      | none => pure (true, statement)
      | some (columns, exprList) =>
          pure (false, { statement with
            columns := some columns
            itemsList := some (.multiExpressionList exprList) })
  | _ => pure (false, statement)

def singleInsertAnalyse (sql : String) (statement : Insert) (columns : List String)
    (pk : String) (pkIndex : Option Nat) : Analysis α (Bool × Insert) := do
  match statement.itemsList with
  | some (.expressionList expressions) =>
      -- the one row stays the only one
      match ← insertAnalyse p db sql columns [expressions] pk pkIndex with
      | some (columns, [expressions]) =>
          pure (false, { statement with
            columns := some columns
            itemsList := some (.expressionList expressions) })
      | _ => pure (true, statement)
  | _ => pure (false, statement)

end MysqlSqlDetailAnalyse

/-- The filters of an `INSERT`. -/
def MysqlInsertAnalyseStrategy.doFilter (tableList : TableList) (statement : Insert) :
    Except Thrown Bool :=
  SqlAnalysqFilterChain.doFilter
    [CheckTableContainsPkFilter.doFilter p tableList statement.table,
      ItemsListFilter.doFilter statement.itemsList]

/-- The first column that is the key. -/
def MysqlInsertAnalyseStrategy.pkIndex (columns : List String) (pk : String) : Option Nat :=
  columns.findIdx? fun column => p.toUpperCase column == p.toUpperCase pk

def MysqlInsertAnalyseStrategy.analyse (tableList : TableList) (sql : String)
    (statement : Insert) : Analysis α String := do
  let defaultAutoCommit := (← get).autoCommit
  Analysis.setAutoCommit db false
  if !(← Analysis.ofExcept (doFilter p tableList statement)) then return sql
  let pk ← Analysis.ofExcept (TableList.getPrimaryKey p tableList statement.table)
  let columns ← Analysis.orThrow .nullPointerException statement.columns
  let index := pkIndex p columns pk
  let (left, statement) ←
    MysqlSqlDetailAnalyse.multiInsertAnalyse p db sql statement columns pk index
  if left then return sql
  let (left, statement) ←
    MysqlSqlDetailAnalyse.singleInsertAnalyse p db sql statement columns pk index
  if left then return sql
  Analysis.rollback db
  Analysis.setAutoCommit db defaultAutoCommit
  return p.print statement

/-! ## Updates and deletes -/

structure SqlAnalyseInfo where
  select : String
  querySql : String
  primaryKey : String
  primaryKeyType : JDBCType

namespace MysqlSqlDetailAnalyse

/-- A table as it stands in the `from` part of the query. -/
def tableName (table : Table) : String :=
  match table.alias with
  | some «alias» => table.name ++ " " ++ alias.text
  | none => table.name

/-- What the joins add to the `from` part. -/
def joined : List Join → Except Thrown String
  | [] => .ok ""
  | join :: joinList =>
      match join.rightItem with
      | none => .error .classCastException
      | some table => (joined joinList).map fun rest => "," ++ tableName table ++ rest

def sqlAnalyseSingleTable (tableList : TableList) (table : Table) (condition : String)
    (joinList : Option (List Join)) : Except Thrown SqlAnalyseInfo := do
  let primaryKey ← TableList.getPrimaryKey p tableList table
  let select := match table.alias with
    | some «alias» => alias.name ++ "." ++ primaryKey
    | none => primaryKey
  let joins ← match joinList with
    | none => .error .nullPointerException
    | some joinList => joined joinList
  let querySql :=
    "select " ++ select ++ " from " ++ tableName table ++ joins ++ " where " ++ condition
  let columnInfos := match TableList.getTable p tableList table.name with
    | .ok (some tableInfo) => tableInfo.columnInfos
    | _ => []
  match columnInfos.find? fun columnInfo => columnInfo.name == primaryKey with
  | none => .error .noSuchElementException
  | some columnInfo =>
      .ok { select, querySql, primaryKey, primaryKeyType := columnInfo.type }

/-- A key as it is written into the statement. -/
def splicedKey (primaryKeyType : JDBCType) (value : Option SqlValue) : Except Thrown String :=
  match primaryKeyType, value with
  | _, none => .error .nullPointerException
  | .INTEGER, some (.integer value) | .SMALLINT, some (.integer value)
  | .TINYINT, some (.integer value) => .ok (Int.repr value)
  | .BIGINT, some (.long value) => .ok (Int.repr value)
  | .INTEGER, _ | .SMALLINT, _ | .TINYINT, _ | .BIGINT, _ => .error .classCastException
  -- the branch for a type that is not named is the one for strings
  | _, some (.string value) => .ok ("'" ++ value ++ "'")
  | _, _ => .error .classCastException

def splicedKeys (sqlAnalyseInfo : SqlAnalyseInfo) : List Row → Except Thrown String
  | [] => .ok ""
  | [row] => splicedKey sqlAnalyseInfo.primaryKeyType (row sqlAnalyseInfo.primaryKey)
  | row :: query => do
      let key ← splicedKey sqlAnalyseInfo.primaryKeyType (row sqlAnalyseInfo.primaryKey)
      let keys ← splicedKeys sqlAnalyseInfo query
      .ok (key ++ " , " ++ keys)

def splicingNewSql (sql : String) (sqlAnalyseInfo : SqlAnalyseInfo) (query : List Row) :
    Except Thrown String :=
  (splicedKeys sqlAnalyseInfo query).map fun keys =>
    sql ++ " and " ++ sqlAnalyseInfo.select ++ " in ( " ++ keys ++ ")"

end MysqlSqlDetailAnalyse

/-- What the two strategies do for a statement with a condition. -/
def Change.analyse (tableList : TableList) (sql : String) (statement : Change) :
    Analysis α String := do
  let filtered ← Analysis.ofExcept <| SqlAnalysqFilterChain.doFilter
    [WhereFilter.doFilter statement.condition,
      CheckTableContainsPkFilter.doFilter p tableList statement.table,
      CheckWhereContainsPkFilter.doFilter p tableList statement.table statement.condition]
  if !filtered then return sql
  let condition ← Analysis.orThrow .nullPointerException statement.condition
  let sqlAnalyseInfo ← Analysis.ofExcept <| MysqlSqlDetailAnalyse.sqlAnalyseSingleTable p
    tableList statement.table condition statement.joins
  let query ← Analysis.query db sqlAnalyseInfo.querySql
  if query.isEmpty then return sql
  Analysis.ofExcept (MysqlSqlDetailAnalyse.splicingNewSql sql sqlAnalyseInfo query)

/-- The joins are the start joins of the statement. -/
def MysqlUpdateAnalyseStrategy.analyse (tableList : TableList) (sql : String)
    (statement : Change) : Analysis α String := statement.analyse p db tableList sql

def MysqlDeleteAnalyseStrategy.analyse (tableList : TableList) (sql : String)
    (statement : Change) : Analysis α String := statement.analyse p db tableList sql

/-! ## The analysis -/

/-- The handlers there are. Each takes the statements of its own class. -/
inductive SqlSqlAnalyseHandler where
  | insert
  | update
  | delete
  deriving Repr, DecidableEq

def SqlSqlAnalyseHandler.preAnalyse : SqlSqlAnalyseHandler → Statement → Bool
  | insert, .insert _ => true
  | update, .update _ => true
  | delete, .delete _ => true
  | _, _ => false

def AnalyseStrategryFactory.getInvokeStrategy (analyseHandlers : List SqlSqlAnalyseHandler)
    (statement : Statement) : Option SqlSqlAnalyseHandler :=
  analyseHandlers.find? fun handler => handler.preAnalyse statement

/-- Java's `trim`. -/
def trim (sql : String) : String :=
  String.ofList
    (((sql.toList.dropWhile (· ≤ ' ')).reverse.dropWhile (· ≤ ' ')).reverse)

namespace MysqlSqlAnalyse

def sqlType : String := "mysql"

def preAnalyse (sql : String) : Bool :=
  let newSql := p.toUpperCase (trim sql)
  "INSERT".toList <+: newSql.toList || "UPDATE".toList <+: newSql.toList
    || "DELETE".toList <+: newSql.toList

def analyse (analyseHandlers : List SqlSqlAnalyseHandler) (tableList : TableList) (sql : String) :
    Analysis α String := do
  let stmt ← Analysis.orThrow .jsqlParserException (p.parse sql)
  match AnalyseStrategryFactory.getInvokeStrategy analyseHandlers stmt, stmt with
  | none, _ => pure sql
  | some _, .insert statement => MysqlInsertAnalyseStrategy.analyse p db tableList sql statement
  | some _, .update statement => MysqlUpdateAnalyseStrategy.analyse p db tableList sql statement
  | some _, .delete statement => MysqlDeleteAnalyseStrategy.analyse p db tableList sql statement
  | some _, .other => pure sql

end MysqlSqlAnalyse

/--
`SqlAnalyseStrategy.analyse`, with the SQL type that is configured: the text, and
whether it is to be added to the logs.
-/
def SqlAnalyseStrategy.analyse (sqlType : String) (analyseHandlers : List SqlSqlAnalyseHandler)
    (tableList : TableList) (sql : String) : Analysis α (String × Bool) := do
  if sqlType = MysqlSqlAnalyse.sqlType && MysqlSqlAnalyse.preAnalyse p sql then
    let newSql ← MysqlSqlAnalyse.analyse p db analyseHandlers tableList sql
    pure (newSql, true)
  else pure (sql, false)

/-- `newLog` is what `new TransactionLog` gives for a text, if it does not throw. -/
def LcnAfterTransactionJdbcEvent.execute (sqlType : String)
    (analyseHandlers : List SqlSqlAnalyseHandler) (tableList : TableList)
    (newLog : String → Option TransactionLog) (jdbcTransaction : Option JdbcTransaction)
    (sql : String) : Analysis α (Option JdbcTransaction) := do
  let (newSql, logged) ← SqlAnalyseStrategy.analyse p db sqlType analyseHandlers tableList sql
  if logged then
    let transactionLog ← Analysis.orThrow .nullPointerException (newLog newSql)
    let jdbcTransaction ← Analysis.orThrow .nullPointerException jdbcTransaction
    pure (some { jdbcTransaction with
      transactionLogs := jdbcTransaction.transactionLogs ++ [transactionLog] })
  else pure jdbcTransaction

/-- What the thread's `JdbcTransaction` is after it. A type that is null cannot be compared. -/
def TransactionJdbcEventListener.onAfterAnyExecute (sqlType : String)
    (analyseHandlers : List SqlSqlAnalyseHandler) (tableList : TableList)
    (newLog : String → Option TransactionLog) (transactionInfo : Option TransactionInfo)
    (jdbcTransaction : Option JdbcTransaction) (sql : String) :
    Analysis α (Option JdbcTransaction) := do
  let transactionInfo ← Analysis.orThrow .nullPointerException transactionInfo
  let _ ← Analysis.orThrow .nullPointerException transactionInfo.transactionType
  if hasEvent transactionInfo then
    LcnAfterTransactionJdbcEvent.execute p db sqlType analyseHandlers tableList newLog
      jdbcTransaction sql
  else pure jdbcTransaction

/-! ## What the parts do to the session -/

namespace Analysis

variable {db}
variable {β γ : Type} {s : Session α} {sql : String} {L : γ → Session α → Prop}
  {E : Session α → Prop}

theorem ends_ofExcept {x : Except Thrown β} :
    Ends (ofExcept x) s (fun b t => x = .ok b ∧ t = s) (· = s) := by
  cases x with
  | ok b => exact Ends.of_pure ⟨rfl, rfl⟩
  | error e => exact Ends.of_throw rfl

theorem ends_orThrow {e : Thrown} {x : Option β} :
    Ends (orThrow e x) s (fun b t => x = some b ∧ t = s) (· = s) := by
  cases x with
  | some b => exact Ends.of_pure ⟨rfl, rfl⟩
  | none => exact Ends.of_throw rfl

/-- A program goes on with what it has worked out, -/
theorem bind_ofExcept {x : Except Thrown β} {f : β → Analysis α γ} (hE : E s)
    (hf : ∀ b, x = .ok b → Ends (f b) s L E) : Ends (ofExcept x >>= f) s L E := by
  refine Ends.bind_untouched ends_ofExcept hE ?_
  intro b t ⟨hb, ht⟩
  rw [ht]
  exact hf b hb

/-- or with what there is. -/
theorem bind_orThrow {e : Thrown} {x : Option β} {f : β → Analysis α γ} (hE : E s)
    (hf : ∀ b, x = some b → Ends (f b) s L E) : Ends (orThrow e x >>= f) s L E := by
  refine Ends.bind_untouched ends_orThrow hE ?_
  intro b t ⟨hb, ht⟩
  rw [ht]
  exact hf b hb

theorem ends_setAutoCommit {autoCommit : Bool} :
    Ends (setAutoCommit db autoCommit) s (fun _ t => t = s.setAutoCommit autoCommit) (· = s) := by
  unfold setAutoCommit
  split
  · exact Ends.of_throw rfl
  · exact Ends.of_modify rfl

theorem bind_setAutoCommit {autoCommit : Bool} {f : Unit → Analysis α γ} (hE : E s)
    (hf : Ends (f ()) (s.setAutoCommit autoCommit) L E) :
    Ends (setAutoCommit db autoCommit >>= f) s L E := by
  refine Ends.bind_untouched ends_setAutoCommit hE ?_
  intro _ t ht
  rw [ht]
  exact hf

theorem ends_rollback : Ends (rollback db) s (fun _ t => t = s.rollback) (· = s) := by
  unfold rollback
  split
  · exact Ends.of_throw rfl
  · exact Ends.of_modify rfl

/-- It answers with the keys, or has done nothing. -/
theorem ends_insert : Ends (insert db sql) s
    (fun rows t => ∃ changes, db.insert s sql = some (changes, rows) ∧ t = s.write changes)
    (· = s) := by
  refine Ends.bind_get ?_
  refine bind_orThrow rfl ?_
  intro ⟨changes, rows⟩ hinsert
  refine Ends.bind (Ends.of_modify (J := fun _ t => t = s.write changes) rfl) ?_
  intro _ t ht
  exact Ends.of_pure ⟨changes, hinsert, ht⟩

end Analysis

/-! ## What the analysis keeps -/

/-- A property of the session that none of the calls of an analysis takes away. -/
structure Stable (db : Database α) (K : Session α → Prop) : Prop where
  setAutoCommit : ∀ s b, K s → K (s.setAutoCommit b)
  rollback : ∀ s, K s → K s.rollback
  insert : ∀ s s' sql r, db.insert s' sql = some r → K s → K (s.write r.1)

section Stable

variable {p db} {β : Type} {K : Session α → Prop} {sql pk : String} {tableList : TableList}
  {columns : List String} {rows : List (List String)} {pkIndex : Option Nat}
  {statement : Insert}

theorem keeps_ofExcept {x : Except Thrown β} : Keeps K (Analysis.ofExcept (α := α) x) := by
  cases x with
  | ok b => exact Keeps.of_pure
  | error e => exact Keeps.of_throw

theorem keeps_orThrow {e : Thrown} {x : Option β} :
    Keeps K (Analysis.orThrow (α := α) e x) := by
  cases x with
  | some b => exact Keeps.of_pure
  | none => exact Keeps.of_throw

theorem keeps_query : Keeps K (Analysis.query db sql) :=
  Keeps.of_get.bind fun _ => keeps_orThrow

/-- An `UPDATE` or a `DELETE` is analysed by looking. -/
theorem keeps_change {change : Change} : Keeps K (change.analyse p db tableList sql) :=
  keeps_ofExcept.bind fun _ => Keeps.ite (fun _ => Keeps.of_pure) fun _ =>
    keeps_orThrow.bind fun _ => keeps_ofExcept.bind fun _ => keeps_query.bind fun _ =>
    Keeps.ite (fun _ => Keeps.of_pure) fun _ => keeps_ofExcept

namespace Stable

variable (hK : Stable db K)
include hK

theorem keeps_setAutoCommit {autoCommit : Bool} :
    Keeps K (Analysis.setAutoCommit db autoCommit) :=
  Keeps.ite (fun _ => Keeps.of_throw) fun _ =>
    Keeps.of_modify fun s hs => hK.setAutoCommit s autoCommit hs

theorem keeps_rollback : Keeps K (Analysis.rollback db) :=
  Keeps.ite (fun _ => Keeps.of_throw) fun _ => Keeps.of_modify hK.rollback

theorem keeps_insert : Keeps K (Analysis.insert db sql) := by
  intro s hs
  refine Ends.bind_get ?_
  refine Analysis.bind_orThrow hs ?_
  intro r hr
  refine Ends.bind (Ends.of_modify (J := fun _ => K) ?_) fun _ t ht => Ends.of_pure ht
  exact hK.insert s s sql r hr hs

theorem keeps_insertAnalyse :
    Keeps K (MysqlSqlDetailAnalyse.insertAnalyse p db sql columns rows pk pkIndex) := by
  refine Keeps.bind keeps_ofExcept fun removed => ?_
  cases removed with
  | none => exact Keeps.of_pure
  | some r =>
      exact hK.keeps_insert.bind fun _ => keeps_ofExcept.bind fun _ => Keeps.of_pure

theorem keeps_multiInsertAnalyse :
    Keeps K (MysqlSqlDetailAnalyse.multiInsertAnalyse p db sql statement columns pk pkIndex) := by
  unfold MysqlSqlDetailAnalyse.multiInsertAnalyse
  split
  · refine hK.keeps_insertAnalyse.bind fun r => ?_
    cases r <;> exact Keeps.of_pure
  · exact Keeps.of_pure

theorem keeps_singleInsertAnalyse :
    Keeps K (MysqlSqlDetailAnalyse.singleInsertAnalyse p db sql statement columns pk pkIndex) := by
  unfold MysqlSqlDetailAnalyse.singleInsertAnalyse
  split
  · refine hK.keeps_insertAnalyse.bind fun r => ?_
    split <;> exact Keeps.of_pure
  · exact Keeps.of_pure

theorem keeps_insertStrategy :
    Keeps K (MysqlInsertAnalyseStrategy.analyse p db tableList sql statement) := by
  refine Keeps.of_get.bind fun _ => hK.keeps_setAutoCommit.bind fun _ =>
    keeps_ofExcept.bind fun filtered => Keeps.ite (fun _ => Keeps.of_pure) fun _ =>
    keeps_ofExcept.bind fun pk => keeps_orThrow.bind fun columns =>
    hK.keeps_multiInsertAnalyse.bind fun multi => ?_
  refine Keeps.ite (fun _ => Keeps.of_pure) fun _ =>
    hK.keeps_singleInsertAnalyse.bind fun single => ?_
  exact Keeps.ite (fun _ => Keeps.of_pure) fun _ =>
    hK.keeps_rollback.bind fun _ => hK.keeps_setAutoCommit.bind fun _ => Keeps.of_pure

theorem keeps_analyse {analyseHandlers : List SqlSqlAnalyseHandler} :
    Keeps K (MysqlSqlAnalyse.analyse p db analyseHandlers tableList sql) := by
  refine keeps_orThrow.bind fun stmt => ?_
  split
  · exact Keeps.of_pure
  · exact hK.keeps_insertStrategy
  · exact keeps_change
  · exact keeps_change
  · exact Keeps.of_pure

variable {sqlType : String} {analyseHandlers : List SqlSqlAnalyseHandler}
  {newLog : String → Option TransactionLog} {transactionInfo : Option TransactionInfo}
  {jdbcTransaction : Option JdbcTransaction}

theorem keeps_onAfterAnyExecute :
    Keeps K (TransactionJdbcEventListener.onAfterAnyExecute p db sqlType analyseHandlers
      tableList newLog transactionInfo jdbcTransaction sql) := by
  refine keeps_orThrow.bind fun transactionInfo => keeps_orThrow.bind fun _ =>
    Keeps.ite (fun _ => ?_) fun _ => Keeps.of_pure
  have hanalyse : Keeps K (SqlAnalyseStrategy.analyse p db sqlType analyseHandlers tableList sql) :=
    Keeps.ite (fun _ => hK.keeps_analyse.bind fun _ => Keeps.of_pure) fun _ => Keeps.of_pure
  refine hanalyse.bind fun r => Keeps.ite (fun _ => ?_) fun _ => Keeps.of_pure
  exact keeps_orThrow.bind fun _ => keeps_orThrow.bind fun _ => Keeps.of_pure

end Stable

end Stable

/-! ## What it records -/

/-- A statement is recorded once, or not at all. -/
theorem ends_recorded {p : Platform} {db : Database α} {sqlType sql : String}
    {analyseHandlers : List SqlSqlAnalyseHandler} {tableList : TableList}
    {newLog : String → Option TransactionLog} {transactionInfo : Option TransactionInfo}
    {jdbcTransaction : Option JdbcTransaction} {s : Session α} :
    Ends (TransactionJdbcEventListener.onAfterAnyExecute p db sqlType analyseHandlers tableList
      newLog transactionInfo jdbcTransaction sql) s
      (fun r _ => r = jdbcTransaction ∨ ∃ j transactionLog, jdbcTransaction = some j
        ∧ r = some { j with transactionLogs := j.transactionLogs ++ [transactionLog] })
      (fun _ => True) := by
  refine Ends.bind Ends.of_true fun info t _ => Ends.bind Ends.of_true fun _ t _ => ?_
  split
  · refine Ends.bind Ends.of_true fun r t _ => ?_
    dsimp only
    split
    · refine Ends.bind Ends.of_true fun transactionLog t _ => ?_
      refine Analysis.bind_orThrow trivial ?_
      intro j hj
      exact Ends.of_pure (Or.inr ⟨j, transactionLog, hj, rfl⟩)
    · exact Ends.of_pure (Or.inl rfl)
  · exact Ends.of_pure (Or.inl rfl)

end TxLcn.Tc
