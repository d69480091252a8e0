import TxLcn.Lib.KeyedTable
import TxLcn.Proof.Analysis
import TxLcn.Proof.KeyList
import TxLcn.Tc.Statements

/-!
# Whether the recorded statement names the affected rows

A statement is analysed once it has been executed. For an `UPDATE` or a `DELETE`
the rows are looked up with its condition, in the table as the statement has
left it; for an `INSERT` the keys are those of a second execution. So an
`INSERT` never names its rows, nor does a `DELETE` without a limit, and
`names_affected_iff` says which other statements do. One that has no list of joins,
not even an empty one, is not recorded at all.
-/

namespace TxLcn.Proof

open TxLcn.Lib TxLcn.Tc MysqlSqlDetailAnalyse

variable {V : Type} {auto : ℕ ↪ SqlValue}

/--
A statement of the business and what it does to the rows of its table. With a
limit it may choose fewer rows than its condition.
-/
inductive Business (V : Type) where
  | insert (statement : Insert) (values : List V)
  | update (statement : Change) (chosen : SqlValue → V → Bool) (assign : SqlValue → V → V)
  | delete (statement : Change) (chosen : SqlValue → V → Bool)

namespace Business

def statement : Business V → Statement
  | insert statement _ => .insert statement
  | update statement _ _ => .update statement
  | delete statement _ => .delete statement

def table : Business V → Table
  | insert statement _ => statement.table
  | update statement _ _ => statement.table
  | delete statement _ => statement.table

def condition : Business V → Option String
  | insert _ _ => none
  | update statement _ _ => statement.condition
  | delete statement _ => statement.condition

/-- The list of its joins, which may be null. -/
def joins : Business V → Option (List Join)
  | insert _ _ => none
  | update statement _ _ => statement.joins
  | delete statement _ => statement.joins

def effect : Business V → TableChange SqlValue V
  | insert _ values => .insert values
  | update _ chosen assign => .update chosen assign
  | delete _ chosen => .delete chosen

/-- The keys of the rows that it inserts, changes or deletes. -/
def affected (T : KeyedTable auto V) : Business V → List SqlValue
  | insert _ values => T.drawn values.length
  | update _ chosen _ => T.selected chosen
  | delete _ chosen => T.selected chosen

end Business

/-! ## What is asked of the recorded statement -/

/-- The key column, as the table is called in the statement. -/
def selectOf (table : Table) (pk : String) : String :=
  match table.alias with
  | some «alias» => «alias».name ++ "." ++ pk
  | none => pk

/--
The recorded statement, for a table `T` that the business has found. The rows of
an `INSERT` end in their keys, and an `IN` list of the keys follows an `UPDATE`
or a `DELETE`.
-/
def NamesAffected (p : Platform) (pk : String) (primaryKeyType : JDBCType)
    (T : KeyedTable auto V) (sql newSql : String) : Business V → Prop
  | .insert _ values => ∃ statement columns, p.parse newSql = some (.insert statement)
      ∧ statement.columns = some (columns ++ [pk])
      ∧ (rowsOf statement).map List.getLast?
        = (List.range' T.next values.length).map fun n => some (p.stringValue (toString n))
  | b => ∃ keys list, keys.Perm (b.affected T) ∧ inList primaryKeyType keys = .ok list
      ∧ newSql = sql ++ " and " ++ selectOf b.table pk ++ " in ( " ++ list ++ ")"

/--
The rows that the condition selects once the statement has been executed are
those it has affected, as far as an `IN` list tells keys apart.
-/
def SelectsAffected (holds : String → SqlValue → V → Bool) (primaryKeyType : JDBCType)
    (T : KeyedTable auto V) (b : Business V) : Prop :=
  ∃ condition keys list, b.condition = some condition
    ∧ (T.apply b.effect).selected (holds condition) ≠ []
    ∧ keys.Perm (b.affected T) ∧ inList primaryKeyType keys = .ok list
    ∧ inList primaryKeyType ((T.apply b.effect).selected (holds condition)) = .ok list

/-- One log is added, and its statement names the affected rows. -/
def RecordsAffected (l : Listener (TableChange SqlValue V)) (newLog : String → TransactionLog)
    (j : JdbcTransaction) (base : KeyedTable auto V) (pk : String) (primaryKeyType : JDBCType)
    (sql : String) (s : Session (TableChange SqlValue V)) (b : Business V) : Prop :=
  ∃ log t, l.onAfterAnyExecute newLog j sql (s.write [b.effect])
      = .ok (some { j with transactionLogs := j.transactionLogs ++ [log] }) t
    ∧ NamesAffected l.platform pk primaryKeyType (seen base s) sql log.sql b

/-! ## The statements in question -/

/-- Keys that are drawn, or a condition that mentions the key of the only table. -/
def Rewritable (p : Platform) (pk : String) : Business V → Prop
  | .insert statement values => ∃ columns, statement.columns = some columns
      ∧ ¬ ExplicitKey p (rowsOf statement) (MysqlInsertAnalyseStrategy.pkIndex p columns pk)
      ∧ (rowsOf statement).length = values.length
  | .update statement _ _ | .delete statement _ => ∃ condition,
      statement.condition = some condition ∧ statement.joins.getD [] = []
      ∧ contains (p.toUpperCase condition) (p.toUpperCase pk) = true

/-- The statement is recognised, and there is what its analysis needs. -/
structure Rewritten (l : Listener (TableChange SqlValue V)) (pk : String)
    (primaryKeyType : JDBCType) (sql : String) (b : Business V) : Prop where
  lcn : TransactionJdbcEventListener.hasEvent l.transactionInfo = true
  recognised : l.preAnalyse sql = true
  parsed : l.platform.parse sql = some b.statement
  handled : ∃ handler ∈ l.analyseHandlers, handler.preAnalyse b.statement = true
  known : ∃ tableInfo, TableList.getTable l.platform l.tableList b.table.name = .ok (some tableInfo)
    ∧ tableInfo.primaryKeys = [pk]
    ∧ ∃ columnInfo, tableInfo.columnInfos.find? (fun columnInfo => columnInfo.name == pk)
        = some columnInfo ∧ columnInfo.type = primaryKeyType
  rewritable : Rewritable l.platform pk b

/-- The columns and rows of an `INSERT` without the key, if it is among them. -/
def withoutKey (p : Platform) (pkIndex : Option Nat) (columns : List String)
    (rows : List (List String)) : Except Thrown (Option (List String × List (List String))) :=
  match pkIndex with
  | none => .ok (some (columns, rows))
  | some pkIndex => removeKeys p pkIndex columns rows

/-- Other rows in the place of those of the statement. -/
def insertOf (statement : Insert) (columns : List String) (rows : List (List String)) : Insert where
  table := statement.table
  columns := some columns
  itemsList := match statement.itemsList, rows with
    | some (.expressionList _), [row] => some (.expressionList row)
    | some (.multiExpressionList _), rows => some (.multiExpressionList rows)
    | itemsList, _ => itemsList

/-- What the analysis makes of the statement, with the keys of its second execution. -/
def Keyed (p : Platform) (pk : String) (insert : List Row) (statement printed : Insert) : Prop :=
  ∃ columns columns' rows rows', statement.columns = some columns
    ∧ withoutKey p (MysqlInsertAnalyseStrategy.pkIndex p columns pk) columns (rowsOf statement)
      = .ok (some (columns', rows))
    ∧ addKeys p insert 0 rows = .ok rows' ∧ printed = insertOf statement (columns' ++ [pk]) rows'

/--
The statement that is printed, if the `INSERT` is executed in this session, is read
again; and different numbers are written differently.
-/
structure Prints (p : Platform) (db : Database (TableChange SqlValue V)) (pk sql : String)
    (s : Session (TableChange SqlValue V)) (statement : Insert) : Prop where
  parse_print : ∀ changes insert printed, db.insert s sql = some (changes, insert) →
    Keyed p pk insert statement printed → p.parse (p.print printed) = some (.insert printed)
  stringValue : ∀ m n : ℕ, p.stringValue (toString m) = p.stringValue (toString n) → m = n

/--
Once the statement has been executed, the database answers from the table that the
session sees: the query for the keys of this statement with those of the rows that
meet its condition, and its `INSERT` with those drawn.
-/
structure Answers (db : Database (TableChange SqlValue V)) (base : KeyedTable auto V)
    (holds : String → SqlValue → V → Bool) (pk sql : String)
    (s : Session (TableChange SqlValue V)) (b : Business V) : Prop where
  query : ∀ condition ∈ b.condition, ∃ rows, db.query (s.write [b.effect])
      ("select " ++ selectOf b.table pk ++ " from " ++ tableName b.table ++ " where " ++ condition)
        = some rows
    ∧ rows.map (fun row => row pk)
      = ((seen base (s.write [b.effect])).selected (holds condition)).map some
  insert : ∀ changes rows,
    db.insert ((s.write [b.effect]).setAutoCommit false) sql = some (changes, rows) →
    ∀ i key, generatedKey rows i = .ok key →
      key = toString ((seen base (s.write [b.effect])).next + i)

/-! ## An `UPDATE` or a `DELETE` -/

section change

variable {α : Type} {p : Platform} {db : Database α} {tableList : TableList} {tableInfo : TableInfo}
  {columnInfo : ColumnInfo} {table : Table} {pk sql condition : String} {s : Session α}

theorem getPrimaryKey_eq
    (htable : TableList.getTable p tableList table.name = .ok (some tableInfo))
    (hpk : tableInfo.primaryKeys = [pk]) :
    TableList.getPrimaryKey p tableList table = .ok pk
      ∧ CheckTableContainsPkFilter.doFilter p tableList table = .ok true := by
  have hkeys : TableList.getPrimaryKeys p tableList table = .ok [pk] := by
    simp only [TableList.getPrimaryKeys, htable, hpk]
  constructor
  · simp only [TableList.getPrimaryKey, hkeys]
  · simp only [CheckTableContainsPkFilter.doFilter, hkeys]
    rfl

theorem whereContainsPk_eq
    (htable : TableList.getTable p tableList table.name = .ok (some tableInfo))
    (hpk : tableInfo.primaryKeys = [pk])
    (hcontains : contains (p.toUpperCase condition) (p.toUpperCase pk) = true) :
    CheckWhereContainsPkFilter.doFilter p tableList table (some condition) = .ok true := by
  simp only [CheckWhereContainsPkFilter.doFilter, htable, (getPrimaryKey_eq htable hpk).1]
  exact congrArg Except.ok hcontains

/-- What is known of a single table and a condition. -/
theorem sqlAnalyseSingleTable_eq
    (htable : TableList.getTable p tableList table.name = .ok (some tableInfo))
    (hpk : tableInfo.primaryKeys = [pk])
    (hcolumn : tableInfo.columnInfos.find? (fun columnInfo => columnInfo.name == pk)
      = some columnInfo) :
    sqlAnalyseSingleTable p tableList table condition (some []) = .ok
      { select := selectOf table pk
        querySql := "select " ++ selectOf table pk ++ " from " ++ tableName table ++ " where "
          ++ condition
        primaryKey := pk
        primaryKeyType := columnInfo.type } := by
  unfold sqlAnalyseSingleTable
  rw [(getPrimaryKey_eq htable hpk).1, htable]
  simp only [joined, hcolumn, bind, Except.bind, String.append_empty]
  unfold selectOf
  cases table.alias <;> rfl

/-- The keys that the query gives, if any, are written behind the statement. -/
theorem change_analyse {statement : Change} {rows : List Row} {keys : List SqlValue}
    (hcondition : statement.condition = some condition) (hjoins : statement.joins = some [])
    (hcontains : contains (p.toUpperCase condition) (p.toUpperCase pk) = true)
    (htable : TableList.getTable p tableList statement.table.name = .ok (some tableInfo))
    (hpk : tableInfo.primaryKeys = [pk])
    (hcolumn : tableInfo.columnInfos.find? (fun columnInfo => columnInfo.name == pk)
      = some columnInfo)
    (hquery : db.query s ("select " ++ selectOf statement.table pk ++ " from "
      ++ tableName statement.table ++ " where " ++ condition) = some rows)
    (hrows : rows.map (fun row => row pk) = keys.map some) :
    statement.analyse p db tableList sql s =
      if keys = [] then .ok sql s
      else match inList columnInfo.type keys with
        | .ok list => .ok
            (sql ++ " and " ++ selectOf statement.table pk ++ " in ( " ++ list ++ ")") s
        | .error e => .error e s := by
  obtain ⟨_, hcheck⟩ := getPrimaryKey_eq htable hpk
  unfold Change.analyse
  rw [hcondition, hjoins, hcheck, whereContainsPk_eq htable hpk hcontains]
  refine (bind_of_ok (a := true) (t := s) rfl).trans ?_
  rw [if_neg (by simp)]
  refine (bind_of_ok (a := condition) (t := s) rfl).trans ?_
  rw [sqlAnalyseSingleTable_eq htable hpk hcolumn]
  refine (bind_of_ok rfl).trans ?_
  have hanswer : Analysis.query db ("select " ++ selectOf statement.table pk ++ " from "
      ++ tableName statement.table ++ " where " ++ condition) s = .ok rows s := by
    unfold Analysis.query
    refine (bind_of_ok rfl).trans ?_
    rw [hquery]
    rfl
  refine (bind_of_ok hanswer).trans ?_
  cases rows with
  | nil =>
      obtain rfl := List.map_eq_nil_iff.mp hrows.symm
      rfl
  | cons row rows =>
      have hkeys : keys ≠ [] := by
        rintro rfl
        cases hrows
      rw [if_neg hkeys, if_neg (by simp)]
      unfold splicingNewSql
      rw [splicedKeys_eq hrows]
      dsimp only
      cases inList columnInfo.type keys <;> rfl

/-- Without a list of joins nothing is asked: the loop over them throws. -/
theorem change_analyse_null {statement : Change} (hcondition : statement.condition = some condition)
    (hjoins : statement.joins = none)
    (hcontains : contains (p.toUpperCase condition) (p.toUpperCase pk) = true)
    (htable : TableList.getTable p tableList statement.table.name = .ok (some tableInfo))
    (hpk : tableInfo.primaryKeys = [pk]) :
    statement.analyse p db tableList sql s = .error .nullPointerException s := by
  obtain ⟨hkey, hcheck⟩ := getPrimaryKey_eq htable hpk
  have hnull : sqlAnalyseSingleTable p tableList statement.table condition none
      = .error .nullPointerException := by
    unfold sqlAnalyseSingleTable
    rw [hkey]
    rfl
  unfold Change.analyse
  rw [hcondition, hjoins, hcheck, whereContainsPk_eq htable hpk hcontains]
  refine (bind_of_ok (a := true) (t := s) rfl).trans ?_
  rw [if_neg (by simp)]
  refine (bind_of_ok (a := condition) (t := s) rfl).trans ?_
  rw [hnull]
  rfl

end change

/-! ## An `INSERT` -/

section insert

variable {α : Type} {p : Platform} {db : Database α} {tableList : TableList} {statement : Insert}
  {columns : List String} {rows : List (List String)} {pk sql : String} {pkIndex : Option Nat}
  {s : Session α}

/-- The rows and columns with the keys that are generated if the statement is executed in `s`. -/
def Drawn (p : Platform) (db : Database α) (s : Session α) (sql pk : String)
    (pkIndex : Option Nat) (columns : List String) (rows : List (List String))
    (columns' : List String) (rows' : List (List String)) : Prop :=
  ∃ changes insert columns₁ rows₁, db.insert s sql = some (changes, insert)
    ∧ withoutKey p pkIndex columns rows = .ok (some (columns₁, rows₁))
    ∧ addKeys p insert 0 rows₁ = .ok rows' ∧ columns' = columns₁ ++ [pk]

theorem Drawn.length {columns' : List String} {rows' : List (List String)}
    (h : Drawn p db s sql pk pkIndex columns rows columns' rows') :
    rows'.length = rows.length := by
  obtain ⟨_, _, columns₁, rows₁, _, hwithout, hadd, _⟩ := h
  obtain ⟨_, hlength⟩ := removed_ok hwithout
  exact (addKeys_length hadd).trans (hlength (columns₁, rows₁) rfl)

theorem addKeys_cons {insert : List Row} {row : List String} {r : List (List String)}
    (h : addKeys p insert 0 (row :: rows) = .ok r) :
    ∃ key rest, generatedKey insert 0 = .ok key ∧ r = (row ++ [p.stringValue key]) :: rest := by
  unfold addKeys at h
  split at h
  · cases h
  · rename_i key hkey
    split at h
    · cases h
    · rename_i rest _
      cases h
      exact ⟨key, rest, hkey, rfl⟩

/-- Without a key of its own the statement is executed once more. -/
theorem ends_insertAnalyse_drawn (hno : ¬ ExplicitKey p rows pkIndex) :
    Ends (insertAnalyse p db sql columns rows pk pkIndex) s
      (fun r _ => ∃ columns' rows', r = some (columns', rows')
        ∧ Drawn p db s sql pk pkIndex columns rows columns' rows') (fun _ => True) := by
  unfold insertAnalyse
  refine Analysis.bind_ofExcept trivial ?_
  intro removed hremoved
  obtain ⟨hiff, _⟩ := removed_ok hremoved
  cases removed with
  | none => exact absurd (hiff.mp rfl) hno
  | some r =>
      refine Ends.bind_untouched Analysis.ends_insert trivial ?_
      intro insert t ⟨changes, hinsert, _⟩
      refine Analysis.bind_ofExcept trivial ?_
      intro rows' hrows'
      exact Ends.of_pure ⟨_, rows', rfl, changes, insert, r.1, r.2, hinsert, hremoved, hrows', rfl⟩

theorem ends_multi_drawn {exprList : List (List String)}
    (h : statement.itemsList = some (.multiExpressionList exprList))
    (hno : ¬ ExplicitKey p exprList pkIndex) :
    Ends (multiInsertAnalyse p db sql statement columns pk pkIndex) s
      (fun r _ => r.1 = false ∧ ∃ columns' rows', r.2 = insertOf statement columns' rows'
        ∧ Drawn p db s sql pk pkIndex columns exprList columns' rows') (fun _ => True) := by
  unfold multiInsertAnalyse
  rw [h]
  refine Ends.bind (ends_insertAnalyse_drawn hno) ?_
  rintro _ _ ⟨columns', rows', rfl, hdrawn⟩
  exact Ends.of_pure ⟨rfl, columns', rows', by simp [insertOf, h], hdrawn⟩

theorem ends_single_drawn {expressions : List String}
    (h : statement.itemsList = some (.expressionList expressions))
    (hno : ¬ ExplicitKey p [expressions] pkIndex) :
    Ends (singleInsertAnalyse p db sql statement columns pk pkIndex) s
      (fun r _ => r.1 = false ∧ ∃ columns' rows', r.2 = insertOf statement columns' rows'
        ∧ Drawn p db s sql pk pkIndex columns [expressions] columns' rows') (fun _ => True) := by
  unfold singleInsertAnalyse
  rw [h]
  refine Ends.bind (ends_insertAnalyse_drawn hno) ?_
  rintro _ _ ⟨columns', rows', rfl, hdrawn⟩
  obtain ⟨row', rfl⟩ := List.length_eq_one_iff.mp hdrawn.length
  exact Ends.of_pure ⟨rfl, columns', [row'], by simp [insertOf, h], hdrawn⟩

/-- The rows that have been put in are there, one for each row of the statement. -/
theorem rowsOf_insertOf {columns' : List String} {rows' : List (List String)}
    (hrows : rowsOf statement ≠ []) (hlength : rows'.length = (rowsOf statement).length) :
    rowsOf (insertOf statement columns' rows') = rows' := by
  unfold rowsOf at hrows hlength
  unfold insertOf
  cases hlist : statement.itemsList with
  | none =>
      rw [hlist] at hrows
      exact absurd rfl hrows
  | some itemsList =>
      rw [hlist] at hrows hlength
      cases itemsList with
      | expressionList expressions =>
          obtain ⟨row', rfl⟩ := List.length_eq_one_iff.mp hlength
          rfl
      | multiExpressionList exprList => rfl
      | other => exact absurd rfl hrows

/-- What the session is given back does not change the text. -/
theorem ends_print {newSql : String} {b : Bool} :
    Ends (do
      Analysis.rollback db
      Analysis.setAutoCommit db b
      pure newSql) s (fun r _ => r = newSql) (fun _ => True) := by
  refine Ends.bind Ends.of_true fun _ _ _ => ?_
  refine Ends.bind Ends.of_true fun _ _ _ => ?_
  exact Ends.of_pure rfl

/-- If it returns, it has printed a statement with the keys of a second execution. -/
theorem ends_insert_print
    (hpk : TableList.getPrimaryKey p tableList statement.table = .ok pk)
    (hcheck : CheckTableContainsPkFilter.doFilter p tableList statement.table = .ok true)
    (hcolumns : statement.columns = some columns) (hrows : rowsOf statement ≠ [])
    (hno : ¬ ExplicitKey p (rowsOf statement)
      (MysqlInsertAnalyseStrategy.pkIndex p columns pk)) :
    Ends (MysqlInsertAnalyseStrategy.analyse p db tableList sql statement) s
      (fun newSql _ => ∃ changes insert printed, newSql = p.print printed
        ∧ db.insert (s.setAutoCommit false) sql = some (changes, insert)
        ∧ Keyed p pk insert statement printed) (fun _ => True) := by
  have hitems : statement.itemsList ≠ none := by
    intro hnone
    exact hrows (by rw [rowsOf, hnone])
  have hkeyed : ∀ columns' rows', Drawn p db (s.setAutoCommit false) sql pk
      (MysqlInsertAnalyseStrategy.pkIndex p columns pk) columns (rowsOf statement) columns' rows' →
      ∃ changes insert, db.insert (s.setAutoCommit false) sql = some (changes, insert)
        ∧ Keyed p pk insert statement (insertOf statement columns' rows') := by
    rintro columns' rows' ⟨changes, insert, columns₁, rows₁, hinsert, hwithout, hadd, rfl⟩
    exact ⟨changes, insert, hinsert, columns, columns₁, rows₁, rows', hcolumns, hwithout, hadd, rfl⟩
  have hfilter : MysqlInsertAnalyseStrategy.doFilter p tableList statement = .ok true := by
    unfold MysqlInsertAnalyseStrategy.doFilter ItemsListFilter.doFilter
    rw [hcheck, Option.isSome_iff_ne_none.mpr hitems]
    rfl
  unfold MysqlInsertAnalyseStrategy.analyse
  refine Ends.bind_get ?_
  refine Analysis.bind_setAutoCommit trivial ?_
  rw [hfilter, hpk, hcolumns]
  refine Analysis.bind_ofExcept trivial ?_
  intro filtered hfiltered
  cases hfiltered
  refine Analysis.bind_ofExcept trivial ?_
  intro pk' hpk'
  cases hpk'
  refine Analysis.bind_orThrow trivial ?_
  intro columns' hcolumns'
  cases hcolumns'
  unfold rowsOf at hrows hno hkeyed
  cases hlist : statement.itemsList with
  | none => exact absurd hlist hitems
  | some itemsList =>
  rw [hlist] at hrows hno hkeyed
  cases itemsList with
  | multiExpressionList exprList =>
      refine Ends.bind (ends_multi_drawn hlist hno) ?_
      rintro ⟨left, statement'⟩ t ⟨rfl, columns', rows', hprinted, hdrawn⟩
      dsimp only at hprinted
      obtain ⟨changes, insert, hinsert, hk⟩ := hkeyed columns' rows' hdrawn
      refine Ends.bind_untouched
        (ends_singleInsertAnalyse_other (by simp [hprinted, insertOf, hlist])) trivial ?_
      rintro _ _ ⟨rfl, rfl⟩
      refine ends_print.mono (fun newSql _ h => ?_) fun _ h => h
      exact ⟨changes, insert, statement', h, hinsert, hprinted ▸ hk⟩
  | expressionList expressions =>
      refine Ends.bind_untouched (ends_multiInsertAnalyse_other (by simp [hlist])) trivial ?_
      rintro _ _ ⟨rfl, rfl⟩
      refine Ends.bind (ends_single_drawn hlist hno) ?_
      rintro ⟨left, statement'⟩ t ⟨rfl, columns', rows', hprinted, hdrawn⟩
      dsimp only at hprinted
      obtain ⟨changes, insert, hinsert, hk⟩ := hkeyed columns' rows' hdrawn
      refine ends_print.mono (fun newSql _ h => ?_) fun _ h => h
      exact ⟨changes, insert, statement', h, hinsert, hprinted ▸ hk⟩
  | other => exact absurd rfl hrows

end insert

/-! ## What is recorded -/

section

variable {l : Listener (TableChange SqlValue V)} {newLog : String → TransactionLog}
  {j : JdbcTransaction} {base : KeyedTable auto V} {holds : String → SqlValue → V → Bool}
  {pk sql : String} {primaryKeyType : JDBCType} {s : Session (TableChange SqlValue V)}
  {b : Business V}

/-- The statement is given to the strategy of its class. -/
theorem analyse_eq (hb : Rewritten l pk primaryKeyType sql b) : l.analyse sql = match b with
    | .insert statement _ => MysqlInsertAnalyseStrategy.analyse l.platform l.database l.tableList
        sql statement
    | .update statement _ _ => statement.analyse l.platform l.database l.tableList sql
    | .delete statement _ => statement.analyse l.platform l.database l.tableList sql := by
  obtain ⟨handler, hmem, htakes⟩ := hb.handled
  have hfind : (AnalyseStrategryFactory.getInvokeStrategy l.analyseHandlers b.statement).isSome :=
    List.find?_isSome.mpr ⟨handler, hmem, htakes⟩
  obtain ⟨chosen, hchosen⟩ := Option.isSome_iff_exists.mp hfind
  funext s
  unfold Listener.analyse MysqlSqlAnalyse.analyse
  rw [hb.parsed]
  refine (bind_of_ok (a := b.statement) (t := s) rfl).trans ?_
  rw [hchosen]
  cases b <;> rfl

/-- What is recorded is what the analysis returns. -/
theorem recordsAffected_iff (hlog : ∀ sql, (newLog sql).sql = sql)
    (hb : Rewritten l pk primaryKeyType sql b) :
    RecordsAffected l newLog j base pk primaryKeyType sql s b
      ↔ ∃ newSql t, l.analyse sql (s.write [b.effect]) = .ok newSql t
        ∧ NamesAffected l.platform pk primaryKeyType (seen base s) sql newSql b := by
  unfold RecordsAffected
  rw [Listener.onAfterAnyExecute_recognised newLog j _ hb.lcn hb.recognised]
  cases hanalyse : l.analyse sql (s.write [b.effect]) with
  | error e t =>
      constructor
      · rintro ⟨log, t', ⟨⟩, _⟩
      · rintro ⟨newSql, t', ⟨⟩, _⟩
  | ok newSql t =>
      constructor
      · intro ⟨log, t', heq, hnames⟩
        simp only [EStateM.Result.ok.injEq, Option.some.injEq, JdbcTransaction.mk.injEq,
          List.append_cancel_left_eq, List.cons.injEq, and_true, true_and] at heq
        obtain ⟨rfl, rfl⟩ := heq
        rw [hlog] at hnames
        exact ⟨newSql, t, rfl, hnames⟩
      · rintro ⟨newSql', t', ⟨⟩, hnames⟩
        refine ⟨newLog newSql, t, rfl, ?_⟩
        rw [hlog]
        exact hnames

theorem ne_append_inList {a b c : String} : a ≠ a ++ " and " ++ b ++ " in ( " ++ c ++ ")" := by
  intro h
  have hlength := congrArg String.length h
  have hlast : ")".length = 1 := rfl
  simp only [String.length_append] at hlength
  omega

/-- An `UPDATE` or a `DELETE` is recorded with the rows that it has left to its condition. -/
theorem change_names_iff {statement : Change}
    (hb : Rewritten l pk primaryKeyType sql b)
    (hanswers : Answers l.database base holds pk sql s b)
    (hopen : s.closed = false) (hclean : s.Clean)
    (htable : b.table = statement.table) (hcondition : b.condition = statement.condition)
    (hjoins : b.joins = statement.joins)
    (hanalyse : l.analyse sql = statement.analyse l.platform l.database l.tableList sql)
    (hrewritable : ∃ condition, statement.condition = some condition
      ∧ statement.joins.getD [] = []
      ∧ contains (l.platform.toUpperCase condition) (l.platform.toUpperCase pk) = true) :
    (∃ newSql t, l.analyse sql (s.write [b.effect]) = .ok newSql t
        ∧ ∃ keys list, keys.Perm (b.affected (seen base s)) ∧ inList primaryKeyType keys = .ok list
          ∧ newSql = sql ++ " and " ++ selectOf b.table pk ++ " in ( " ++ list ++ ")")
      ↔ b.joins ≠ none ∧ SelectsAffected holds primaryKeyType (seen base s) b := by
  obtain ⟨condition, hsome, hsingle, hcontains⟩ := hrewritable
  obtain ⟨tableInfo, hknown, hpk, columnInfo, hcolumn, rfl⟩ := hb.known
  rw [hjoins]
  cases hlist : statement.joins with
  | none =>
      refine iff_of_false ?_ fun h => h.1 rfl
      rintro ⟨newSql, t, hok, _⟩
      rw [htable] at hknown
      rw [hanalyse, change_analyse_null hsome hlist hcontains hknown hpk] at hok
      cases hok
  | some joinList =>
  have hnone : statement.joins = some [] := by
    rw [hlist, Option.getD_some] at hsingle
    rw [hlist, hsingle]
  rw [and_iff_right (by simp)]
  obtain ⟨rows, hquery, hrows⟩ := hanswers.query condition (hcondition.trans hsome)
  have hseen : seen base (s.write [b.effect]) = (seen base s).apply b.effect :=
    seen_write hopen hclean [b.effect]
  rw [hseen] at hrows
  rw [htable] at hknown hquery
  rw [hanalyse, change_analyse hsome hnone hcontains hknown hpk hcolumn hquery hrows, htable]
  have hselects : SelectsAffected holds columnInfo.type (seen base s) b ↔ ∃ keys list,
      ((seen base s).apply b.effect).selected (holds condition) ≠ []
        ∧ keys.Perm (b.affected (seen base s)) ∧ inList columnInfo.type keys = .ok list
        ∧ inList columnInfo.type (((seen base s).apply b.effect).selected (holds condition))
          = .ok list := by
    unfold SelectsAffected
    rw [hcondition, hsome]
    simp only [Option.some.injEq, exists_and_left, exists_eq_left']
  rw [hselects]
  generalize ((seen base s).apply b.effect).selected (holds condition) = after
  by_cases hafter : after = []
  · -- nothing is found, and the statement is recorded as it is
    rw [if_pos hafter]
    constructor
    · rintro ⟨_, _, ⟨⟩, _, _, _, _, heq⟩
      exact absurd heq ne_append_inList
    · intro ⟨_, _, hne, _⟩
      exact absurd hafter hne
  · rw [if_neg hafter]
    cases hlist : inList columnInfo.type after with
    | error e =>
        constructor
        · rintro ⟨_, _, ⟨⟩, _⟩
        · rintro ⟨_, _, _, _, _, ⟨⟩⟩
    | ok list =>
        constructor
        · rintro ⟨_, _, ⟨⟩, keys, list', hperm, hkeys, heq⟩
          have hsame : list = list' := by simpa using heq
          exact ⟨keys, list', hafter, hperm, hkeys, congrArg Except.ok hsame⟩
        · rintro ⟨keys, list', _, hperm, hkeys, ⟨⟩⟩
          exact ⟨_, _, rfl, keys, list, hperm, hkeys, rfl⟩

/-- The first row of what is printed ends in the first key of the second execution. -/
theorem Keyed.first {p : Platform} {insert : List Row} {statement printed : Insert}
    (h : Keyed p pk insert statement printed) (hrows : rowsOf statement ≠ []) :
    ∃ key row rest, generatedKey insert 0 = .ok key
      ∧ rowsOf printed = (row ++ [p.stringValue key]) :: rest := by
  obtain ⟨columns, columns', rows, rows', _, hwithout, hadd, rfl⟩ := h
  obtain ⟨_, hlength⟩ := removed_ok hwithout
  have hlen : rows.length = (rowsOf statement).length := hlength (columns', rows) rfl
  rw [rowsOf_insertOf hrows ((addKeys_length hadd).trans hlen)]
  cases rows with
  | nil => exact absurd (List.length_eq_zero_iff.mp hlen.symm) hrows
  | cons row rows =>
      obtain ⟨key, rest, hkey, rfl⟩ := addKeys_cons hadd
      exact ⟨key, row, rest, hkey, rfl⟩

/-- An `INSERT` is recorded with keys that nobody has got. -/
theorem not_insert_names {statement : Insert} {values : List V}
    (hb : Rewritten l pk primaryKeyType sql (.insert statement values))
    (hanswers : Answers l.database base holds pk sql s (.insert statement values))
    (hprints : Prints l.platform l.database pk sql
      ((s.write [.insert values]).setAutoCommit false) statement)
    (hopen : s.closed = false) (hclean : s.Clean) (hvalues : values ≠ []) :
    ¬ ∃ newSql t, l.analyse sql (s.write [.insert values]) = .ok newSql t
      ∧ NamesAffected l.platform pk primaryKeyType (seen base s) sql newSql
        (.insert statement values) := by
  intro ⟨newSql, t, hok, statement', columns', hparse, _, hlast⟩
  obtain ⟨columns, hcolumns, hno, hlength⟩ := hb.rewritable
  obtain ⟨tableInfo, hknown, hpk, _⟩ := hb.known
  obtain ⟨hkey, hcheck⟩ := getPrimaryKey_eq hknown hpk
  have hrows : rowsOf statement ≠ [] := by
    intro hnil
    rw [hnil] at hlength
    exact hvalues (List.length_eq_zero_iff.mp hlength.symm)
  rw [analyse_eq hb] at hok
  obtain ⟨changes, insert, printed, rfl, hinsert, hkeyed⟩ :=
    (ends_insert_print hkey hcheck hcolumns hrows hno).of_ok hok
  rw [hprints.parse_print changes insert printed hinsert hkeyed] at hparse
  cases hparse
  obtain ⟨key, row, rest, hgenerated, hdrawn⟩ := hkeyed.first hrows
  -- the second execution starts where the first has ended
  have hsecond := hanswers.insert changes insert hinsert 0 key hgenerated
  have hseen : seen base (s.write [.insert values]) = (seen base s).insert values :=
    seen_write hopen hclean [.insert values]
  have hnext : ((seen base s).insert values).next = (seen base s).next + values.length := rfl
  have heffect : (Business.insert statement values).effect = .insert values := rfl
  rw [heffect, hseen, hnext, Nat.add_zero] at hsecond
  rw [hdrawn] at hlast
  cases values with
  | nil => exact hvalues rfl
  | cons value values =>
      rw [List.length_cons, List.range'_succ, List.map_cons, List.map_cons] at hlast
      obtain ⟨hfirst, _⟩ := List.cons.inj hlast
      rw [List.getLast?_append, List.getLast?_singleton, Option.some_or, hsecond] at hfirst
      have hsame := hprints.stringValue _ _ (Option.some.inj hfirst)
      rw [List.length_cons] at hsame
      omega

/--
**The recorded statement names the affected rows if the condition still selects them.**

What a `DELETE` has affected is gone, and an `INSERT` has no condition. So it
takes an `UPDATE`, or keys that an `IN` list does not tell apart; and the list of
its joins must not be null.
-/
theorem names_affected_iff (hlog : ∀ sql, (newLog sql).sql = sql)
    (hb : Rewritten l pk primaryKeyType sql b)
    (hanswers : Answers l.database base holds pk sql s b)
    (hprints : ∀ statement values, b = .insert statement values →
      Prints l.platform l.database pk sql ((s.write [b.effect]).setAutoCommit false) statement)
    (hopen : s.closed = false) (hclean : s.Clean) (haffected : b.affected (seen base s) ≠ []) :
    RecordsAffected l newLog j base pk primaryKeyType sql s b
      ↔ b.joins ≠ none ∧ SelectsAffected holds primaryKeyType (seen base s) b := by
  rw [recordsAffected_iff hlog hb]
  cases b with
  | insert statement values =>
      have hvalues : values ≠ [] := by
        rintro rfl
        exact haffected rfl
      have hno := not_insert_names hb hanswers (hprints statement values rfl) hopen hclean hvalues
      exact iff_of_false hno fun h => h.1 rfl
  | update statement chosen assign =>
      exact change_names_iff hb hanswers hopen hclean rfl rfl rfl (analyse_eq hb) hb.rewritable
  | delete statement chosen =>
      exact change_names_iff hb hanswers hopen hclean rfl rfl rfl (analyse_eq hb) hb.rewritable

end

/-- What a `DELETE` without a limit has affected is gone. -/
theorem not_selectsAffected_delete {statement : Change} {condition : String}
    {holds : String → SqlValue → V → Bool} {primaryKeyType : JDBCType} {T : KeyedTable auto V}
    (h : statement.condition = some condition) :
    ¬ SelectsAffected holds primaryKeyType T (.delete statement (holds condition)) := by
  intro ⟨condition', _, _, hcondition, hne, _⟩
  obtain rfl := Option.some.inj (h.symm.trans hcondition)
  exact hne (T.selected_delete (holds condition))

/-- Keys that are numbers have to be the same. -/
theorem selectsAffected_iff_perm {holds : String → SqlValue → V → Bool}
    {primaryKeyType : JDBCType} {T : KeyedTable auto V} {b : Business V}
    (hnum : Numeric primaryKeyType) (haffected : b.affected T ≠ []) :
    SelectsAffected holds primaryKeyType T b ↔ ∃ condition list, b.condition = some condition
      ∧ ((T.apply b.effect).selected (holds condition)).Perm (b.affected T)
      ∧ inList primaryKeyType ((T.apply b.effect).selected (holds condition)) = .ok list := by
  constructor
  · intro ⟨condition, keys, list, hcondition, hne, hperm, hkeys, hlist⟩
    have hkeysne : keys ≠ [] := by
      rintro rfl
      exact haffected (List.nil_perm.mp hperm)
    obtain rfl := inList_inj hnum hkeysne hne hkeys hlist
    exact ⟨condition, list, hcondition, hperm, hlist⟩
  · intro ⟨condition, list, hcondition, hperm, hlist⟩
    refine ⟨condition, _, list, hcondition, ?_, hperm, hlist, hlist⟩
    intro hnone
    rw [hnone] at hperm
    exact haffected (List.nil_perm.mp hperm)

/-- With such keys no `DELETE` is named, whatever it has chosen. -/
theorem not_selectsAffected_delete_numeric {statement : Change} {chosen : SqlValue → V → Bool}
    {holds : String → SqlValue → V → Bool} {primaryKeyType : JDBCType} {T : KeyedTable auto V}
    (hnum : Numeric primaryKeyType) (hchosen : T.selected chosen ≠ []) :
    ¬ SelectsAffected holds primaryKeyType T (.delete statement chosen) := by
  intro h
  obtain ⟨condition, _, _, hperm, _⟩ :=
    (selectsAffected_iff_perm (b := .delete statement chosen) hnum hchosen).mp h
  obtain ⟨key, hkey⟩ := List.exists_mem_of_ne_nil _ hchosen
  exact T.not_mem_selected_delete hkey (hperm.mem_iff.mpr hkey)

/-- An `UPDATE` without a limit that assigns nothing its condition looks at is named. -/
theorem selectsAffected_update {statement : Change} {condition list : String}
    {holds : String → SqlValue → V → Bool} {assign : SqlValue → V → V}
    {primaryKeyType : JDBCType} {T : KeyedTable auto V} (h : statement.condition = some condition)
    (hassign : ∀ key value, holds condition key value = true →
      holds condition key (assign key value) = holds condition key value)
    (hsome : T.selected (holds condition) ≠ [])
    (hlist : inList primaryKeyType (T.selected (holds condition)) = .ok list) :
    SelectsAffected holds primaryKeyType T (.update statement (holds condition) assign) := by
  have hafter : (T.update (holds condition) assign).selected (holds condition)
      = T.selected (holds condition) := T.selected_update hassign
  refine ⟨condition, _, list, h, ?_, List.Perm.refl _, hlist, ?_⟩
  · exact fun hnone => hsome (hafter.symm.trans hnone)
  · exact (congrArg (inList primaryKeyType) hafter).trans hlist

/-! ## A table with two rows -/

/-- The keys are those of a `BIGINT` column. -/
def autoLong : ℕ ↪ SqlValue where
  toFun n := .long n
  inj' := by
    intro m n h
    simpa using h

def account : KeyedTable autoLong Int where
  rows := [(.long 1, 10), (.long 2, 20)]
  next := 3
  nodup := by decide
  fresh := by
    intro n hn
    have hkeys : SqlValue.long n ∈ [SqlValue.long 1, .long 2] := hn
    simp only [List.mem_cons, SqlValue.long.injEq, List.not_mem_nil, or_false] at hkeys
    omega

/-- The one condition there is. -/
def isSecond (_ : String) (key : SqlValue) (_ : Int) : Bool := key == .long 2

def ofSecond : Change where
  table := { name := "account" }
  condition := some "id = 2"
  joins := some []

/-- A third account. -/
def oneMore : Insert where
  table := { name := "account" }
  columns := some ["balance"]
  itemsList := some (.expressionList ["30"])

/-- The same, with the key that its second execution generates. -/
def oneMoreKeyed : Insert where
  table := { name := "account" }
  columns := some ["balance", "id"]
  itemsList := some (.expressionList ["30", "'4'"])

/-- The one `INSERT` adds an account with 30, and the one query asks for the key of the second. -/
def accountDatabase : Database (TableChange SqlValue Int) where
  insert s _ := some ([.insert [30]], [fun column =>
    if column = "GENERATED_KEY" then some (.long (seen account s).next) else none])
  query s _ := some <| ((seen account s).selected (isSecond "id = 2")).map
    fun key column => if column = "id" then some key else none
  refuses _ := false

def accountListener (handler : SqlSqlAnalyseHandler) : Listener (TableChange SqlValue Int) where
  platform :=
    { toUpperCase := fun text => String.ofList (text.toList.map Char.toUpper)
      equalsIgnoreCase := (· == ·)
      parse := fun sql =>
        if sql = "insert into account (balance) values (30)" then some (.insert oneMore)
        else if sql = "INSERT INTO account (balance, id) VALUES (30, '4')" then
          some (.insert oneMoreKeyed)
        else if sql = "update account set balance = 0 where id = 2" then some (.update ofSecond)
        else none
      print := fun statement => "INSERT INTO " ++ statement.table.name ++ " ("
        ++ ", ".intercalate (statement.columns.getD []) ++ ") VALUES ("
        ++ ", ".intercalate (rowsOf statement).flatten ++ ")"
      stringValue := fun value => "'" ++ value ++ "'" }
  database := accountDatabase
  analyseHandlers := [handler]
  tableList := some [{ table := "account"
                       columnInfos := [{ name := "id", type := .BIGINT }]
                       primaryKeys := ["id"] }]
  transactionInfo :=
    { groupId := some "g", transactionType := some "lcn", transactionState := .JOIN }
  lineSeparator := "\n"

def accountLog (sql : String) : TransactionLog where
  id := 1
  groupId := some "g"
  sql
  time := 0
  flag := 0

theorem answers_account {handler : SqlSqlAnalyseHandler} {sql : String} {b : Business Int}
    {s : Session (TableChange SqlValue Int)} (htable : b.table = { name := "account" }) :
    Answers (accountListener handler).database account isSecond "id" sql s b where
  query := by
    intro condition _
    rw [htable]
    refine ⟨_, rfl, ?_⟩
    rw [List.map_map]
    rfl
  insert := by
    intro changes rows h i key hkey
    cases h
    cases i with
    | zero =>
        cases hkey
        rw [seen_setAutoCommit]
        rfl
    | succ i => cases hkey

/-- The second account is emptied. -/
def emptiedAccount : Business Int := .update ofSecond (isSecond "id = 2") fun _ _ => 0

/-- A third account is opened. -/
def openedAccount : Business Int := .insert oneMore [30]

theorem rewritten_emptied : Rewritten (accountListener .update) "id" .BIGINT
    "update account set balance = 0 where id = 2" emptiedAccount where
  lcn := rfl
  recognised := by decide
  parsed := rfl
  handled := ⟨.update, by decide, rfl⟩
  known := ⟨_, rfl, rfl, _, rfl, rfl⟩
  rewritable := ⟨"id = 2", rfl, rfl, by decide⟩

theorem rewritten_opened : Rewritten (accountListener .insert) "id" .BIGINT
    "insert into account (balance) values (30)" openedAccount where
  lcn := rfl
  recognised := by decide
  parsed := rfl
  handled := ⟨.insert, by decide, rfl⟩
  known := ⟨_, rfl, rfl, _, rfl, rfl⟩
  rewritable := by
    refine ⟨["balance"], rfl, ?_, rfl⟩
    rintro ⟨index, hindex, _⟩
    cases hindex

/-- What is printed for the third account is read again. -/
theorem prints_opened : Prints (accountListener .insert).platform (accountListener .insert).database
    "id" "insert into account (balance) values (30)"
    ((({ autoCommit := false } : Session _).write [openedAccount.effect]).setAutoCommit false)
    oneMore where
  parse_print := by
    rintro changes insert printed hinsert ⟨columns, columns', rows, rows', hcolumns, hwithout,
      hadd, rfl⟩
    cases hinsert
    cases hcolumns
    cases hwithout
    cases hadd
    rfl
  stringValue := by
    intro m n h
    have hquoted : "'" ++ toString m ++ "'" = "'" ++ toString n ++ "'" := h
    rw [String.append_left_inj, String.append_right_inj] at hquoted
    exact Nat.repr_injective hquoted

/-- An `UPDATE` is recorded with its account, an `INSERT` with one that is not there. -/
theorem names_emptied_not_opened :
    RecordsAffected (accountListener .update) accountLog { connection := 0 } account "id" .BIGINT
        "update account set balance = 0 where id = 2" { autoCommit := false } emptiedAccount
      ∧ ¬ RecordsAffected (accountListener .insert) accountLog { connection := 0 } account "id"
        .BIGINT "insert into account (balance) values (30)" { autoCommit := false }
        openedAccount := by
  have hclean : ({ autoCommit := false } : Session (TableChange SqlValue Int)).Clean := by
    intro h
    cases h
  constructor
  · refine (names_affected_iff (fun _ => rfl) rewritten_emptied (answers_account rfl)
      (fun _ _ h => by cases h) rfl hclean (by decide)).mpr ⟨by decide, ?_⟩
    exact selectsAffected_update rfl (fun _ _ _ => rfl) (by decide) rfl
  · intro h
    refine ((names_affected_iff (fun _ => rfl) rewritten_opened (answers_account rfl)
      (fun _ _ h => ?_) rfl hclean (by decide)).mp h).1 rfl
    cases h
    exact prints_opened

/-- The account is opened once more, and it is the key of that one that is recorded. -/
theorem not_names_affected :
    ¬ ∀ (V : Type) (auto : ℕ ↪ SqlValue) (l : Listener (TableChange SqlValue V))
      (newLog : String → TransactionLog) (j : JdbcTransaction) (base : KeyedTable auto V)
      (holds : String → SqlValue → V → Bool) (pk : String) (primaryKeyType : JDBCType)
      (sql : String) (s : Session (TableChange SqlValue V)) (b : Business V),
      (∀ sql, (newLog sql).sql = sql) → Rewritten l pk primaryKeyType sql b →
      Answers l.database base holds pk sql s b →
      (∀ statement values, b = .insert statement values →
        Prints l.platform l.database pk sql ((s.write [b.effect]).setAutoCommit false) statement) →
      s.closed = false → s.Clean → b.affected (seen base s) ≠ [] →
      RecordsAffected l newLog j base pk primaryKeyType sql s b := by
  intro h
  have hlog : ∀ sql, (accountLog sql).sql = sql := fun _ => rfl
  have hclean : ({ autoCommit := false } : Session (TableChange SqlValue Int)).Clean := by
    intro h
    cases h
  have hrecords := h Int autoLong (accountListener .insert) accountLog { connection := 0 } account
    isSecond "id" .BIGINT "insert into account (balance) values (30)" { autoCommit := false }
    openedAccount hlog rewritten_opened (answers_account rfl)
    (fun _ _ h => by cases h; exact prints_opened) rfl hclean (by decide)
  exact not_insert_names rewritten_opened (answers_account rfl) prints_opened rfl hclean (by simp)
    ((recordsAffected_iff hlog rewritten_opened).mp hrecords)

end TxLcn.Proof
