import TxLcn.Proof.AffectedRows

/-!
# The columns and the rows of a rewritten `INSERT`

A statement has one list of columns, and each of its rows a list of values. The
analysis takes the key out of each row and, each time, a column out of the list;
then the key is put behind all of them. The lists stay aligned if nothing is
taken out, or once.

`aligned_iff` says so. A column can be written in a way that the analysis does
not recognise as the key, in quotes for example; what denotes the key is a
parameter.
-/

namespace TxLcn.Proof

open TxLcn.Lib TxLcn.Tc MysqlSqlDetailAnalyse

/-! ## Taking one element out of two lists -/

section lists

variable {β γ : Type}

/-- What is asked for at most once is taken out by its place. -/
theorem filter_not_eq_eraseIdx {q : β → Bool} {l : List β} {i : Nat} {x : β}
    (hcount : l.countP q ≤ 1) (hx : l[i]? = some x) (hq : q x = true) :
    l.filter (fun y => !q y) = l.eraseIdx i := by
  induction l generalizing i with
  | nil => cases hx
  | cons y l ih =>
      rw [List.countP_cons] at hcount
      cases i with
      | zero =>
          simp only [List.getElem?_cons_zero, Option.some.injEq] at hx
          subst hx
          rw [if_pos hq] at hcount
          have hnone : l.countP q = 0 := by omega
          have hkept : l.filter (fun y => !q y) = l := by
            rw [List.filter_eq_self]
            intro z hz
            simpa using List.countP_eq_zero.mp hnone z hz
          rw [List.filter_cons_of_neg (by simp [hq]), hkept, List.eraseIdx_cons_zero]
      | succ i =>
          have hmem : x ∈ l := List.mem_of_getElem? hx
          have hpos : 0 < l.countP q := List.countP_pos_iff.mpr ⟨x, hmem, hq⟩
          have hy : q y = false := by
            cases hqy : q y with
            | false => rfl
            | true =>
                rw [if_pos hqy] at hcount
                omega
          rw [List.filter_cons_of_pos (by simp [hy]), List.eraseIdx_cons_succ]
          rw [ih (by omega) hx]

theorem zip_eraseIdx {l : List β} {l' : List γ} {i : Nat} :
    (l.eraseIdx i).zip (l'.eraseIdx i) = (l.zip l').eraseIdx i := by
  induction l generalizing l' i with
  | nil => simp
  | cons x l ih =>
      cases l' with
      | nil => simp
      | cons y l' =>
          cases i with
          | zero => rfl
          | succ i =>
              simp only [List.eraseIdx_cons_succ, List.zip_cons_cons]
              rw [ih]

end lists

variable {α : Type} {p : Platform} {db : Database α} {tableList : TableList}
  {tableInfo : TableInfo} {statement : Insert} {columns columns' row : List String}
  {rows rows' : List (List String)} {pk sql : String} {index : Nat} {s t : Session α}

/-! ## What is taken out and put behind -/

/-- Each row takes a column away, and loses its own value at that place. -/
theorem removeKeys_shape (h : removeKeys p index columns rows = .ok (some (columns', rows'))) :
    columns'.length + rows.length = columns.length
      ∧ rows' = rows.map (fun row => row.eraseIdx index) := by
  induction rows generalizing columns columns' rows' with
  | nil =>
      cases h
      exact ⟨rfl, rfl⟩
  | cons row rows ih =>
      unfold removeKeys at h
      split at h
      · cases h
      · cases h
      · rename_i columns₁ row₁ hremove
        have hshape : columns₁ = columns.eraseIdx index ∧ row₁ = row.eraseIdx index
            ∧ index < columns.length := by
          unfold removeKey at hremove
          split at hremove
          · cases hremove
          · split at hremove
            · cases hremove
            · split at hremove <;> cases hremove
              exact ⟨rfl, rfl, ‹_›⟩
        obtain ⟨rfl, rfl, hlt⟩ := hshape
        split at h
        · cases h
        · cases h
        · rename_i hrest
          cases h
          obtain ⟨hlength, rfl⟩ := ih hrest
          rw [List.length_eraseIdx_of_lt hlt] at hlength
          refine ⟨?_, rfl⟩
          rw [List.length_cons]
          omega

/-- With one row one column is taken away. -/
theorem removeKeys_one {value : String} (hvalue : row[index]? = some value)
    (hnull : p.toUpperCase value = "NULL") (hlt : index < columns.length) :
    removeKeys p index columns [row]
      = .ok (some (columns.eraseIdx index, [row.eraseIdx index])) := by
  have hremove : removeKey p columns row index
      = .ok (some (columns.eraseIdx index, row.eraseIdx index)) := by
    simp only [removeKey, hvalue, hnull, ne_eq, not_true_eq_false, if_false, if_pos hlt]
  simp only [removeKeys, hremove]

theorem addKeys_eq {insert : List Row} {keys : List SqlValue} {i : Nat}
    (hkeys : insert.map (fun row => row "GENERATED_KEY") = keys.map some)
    (hlength : keys.length = i + rows.length) :
    addKeys p insert i rows = .ok (List.zipWith
      (fun row key => row ++ [p.stringValue key.toString]) rows (keys.drop i)) := by
  induction rows generalizing i with
  | nil => rw [addKeys, List.zipWith_nil_left]
  | cons row rows ih =>
      rw [List.length_cons] at hlength
      have hi : i < keys.length := by omega
      have hkey : generatedKey insert i = .ok keys[i].toString := by
        have hat := congrArg (fun l => l[i]?) hkeys
        simp only [List.getElem?_map, List.getElem?_eq_getElem hi, Option.map_some,
          Option.map_eq_some_iff] at hat
        obtain ⟨generated, hgenerated, hvalue⟩ := hat
        simp only [generatedKey, hgenerated, hvalue]
      rw [addKeys, hkey, ih (by omega), List.drop_eq_getElem_cons hi]
      rfl

/-! ## The analysis, once the filters have agreed -/

/-- What is taken out of the statement, if the key is among its columns. -/
def removed (p : Platform) (columns : List String) (rows : List (List String)) :
    Option Nat → Except Thrown (Option (List String × List (List String)))
  | none => .ok (some (columns, rows))
  | some index => removeKeys p index columns rows

/-- The items with other rows. -/
def withRows (itemsList : Option ItemsList) (rows : List (List String)) : Option ItemsList :=
  match itemsList, rows with
  | some (.expressionList _), [row] => some (.expressionList row)
  | some (.multiExpressionList _), rows => some (.multiExpressionList rows)
  | itemsList, _ => itemsList

/-- A statement of rows on a known table with one key column. -/
structure OnKnownTable (p : Platform) (tableList : TableList) (tableInfo : TableInfo)
    (statement : Insert) (columns : List String) (pk : String) : Prop where
  table : TableList.getTable p tableList statement.table.name = .ok (some tableInfo)
  primaryKeys : tableInfo.primaryKeys = [pk]
  columns : statement.columns = some columns
  rows : rowsOf statement ≠ []

/-- The database takes the statement and answers with these keys. -/
structure Generates (db : Database α) (s : Session α) (sql : String) (changes : List α)
    (answer : List Row) (keys : List SqlValue) : Prop where
  inserts : db.insert (s.setAutoCommit false) sql = some (changes, answer)
  generated : answer.map (fun row => row "GENERATED_KEY") = keys.map some
  accepts : ∀ call, db.refuses call = false

theorem insertAnalyse_removed {pkIndex : Option Nat} :
    insertAnalyse p db sql columns rows pk pkIndex
      = (do
        let removed ← Analysis.ofExcept (removed p columns rows pkIndex)
        match removed with
        | none => pure none
        | some (columns, rows) =>
            let insert ← Analysis.insert db sql
            let rows ← Analysis.ofExcept (addKeys p insert 0 rows)
            pure (some (columns ++ [pk], rows))) := by
  cases pkIndex <;> rfl

theorem insertAnalyse_error {pkIndex : Option Nat} {e : Thrown}
    (hremoved : removed p columns rows pkIndex = .error e) :
    insertAnalyse p db sql columns rows pk pkIndex s = .error e s := by
  rw [insertAnalyse_removed, hremoved]
  exact bind_of_error rfl

/-- The keys of the rows that are left are drawn and put behind them. -/
theorem insertAnalyse_ok {pkIndex : Option Nat} {changes : List α} {answer : List Row}
    {keys : List SqlValue}
    (hremoved : removed p columns rows pkIndex = .ok (some (columns', rows')))
    (hinsert : db.insert s sql = some (changes, answer))
    (hgenerated : answer.map (fun row => row "GENERATED_KEY") = keys.map some)
    (hlength : keys.length = rows'.length) :
    insertAnalyse p db sql columns rows pk pkIndex s
      = .ok (some (columns' ++ [pk], List.zipWith
          (fun row key => row ++ [p.stringValue key.toString]) rows' keys)) (s.write changes) := by
  rw [insertAnalyse_removed, hremoved]
  refine (bind_of_ok (t := s) rfl).trans ?_
  have hdrawn : Analysis.insert db sql s = .ok answer (s.write changes) := by
    unfold Analysis.insert
    refine (bind_of_ok rfl).trans ?_
    rw [hinsert]
    rfl
  refine (bind_of_ok hdrawn).trans ?_
  rw [addKeys_eq hgenerated (by omega), List.drop_zero]
  rfl

/-- What an insert analysis gives, by what has become of the columns and the rows. -/
def analysedTo (statement : Insert) :
    EStateM.Result Thrown (Session α) (Option (List String × List (List String))) →
      EStateM.Result Thrown (Session α) (Bool × Insert)
  | .error e t => .error e t
  | .ok none t => .ok (true, statement) t
  | .ok (some (columns, rows)) t => .ok (false, { statement with
      columns := some columns
      itemsList := withRows statement.itemsList rows }) t

theorem multiInsertAnalyse_eq {pkIndex : Option Nat} {exprList : List (List String)}
    (h : statement.itemsList = some (.multiExpressionList exprList)) :
    multiInsertAnalyse p db sql statement columns pk pkIndex s
      = analysedTo statement (insertAnalyse p db sql columns exprList pk pkIndex s) := by
  unfold multiInsertAnalyse analysedTo
  rw [h]
  cases hr : insertAnalyse p db sql columns exprList pk pkIndex s with
  | error e t => exact bind_of_error hr
  | ok r t =>
      refine (bind_of_ok hr).trans ?_
      cases r <;> rfl

theorem singleInsertAnalyse_eq {pkIndex : Option Nat} {expressions : List String}
    (h : statement.itemsList = some (.expressionList expressions)) :
    singleInsertAnalyse p db sql statement columns pk pkIndex s
      = analysedTo statement (insertAnalyse p db sql columns [expressions] pk pkIndex s) := by
  unfold singleInsertAnalyse analysedTo
  rw [h]
  cases hr : insertAnalyse p db sql columns [expressions] pk pkIndex s with
  | error e t => exact bind_of_error hr
  | ok r t =>
      refine (bind_of_ok hr).trans ?_
      cases r with
      | none => rfl
      | some r =>
          rcases ends_insertAnalyse.of_ok hr with ⟨hnone, _⟩ | ⟨⟨r', hsome, hone⟩, _⟩
          · cases hnone
          · cases hsome
            obtain ⟨row, hrow⟩ := List.length_eq_one_iff.mp hone
            obtain ⟨columns', rows'⟩ := r
            dsimp only at hrow
            subst hrow
            rfl

/-- What the strategy returns, by what an insert analysis gives. -/
def returned (p : Platform) (autoCommit : Bool) (sql : String) :
    EStateM.Result Thrown (Session α) (Bool × Insert) → EStateM.Result Thrown (Session α) String
  | .error e t => .error e t
  | .ok (true, _) t => .ok sql t
  | .ok (false, statement) t =>
      .ok (p.print statement) (t.rollback.setAutoCommit autoCommit)

theorem setAutoCommit_accepted (haccepts : ∀ call, db.refuses call = false) {autoCommit : Bool} :
    Analysis.setAutoCommit db autoCommit s = .ok () (s.setAutoCommit autoCommit) := by
  unfold Analysis.setAutoCommit
  rw [haccepts]
  rfl

theorem rollback_accepted (haccepts : ∀ call, db.refuses call = false) :
    Analysis.rollback db s = .ok () s.rollback := by
  unfold Analysis.rollback
  rw [haccepts]
  rfl

/-- The end of the path that rewrites. -/
theorem givenBack_accepted (haccepts : ∀ call, db.refuses call = false) {autoCommit : Bool}
    {newSql : String} :
    (do
      Analysis.rollback db
      Analysis.setAutoCommit db autoCommit
      pure newSql : Analysis α String) s
      = .ok newSql (s.rollback.setAutoCommit autoCommit) := by
  refine (bind_of_ok (rollback_accepted haccepts)).trans ?_
  exact bind_of_ok (setAutoCommit_accepted haccepts)

/-- What `MysqlInsertAnalyseStrategy.analyse` does with the columns and the rows. -/
def analyseItems (p : Platform) (db : Database α) (sql : String) (autoCommit : Bool)
    (statement : Insert) (columns : List String) (pk : String) (index : Option Nat) :
    Analysis α String := do
  let (left, statement) ← multiInsertAnalyse p db sql statement columns pk index
  if left then return sql
  let (left, statement) ← singleInsertAnalyse p db sql statement columns pk index
  if left then return sql
  Analysis.rollback db
  Analysis.setAutoCommit db autoCommit
  return p.print statement

theorem insertStrategy_analyseItems
    (hknown : OnKnownTable p tableList tableInfo statement columns pk)
    (haccepts : ∀ call, db.refuses call = false) :
    MysqlInsertAnalyseStrategy.analyse p db tableList sql statement s
      = analyseItems p db sql s.autoCommit statement columns pk
        (MysqlInsertAnalyseStrategy.pkIndex p columns pk) (s.setAutoCommit false) := by
  obtain ⟨hpk, hcheck⟩ := getPrimaryKey_eq hknown.table hknown.primaryKeys
  have hitems : statement.itemsList ≠ none := by
    intro hnone
    exact hknown.rows (by rw [rowsOf, hnone])
  have hfilter : MysqlInsertAnalyseStrategy.doFilter p tableList statement = .ok true := by
    unfold MysqlInsertAnalyseStrategy.doFilter ItemsListFilter.doFilter
    rw [hcheck, Option.isSome_iff_ne_none.mpr hitems]
    rfl
  unfold MysqlInsertAnalyseStrategy.analyse
  refine (bind_of_ok (t := s) rfl).trans ?_
  refine (bind_of_ok (setAutoCommit_accepted haccepts)).trans ?_
  rw [hfilter, hpk, hknown.columns]
  -- the filter, the key and the columns
  refine (bind_of_ok rfl).trans ?_
  refine (bind_of_ok rfl).trans ?_
  exact bind_of_ok rfl

/-- With several rows the second analysis has nothing to do. -/
theorem analyseItems_multi {exprList : List (List String)} {pkIndex : Option Nat}
    {autoCommit : Bool} (haccepts : ∀ call, db.refuses call = false)
    (hlist : statement.itemsList = some (.multiExpressionList exprList)) :
    analyseItems p db sql autoCommit statement columns pk pkIndex s
      = returned p autoCommit sql
        (analysedTo statement (insertAnalyse p db sql columns exprList pk pkIndex s)) := by
  have hmulti : multiInsertAnalyse p db sql statement columns pk pkIndex s = _ :=
    multiInsertAnalyse_eq hlist
  unfold analyseItems
  cases hr : insertAnalyse p db sql columns exprList pk pkIndex s with
  | error e t => exact bind_of_error (hmulti.trans (by rw [hr]; rfl))
  | ok r t =>
  cases r with
  | none => exact (bind_of_ok (hmulti.trans (by rw [hr]; rfl))).trans rfl
  | some r =>
      obtain ⟨columns', rows'⟩ := r
      have hkept : withRows (some (ItemsList.multiExpressionList exprList)) rows'
          = some (.multiExpressionList rows') := by cases rows' <;> rfl
      refine (bind_of_ok (hmulti.trans (by rw [hr]; rfl))).trans ?_
      dsimp only [analysedTo]
      rw [if_neg Bool.false_ne_true, singleInsertAnalyse, hlist]
      dsimp only
      rw [hkept]
      refine (bind_of_ok (t := t) rfl).trans ?_
      exact givenBack_accepted haccepts

/-- With one row the first analysis has none. -/
theorem analyseItems_single {expressions : List String} {pkIndex : Option Nat}
    {autoCommit : Bool} (haccepts : ∀ call, db.refuses call = false)
    (hlist : statement.itemsList = some (.expressionList expressions)) :
    analyseItems p db sql autoCommit statement columns pk pkIndex s
      = returned p autoCommit sql
        (analysedTo statement (insertAnalyse p db sql columns [expressions] pk pkIndex s)) := by
  have hmulti : multiInsertAnalyse p db sql statement columns pk pkIndex s
      = .ok (false, statement) s := by
    rw [multiInsertAnalyse, hlist]
    rfl
  have hsingle : singleInsertAnalyse p db sql statement columns pk pkIndex s = _ :=
    singleInsertAnalyse_eq hlist
  unfold analyseItems
  refine (bind_of_ok hmulti).trans ?_
  dsimp only
  rw [if_neg Bool.false_ne_true]
  cases hr : insertAnalyse p db sql columns [expressions] pk pkIndex s with
  | error e t => exact bind_of_error (hsingle.trans (by rw [hr]; rfl))
  | ok r t =>
  cases r with
  | none => exact (bind_of_ok (hsingle.trans (by rw [hr]; rfl))).trans rfl
  | some r =>
      refine (bind_of_ok (hsingle.trans (by rw [hr]; rfl))).trans ?_
      exact givenBack_accepted haccepts

/-- The analysis of the rows decides about the strategy. -/
theorem insertStrategy_eq (hknown : OnKnownTable p tableList tableInfo statement columns pk)
    (haccepts : ∀ call, db.refuses call = false) :
    MysqlInsertAnalyseStrategy.analyse p db tableList sql statement s
      = returned p s.autoCommit sql (analysedTo statement
          (insertAnalyse p db sql columns (rowsOf statement) pk
            (MysqlInsertAnalyseStrategy.pkIndex p columns pk) (s.setAutoCommit false))) := by
  rw [insertStrategy_analyseItems hknown haccepts]
  have hrows := hknown.rows
  unfold rowsOf at hrows ⊢
  cases hlist : statement.itemsList with
  | none =>
      rw [hlist] at hrows
      exact absurd rfl hrows
  | some itemsList =>
  cases itemsList with
  | multiExpressionList exprList => exact analyseItems_multi haccepts hlist
  | expressionList expressions => exact analyseItems_single haccepts hlist
  | other =>
      rw [hlist] at hrows
      exact absurd rfl hrows

/-- For a statement without keys of its own, by what is taken out of it. -/
theorem insertStrategy_removed {changes : List α} {answer : List Row} {keys : List SqlValue}
    (hknown : OnKnownTable p tableList tableInfo statement columns pk)
    (hgenerates : Generates db s sql changes answer keys)
    (hremoved : removed p columns (rowsOf statement)
      (MysqlInsertAnalyseStrategy.pkIndex p columns pk) = .ok (some (columns', rows')))
    (hlength : keys.length = rows'.length) :
    MysqlInsertAnalyseStrategy.analyse p db tableList sql statement s
      = .ok (p.print { statement with
          columns := some (columns' ++ [pk])
          itemsList := withRows statement.itemsList (List.zipWith
            (fun row key => row ++ [p.stringValue key.toString]) rows' keys) })
        ((((s.setAutoCommit false).write changes).rollback).setAutoCommit s.autoCommit) := by
  rw [insertStrategy_eq hknown hgenerates.accepts]
  rw [insertAnalyse_ok hremoved hgenerates.inserts hgenerates.generated hlength]
  rfl

/-! ## Alignment -/

/-- The columns without the key. -/
def otherColumns (isKey : String → Bool) (columns : List String) : List String :=
  columns.filter fun column => !isKey column

/-- The key stands behind the other columns, and behind each row its own one. -/
structure Aligned (p : Platform) (isKey : String → Bool) (pk : String) (columns : List String)
    (rows : List (List String)) (keys : List SqlValue) (statement : Insert) : Prop where
  header : statement.columns = some (otherColumns isKey columns ++ [pk])
  lengths : ∀ row ∈ rowsOf statement, row.length = (otherColumns isKey columns ++ [pk]).length
  values : (rowsOf statement).map (fun row => (otherColumns isKey columns ++ [pk]).zip row)
    = List.zipWith (fun row key => (columns.zip row).filter (fun value => !isKey value.1)
        ++ [(pk, p.stringValue key.toString)]) rows keys

/-- It returns what the statement prints, whatever that is. -/
def Rewrites (p : Platform) (db : Database α) (tableList : TableList) (sql : String)
    (statement : Insert) (s : Session α) (statement' : Insert) (t : Session α) : Prop :=
  ∀ print, MysqlInsertAnalyseStrategy.analyse { p with print } db tableList sql statement s
    = .ok (print statement') t

section aligned

variable {isKey : String → Bool} {keys : List SqlValue} {f : List String → List String}

theorem rowsOf_withRows {columns : Option (List String)} (hrows : rowsOf statement ≠ [])
    (hlength : rows.length = (rowsOf statement).length) :
    rowsOf { statement with columns, itemsList := withRows statement.itemsList rows } = rows := by
  unfold rowsOf at hrows hlength
  cases hlist : statement.itemsList with
  | none =>
      rw [hlist] at hrows
      exact absurd rfl hrows
  | some itemsList =>
  rw [hlist] at hrows hlength
  cases itemsList with
  | expressionList expressions =>
      obtain ⟨row, rfl⟩ := List.length_eq_one_iff.mp hlength
      rfl
  | multiExpressionList exprList =>
      cases rows <;> rfl
  | other => exact absurd rfl hrows

/-- What keeps the other values beside their columns keeps them with the keys behind. -/
theorem values_aligned (hf : ∀ row ∈ rows, (f row).length = columns'.length
      ∧ columns'.zip (f row) = (columns.zip row).filter (fun value => !isKey value.1)) :
    (List.zipWith (fun row key => row ++ [p.stringValue key.toString]) (rows.map f) keys).map
        (fun row => (columns' ++ [pk]).zip row)
      = List.zipWith (fun row key => (columns.zip row).filter (fun value => !isKey value.1)
          ++ [(pk, p.stringValue key.toString)]) rows keys := by
  induction rows generalizing keys with
  | nil => rfl
  | cons row rows ih =>
      cases keys with
      | nil => rfl
      | cons key keys =>
          obtain ⟨hlength, hzip⟩ := hf row List.mem_cons_self
          have hrest := @ih keys fun row hrow => hf row (List.mem_cons_of_mem _ hrow)
          simp only [List.map_cons, List.zipWith_cons_cons]
          rw [hrest, List.zip_append hlength.symm, hzip]
          rfl

theorem aligned_of_removed (hrows : rowsOf statement ≠ [])
    (hkeys : keys.length = (rowsOf statement).length)
    (hf : ∀ row ∈ rowsOf statement, (f row).length = (otherColumns isKey columns).length
      ∧ (otherColumns isKey columns).zip (f row)
        = (columns.zip row).filter (fun value => !isKey value.1)) :
    Aligned p isKey pk columns (rowsOf statement) keys { statement with
      columns := some (otherColumns isKey columns ++ [pk])
      itemsList := withRows statement.itemsList
        (List.zipWith (fun row key => row ++ [p.stringValue key.toString])
          ((rowsOf statement).map f) keys) } := by
  have hthere : rowsOf { statement with
        columns := some (otherColumns isKey columns ++ [pk])
        itemsList := withRows statement.itemsList (List.zipWith
          (fun row key => row ++ [p.stringValue key.toString]) ((rowsOf statement).map f) keys) }
      = _ := rowsOf_withRows hrows (by simp [hkeys])
  refine ⟨rfl, ?_, ?_⟩
  · rw [hthere]
    intro row' hrow'
    obtain ⟨i, hi, rfl⟩ := List.mem_iff_getElem.mp hrow'
    simp only [List.getElem_zipWith, List.getElem_map, List.length_append, List.length_singleton]
    rw [(hf _ (List.getElem_mem _)).1]
  · rw [hthere]
    exact values_aligned hf

/-- What is asked of a statement whose keys, if it has any, are to be generated. -/
structure WithoutKeys (p : Platform) (isKey : String → Bool) (pk : String)
    (columns : List String) (rows : List (List String)) : Prop where
  lengths : ∀ row ∈ rows, row.length = columns.length
  recognised : ∀ column ∈ columns, p.toUpperCase column = p.toUpperCase pk → isKey column = true
  distinct : columns.countP isKey ≤ 1
  null : ∀ row ∈ rows, ∀ value ∈ (columns.zip row), isKey value.1 = true →
    p.toUpperCase value.2 = "NULL"

/-- The analysis takes the key out of the only row, or has none to take out. -/
def KeyOnce (p : Platform) (isKey : String → Bool) (pk : String) (columns : List String)
    (rows : List (List String)) : Prop :=
  (∀ column ∈ columns, isKey column = false)
    ∨ rows.length = 1 ∧ ∃ column ∈ columns, p.toUpperCase column = p.toUpperCase pk

theorem otherColumns_of_none (h : ∀ column ∈ columns, isKey column = false) :
    otherColumns isKey columns = columns := by
  rw [otherColumns, List.filter_eq_self]
  intro column hcolumn
  rw [h column hcolumn]
  rfl

theorem pkIndex_none :
    MysqlInsertAnalyseStrategy.pkIndex p columns pk = none
      ↔ ∀ column ∈ columns, p.toUpperCase column ≠ p.toUpperCase pk := by
  unfold MysqlInsertAnalyseStrategy.pkIndex
  simp

/-- The column that is found is the key. -/
theorem pkIndex_some (h : MysqlInsertAnalyseStrategy.pkIndex p columns pk = some index) :
    ∃ column, columns[index]? = some column ∧ p.toUpperCase column = p.toUpperCase pk := by
  unfold MysqlInsertAnalyseStrategy.pkIndex at h
  rw [List.findIdx?_eq_some_iff_getElem] at h
  obtain ⟨hlt, heq, _⟩ := h
  exact ⟨columns[index], List.getElem?_eq_getElem hlt, by simpa using heq⟩

theorem countP_zip (hlength : row.length = columns.length) :
    (columns.zip row).countP (fun value => isKey value.1) = columns.countP isKey := by
  have hfst : (columns.zip row).map Prod.fst = columns := List.map_fst_zip (by omega)
  calc (columns.zip row).countP (fun value => isKey value.1)
      = ((columns.zip row).map Prod.fst).countP isKey := by
        rw [List.countP_map]
        rfl
    _ = columns.countP isKey := by rw [hfst]

/-- The key is taken out of a row, and out of the columns, by its place. -/
theorem otherColumns_zip (h : WithoutKeys p isKey pk columns rows) (hrow : row ∈ rows)
    (hindex : MysqlInsertAnalyseStrategy.pkIndex p columns pk = some index) :
    otherColumns isKey columns = columns.eraseIdx index
      ∧ (row.eraseIdx index).length = (otherColumns isKey columns).length
      ∧ (otherColumns isKey columns).zip (row.eraseIdx index)
        = (columns.zip row).filter (fun value => !isKey value.1)
      ∧ ∃ value, row[index]? = some value ∧ p.toUpperCase value = "NULL" := by
  obtain ⟨column, hcolumn, hpk⟩ := pkIndex_some hindex
  have hkey := h.recognised column (List.mem_of_getElem? hcolumn) hpk
  have hother : otherColumns isKey columns = columns.eraseIdx index :=
    filter_not_eq_eraseIdx h.distinct hcolumn hkey
  have hlength := h.lengths row hrow
  obtain ⟨hlt, _⟩ := List.getElem?_eq_some_iff.mp hcolumn
  have hi : index < row.length := by omega
  have hvalue : row[index]? = some row[index] := List.getElem?_eq_getElem hi
  have hpair : (columns.zip row)[index]? = some (column, row[index]) := by
    rw [List.getElem?_zip_eq_some]
    exact ⟨hcolumn, hvalue⟩
  refine ⟨hother, ?_, ?_, _, hvalue, ?_⟩
  · rw [hother, List.length_eraseIdx, List.length_eraseIdx, hlength]
  · rw [hother, zip_eraseIdx]
    refine (filter_not_eq_eraseIdx ?_ hpair hkey).symm
    rw [countP_zip hlength]
    exact h.distinct
  · exact h.null row hrow _ (List.mem_of_getElem? hpair) hkey

/-- What is taken out, where the key is taken out once. -/
theorem removed_of_keyOnce (h : WithoutKeys p isKey pk columns rows)
    (honce : KeyOnce p isKey pk columns rows) :
    ∃ f : List String → List String,
      (∀ print, removed { p with print } columns rows
          (MysqlInsertAnalyseStrategy.pkIndex p columns pk)
        = .ok (some (otherColumns isKey columns, rows.map f)))
      ∧ ∀ row ∈ rows, (f row).length = (otherColumns isKey columns).length
        ∧ (otherColumns isKey columns).zip (f row)
          = (columns.zip row).filter (fun value => !isKey value.1) := by
  rcases honce with hnone | ⟨hone, column, hcolumn, hpk⟩
  · have hindex : MysqlInsertAnalyseStrategy.pkIndex p columns pk = none := by
      rw [pkIndex_none]
      intro column hcolumn hpk
      have hkey := h.recognised column hcolumn hpk
      rw [hnone column hcolumn] at hkey
      cases hkey
    refine ⟨id, ?_, ?_⟩
    · intro print
      rw [hindex, otherColumns_of_none hnone, List.map_id]
      rfl
    · intro row hrow
      rw [otherColumns_of_none hnone]
      refine ⟨h.lengths row hrow, (List.filter_eq_self.mpr ?_).symm⟩
      intro value hvalue
      rw [hnone value.1 (List.of_mem_zip hvalue).1]
      rfl
  · obtain ⟨row, rfl⟩ := List.length_eq_one_iff.mp hone
    cases hindex : MysqlInsertAnalyseStrategy.pkIndex p columns pk with
    | none => exact absurd hpk (pkIndex_none.mp hindex column hcolumn)
    | some index =>
        obtain ⟨hother, hlength, hzip, value, hvalue, hnull⟩ :=
          otherColumns_zip h (List.mem_singleton_self row) hindex
        obtain ⟨found, hfound, _⟩ := pkIndex_some hindex
        obtain ⟨hlt, _⟩ := List.getElem?_eq_some_iff.mp hfound
        refine ⟨fun row => row.eraseIdx index, ?_, ?_⟩
        · intro print
          rw [hother]
          exact removeKeys_one hvalue hnull hlt
        · intro row' hrow'
          obtain rfl := List.mem_singleton.mp hrow'
          exact ⟨hlength, hzip⟩

/-- The columns that are left have been the other ones only if the key was taken out once. -/
theorem keyOnce_of_removed (h : WithoutKeys p isKey pk columns rows) (hrows : rows ≠ [])
    (hremoved : removed p columns rows (MysqlInsertAnalyseStrategy.pkIndex p columns pk)
      = .ok (some (otherColumns isKey columns, rows'))) :
    KeyOnce p isKey pk columns rows := by
  cases hindex : MysqlInsertAnalyseStrategy.pkIndex p columns pk with
  | none =>
      rw [hindex] at hremoved
      have hall : otherColumns isKey columns = columns := by
        unfold removed at hremoved
        simp only [Except.ok.injEq, Option.some.injEq, Prod.mk.injEq] at hremoved
        exact hremoved.1.symm
      refine Or.inl fun column hcolumn => ?_
      have hkept := List.filter_eq_self.mp hall column hcolumn
      simpa using hkept
  | some index =>
      rw [hindex] at hremoved
      obtain ⟨column, hcolumn, hpk⟩ := pkIndex_some hindex
      have hlength := (removeKeys_shape hremoved).1
      have hsplit : (otherColumns isKey columns).length + columns.countP isKey
          = columns.length := by
        have hcount := @List.length_eq_countP_add_countP _ isKey columns
        rw [otherColumns, ← List.countP_eq_length_filter, hcount]
        simp only [Bool.not_eq_true, Bool.decide_eq_false]
        omega
      have hdistinct := h.distinct
      have hpos : 0 < rows.length := List.length_pos_iff.mpr hrows
      exact Or.inr ⟨by omega, column, List.mem_of_getElem? hcolumn, hpk⟩

theorem removed_ne_none (h : WithoutKeys p isKey pk columns rows) :
    removed p columns rows (MysqlInsertAnalyseStrategy.pkIndex p columns pk) ≠ .ok none := by
  intro hremoved
  cases hindex : MysqlInsertAnalyseStrategy.pkIndex p columns pk with
  | none =>
      rw [hindex] at hremoved
      cases hremoved
  | some index =>
      rw [hindex] at hremoved
      obtain ⟨place, hplace, row, hrow, value, hvalue, hnot⟩ := (removeKeys_ok hremoved).mp rfl
      cases hplace
      obtain ⟨_, _, _, value', hvalue', hnull⟩ := otherColumns_zip h hrow hindex
      rw [hvalue] at hvalue'
      cases hvalue'
      exact hnot hnull

/-- If it returns, its columns are those that are left, and the key. -/
theorem header_of_returned {changes : List α} {answer : List Row} {newSql : String}
    (hknown : OnKnownTable p tableList tableInfo statement columns pk)
    (hwithout : WithoutKeys p isKey pk columns (rowsOf statement))
    (hgenerates : Generates db s sql changes answer keys)
    (hkeys : keys.length = (rowsOf statement).length)
    (h : MysqlInsertAnalyseStrategy.analyse p db tableList sql statement s = .ok newSql t) :
    ∃ columns' rows' itemsList, removed p columns (rowsOf statement)
        (MysqlInsertAnalyseStrategy.pkIndex p columns pk) = .ok (some (columns', rows'))
      ∧ newSql = p.print { statement with columns := some (columns' ++ [pk]), itemsList } := by
  cases hremoved : removed p columns (rowsOf statement)
      (MysqlInsertAnalyseStrategy.pkIndex p columns pk) with
  | error e =>
      rw [insertStrategy_eq hknown hgenerates.accepts, insertAnalyse_error hremoved] at h
      cases h
  | ok r =>
  cases r with
  | none => exact absurd hremoved (removed_ne_none hwithout)
  | some r =>
      obtain ⟨columns', rows'⟩ := r
      have hlength : rows'.length = (rowsOf statement).length := by
        cases hindex : MysqlInsertAnalyseStrategy.pkIndex p columns pk with
        | none =>
            rw [hindex] at hremoved
            cases hremoved
            rfl
        | some index =>
            rw [hindex] at hremoved
            rw [(removeKeys_shape hremoved).2, List.length_map]
      rw [insertStrategy_removed hknown hgenerates hremoved (by omega)] at h
      cases h
      exact ⟨_, _, _, rfl, rfl⟩

/--
The analysis of an `INSERT` that leaves its keys to the database returns, with
the key behind the other columns and the generated key behind each row, if and
only if the key is not among the columns or the statement has one row.
-/
theorem aligned_iff {changes : List α} {answer : List Row}
    (hknown : OnKnownTable p tableList tableInfo statement columns pk)
    (hwithout : WithoutKeys p isKey pk columns (rowsOf statement))
    (hgenerates : Generates db s sql changes answer keys)
    (hkeys : keys.length = (rowsOf statement).length) :
    (∃ statement' t, Rewrites p db tableList sql statement s statement' t
        ∧ Aligned p isKey pk columns (rowsOf statement) keys statement')
      ↔ KeyOnce p isKey pk columns (rowsOf statement) := by
  have hknown' : ∀ print, OnKnownTable { p with print } tableList tableInfo statement columns pk :=
    fun print => ⟨hknown.table, hknown.primaryKeys, hknown.columns, hknown.rows⟩
  have hwithout' : ∀ print, WithoutKeys { p with print } isKey pk columns (rowsOf statement) :=
    fun print => ⟨hwithout.lengths, hwithout.recognised, hwithout.distinct, hwithout.null⟩
  constructor
  · intro ⟨statement', t, hrewrites, haligned⟩
    obtain ⟨print, hprint⟩ : ∃ print : Insert → String,
        ∀ printed, print printed = "" ↔ printed.columns = statement'.columns := by
      refine ⟨fun printed => if printed.columns = statement'.columns then "" else "other", ?_⟩
      intro printed
      simp
    obtain ⟨columns', rows', itemsList, hremoved, hsame⟩ :=
      header_of_returned (hknown' print) (hwithout' print) hgenerates hkeys (hrewrites print)
    have hheader := (hprint _).mp (hsame.symm.trans ((hprint statement').mpr rfl))
    dsimp only at hheader
    rw [haligned.header, Option.some.injEq] at hheader
    obtain rfl := List.append_cancel_right hheader
    have honce := keyOnce_of_removed (hwithout' print) hknown.rows hremoved
    exact honce
  · intro honce
    obtain ⟨f, hremoved, hf⟩ := removed_of_keyOnce hwithout honce
    refine ⟨_, (((s.setAutoCommit false).write changes).rollback).setAutoCommit s.autoCommit, ?_,
      aligned_of_removed hknown.rows hkeys hf⟩
    intro print
    exact insertStrategy_removed (hknown' print) hgenerates (hremoved print) (by simp [hkeys])

end aligned

/-- An `INSERT` of rows with those columns. -/
def inserted (columns : List String) (itemsList : ItemsList) : Insert :=
  { table := { name := "t" }, columns := some columns, itemsList := some itemsList }

/-- A database that numbers the rows it is given. -/
def numbering (n : Nat) : Database Nat where
  insert _ _ := some ([n], (List.range n).map fun i _ => some (.long (i + 1)))
  query _ _ := some []
  refuses _ := false

/-- The table `t` with the key `id`. -/
def keyed : TableList := some [{ table := "t", columnInfos := [], primaryKeys := ["id"] }]

/-- The row `('a', NULL)` becomes `('a', '1')`. -/
theorem aligned_one : ∃ statement' t, Rewrites (inserting "NULL") (numbering 1) keyed ""
      (inserted ["name", "id"] (.expressionList ["'a'", "NULL"])) {} statement' t
    ∧ Aligned (inserting "NULL") (· == "id") "id" ["name", "id"] [["'a'", "NULL"]] [.long 1]
      statement' := by
  have hknown : OnKnownTable (inserting "NULL") keyed
      { table := "t", columnInfos := [], primaryKeys := ["id"] }
      (inserted ["name", "id"] (.expressionList ["'a'", "NULL"])) ["name", "id"] "id" :=
    ⟨rfl, rfl, rfl, by decide⟩
  have hwithout : WithoutKeys (inserting "NULL") (· == "id") "id" ["name", "id"]
      [["'a'", "NULL"]] := by
    refine ⟨by decide, ?_, by decide, by decide⟩
    intro column _ h
    simpa [inserting] using h
  have hgenerates : Generates (numbering 1) {} "" [1] [fun _ => some (.long 1)] [.long 1] :=
    ⟨rfl, rfl, fun _ => rfl⟩
  exact (aligned_iff hknown hwithout hgenerates rfl).mpr (Or.inr ⟨rfl, "id", by decide, rfl⟩)

/-- Of `(id, name)` and two rows one column is left, for two values. -/
theorem not_aligned : ¬ ∃ statement' t, Rewrites (inserting "NULL") (numbering 2) keyed ""
      (inserted ["id", "name"] (.multiExpressionList [["NULL", "'a'"], ["NULL", "'b'"]])) {}
      statement' t
    ∧ Aligned (inserting "NULL") (· == "id") "id" ["id", "name"]
      [["NULL", "'a'"], ["NULL", "'b'"]] [.long 1, .long 2] statement' := by
  intro ⟨statement', t, hrewrites, haligned⟩
  have hprinted := hrewrites fun printed => if printed.columns = some ["id"] then "" else "other"
  have hleft : MysqlInsertAnalyseStrategy.analyse { inserting "NULL" with
      print := fun printed => if printed.columns = some ["id"] then "" else "other" }
      (numbering 2) keyed ""
      (inserted ["id", "name"] (.multiExpressionList [["NULL", "'a'"], ["NULL", "'b'"]])) {}
      = .ok "" {} := rfl
  have hheader : statement'.columns = some ["name", "id"] := haligned.header
  rw [hleft, hheader] at hprinted
  injection hprinted with htext
  exact absurd htext (by decide)

end TxLcn.Proof
