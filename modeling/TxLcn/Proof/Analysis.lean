import TxLcn.Tc.SqlAnalyse

/-!
# What the analysis does to the business transaction

An `UPDATE` or a `DELETE` is analysed with a query. The analysis of an `INSERT`
takes the auto-commit flag away and gives it back behind a rollback. The paths
that leave the statement as it is return before either; on the others the
rollback is one of everything that the business has not committed.

`undisturbed_iff` says when a business transaction comes through that.
-/

namespace TxLcn.Proof

open TxLcn.Lib TxLcn.Tc MysqlSqlDetailAnalyse

variable {α : Type} (p : Platform) {db : Database α}

/-- The rows of values of an `INSERT`. -/
def rowsOf (statement : Insert) : List (List String) :=
  match statement.itemsList with
  | some (.expressionList expressions) => [expressions]
  | some (.multiExpressionList exprList) => exprList
  | _ => []

/-- Some row has a key of its own at that place. -/
def ExplicitKey (rows : List (List String)) (pkIndex : Option Nat) : Prop :=
  ∃ index, pkIndex = some index ∧ ∃ row ∈ rows, ∃ value, row[index]? = some value
    ∧ p.toUpperCase value ≠ "NULL"

/-- The analysis leaves the `INSERT` as it is. -/
def LeftAlone (tableList : TableList) (statement : Insert) : Prop :=
  MysqlInsertAnalyseStrategy.doFilter p tableList statement = .ok false
    ∨ ∃ pk columns, TableList.getPrimaryKey p tableList statement.table = .ok pk
      ∧ statement.columns = some columns
      ∧ ExplicitKey p (rowsOf statement) (MysqlInsertAnalyseStrategy.pkIndex p columns pk)

variable {p} {s t : Session α} {sql pk : String} {tableList : TableList} {statement : Insert}
  {columns : List String} {rows : List (List String)} {pkIndex : Option Nat} {index : Nat}

/-! ## The keys of the rows -/

theorem removeKey_ok {row : List String} {r : Option (List String × List String)}
    (h : removeKey p columns row index = .ok r) :
    ∃ value, row[index]? = some value ∧ (r = none ↔ p.toUpperCase value ≠ "NULL") := by
  unfold removeKey at h
  split at h
  · cases h
  · rename_i value hvalue
    refine ⟨value, hvalue, ?_⟩
    split at h
    · rename_i hne
      cases h
      exact iff_of_true rfl hne
    · rename_i hnull
      split at h <;> cases h
      exact iff_of_false (by simp) hnull

theorem removeKeys_ok {r : Option (List String × List (List String))}
    (h : removeKeys p index columns rows = .ok r) :
    r = none ↔ ExplicitKey p rows (some index) := by
  induction rows generalizing columns r with
  | nil =>
      cases h
      simp [ExplicitKey]
  | cons row rows ih =>
      unfold removeKeys at h
      have hcons : ExplicitKey p (row :: rows) (some index)
          ↔ (∃ value, row[index]? = some value ∧ p.toUpperCase value ≠ "NULL")
            ∨ ExplicitKey p rows (some index) := by
        simp [ExplicitKey]
      split at h
      · cases h
      · rename_i hrow
        cases h
        obtain ⟨value, hvalue, hnull⟩ := removeKey_ok hrow
        exact iff_of_true rfl (hcons.mpr (Or.inl ⟨value, hvalue, hnull.mp rfl⟩))
      · rename_i columns' row' hrow
        obtain ⟨value, hvalue, hnull⟩ := removeKey_ok hrow
        have hno : ¬ ∃ value, row[index]? = some value ∧ p.toUpperCase value ≠ "NULL" := by
          intro ⟨value', hvalue', hne⟩
          rw [hvalue] at hvalue'
          cases hvalue'
          cases hnull.mpr hne
        rw [hcons, or_iff_right hno]
        split at h
        · cases h
        · cases h
          exact ih ‹_›
        · cases h
          rw [← ih ‹_›]
          simp

theorem removeKeys_length {r : List String × List (List String)}
    (h : removeKeys p index columns rows = .ok (some r)) : r.2.length = rows.length := by
  induction rows generalizing columns r with
  | nil => cases h; rfl
  | cons row rows ih =>
      unfold removeKeys at h
      split at h
      · cases h
      · cases h
      · split at h
        · cases h
        · cases h
        · rename_i heq
          cases h
          simpa using ih heq

/-- What is left without the keys, unless the statement is to be left as it is. -/
theorem removed_ok {removed : Option (List String × List (List String))}
    (h : (match pkIndex with
      | none => Except.ok (some (columns, rows))
      | some pkIndex => removeKeys p pkIndex columns rows) = .ok removed) :
    (removed = none ↔ ExplicitKey p rows pkIndex)
      ∧ ∀ r, removed = some r → r.2.length = rows.length := by
  cases pkIndex with
  | none =>
      cases h
      refine ⟨by simp [ExplicitKey], ?_⟩
      rintro r ⟨⟩
      rfl
  | some index =>
      refine ⟨removeKeys_ok h, ?_⟩
      rintro r rfl
      exact removeKeys_length h

theorem addKeys_length {insert : List Row} {i : Nat} {r : List (List String)}
    (h : addKeys p insert i rows = .ok r) : r.length = rows.length := by
  induction rows generalizing i r with
  | nil => cases h; rfl
  | cons row rows ih =>
      unfold addKeys at h
      split at h
      · cases h
      · split at h
        · cases h
        · rename_i heq
          cases h
          simpa using ih heq

/-! ## The insert analyses -/

/-- The statement is left alone for its keys, or it is executed once more. -/
theorem ends_insertAnalyse : Ends (insertAnalyse p db sql columns rows pk pkIndex) s
    (fun r t => (r = none ∧ ExplicitKey p rows pkIndex ∧ t = s)
      ∨ ((∃ r', r = some r' ∧ r'.2.length = rows.length) ∧ ¬ ExplicitKey p rows pkIndex
        ∧ ∃ changes, t = s.write changes))
    (fun t => ∃ changes, t = s.write changes) := by
  have hself : ∃ changes, s = s.write changes := ⟨[], Session.write_nil.symm⟩
  unfold insertAnalyse
  refine Analysis.bind_ofExcept hself ?_
  intro removed hremoved
  obtain ⟨hiff, hlength⟩ := removed_ok hremoved
  cases removed with
  | none => exact Ends.of_pure (Or.inl ⟨rfl, hiff.mp rfl, rfl⟩)
  | some r =>
      refine Ends.bind_untouched Analysis.ends_insert hself ?_
      intro insert t ⟨changes, _, ht⟩
      refine Analysis.bind_ofExcept ⟨changes, ht⟩ ?_
      intro rows' hrows'
      have hno : ¬ ExplicitKey p rows pkIndex := by
        rw [← hiff]
        simp
      exact Ends.of_pure (Or.inr
        ⟨⟨_, rfl, (addKeys_length hrows').trans (hlength r rfl)⟩, hno, changes, ht⟩)

/-- What holds after an insert analysis: `left` says that it has left the statement alone. -/
def Analysed (p : Platform) (s : Session α) (rows : List (List String)) (pkIndex : Option Nat)
    (left : Bool) (t : Session α) : Prop :=
  (left = true ∧ ExplicitKey p rows pkIndex ∧ t = s)
    ∨ (left = false ∧ ¬ ExplicitKey p rows pkIndex ∧ ∃ changes, t = s.write changes)

/-- The statement has the rows for the first of the two analyses. -/
theorem ends_multiInsertAnalyse {exprList : List (List String)}
    (h : statement.itemsList = some (.multiExpressionList exprList)) :
    Ends (multiInsertAnalyse p db sql statement columns pk pkIndex) s
      (fun r t => Analysed p s exprList pkIndex r.1 t
        ∧ ∃ exprList, r.2.itemsList = some (.multiExpressionList exprList))
      (fun t => ∃ changes, t = s.write changes) := by
  unfold multiInsertAnalyse
  rw [h]
  refine Ends.bind ends_insertAnalyse ?_
  rintro r t (⟨rfl, hkey, ht⟩ | ⟨⟨r', rfl, _⟩, hkey, ht⟩)
  · exact Ends.of_pure ⟨Or.inl ⟨rfl, hkey, ht⟩, _, h⟩
  · exact Ends.of_pure ⟨Or.inr ⟨rfl, hkey, ht⟩, _, rfl⟩

/-- The statement has a row for the second one. -/
theorem ends_singleInsertAnalyse {expressions : List String}
    (h : statement.itemsList = some (.expressionList expressions)) :
    Ends (singleInsertAnalyse p db sql statement columns pk pkIndex) s
      (fun r t => Analysed p s [expressions] pkIndex r.1 t)
      (fun t => ∃ changes, t = s.write changes) := by
  unfold singleInsertAnalyse
  rw [h]
  refine Ends.bind ends_insertAnalyse ?_
  rintro r t (⟨rfl, hkey, ht⟩ | ⟨⟨⟨columns', rows'⟩, rfl, hlength⟩, hkey, ht⟩)
  · exact Ends.of_pure (Or.inl ⟨rfl, hkey, ht⟩)
  · obtain ⟨row, rfl⟩ := List.length_eq_one_iff.mp hlength
    exact Ends.of_pure (Or.inr ⟨rfl, hkey, ht⟩)

/-- An analysis that the statement has nothing for does nothing. -/
theorem ends_multiInsertAnalyse_other
    (h : ∀ exprList, statement.itemsList ≠ some (.multiExpressionList exprList)) :
    Ends (multiInsertAnalyse p db sql statement columns pk pkIndex) s
      (fun r t => r = (false, statement) ∧ t = s) (· = s) := by
  unfold multiInsertAnalyse
  split
  · exact absurd ‹_› (h _)
  · exact Ends.of_pure ⟨rfl, rfl⟩

theorem ends_singleInsertAnalyse_other
    (h : ∀ expressions, statement.itemsList ≠ some (.expressionList expressions)) :
    Ends (singleInsertAnalyse p db sql statement columns pk pkIndex) s
      (fun r t => r = (false, statement) ∧ t = s) (· = s) := by
  unfold singleInsertAnalyse
  split
  · exact absurd ‹_› (h _)
  · exact Ends.of_pure ⟨rfl, rfl⟩

/-! ## The analysis of an `INSERT` -/

/-- Nothing of the business has become durable, and nothing will on its own. -/
def Safe (s t : Session α) : Prop :=
  t.closed = s.closed ∧ (s.Clean → t.Clean ∧ t.durable = s.durable)

theorem Safe.refl : Safe s s := ⟨rfl, fun h => ⟨h, rfl⟩⟩

theorem Safe.setAutoCommit_false : Safe s (s.setAutoCommit false) :=
  ⟨Session.setAutoCommit_closed, fun h =>
    ⟨Session.clean_setAutoCommit h, Session.setAutoCommit_false_durable h⟩⟩

/-- The second execution comes behind the flag. -/
theorem Safe.write {changes : List α} : Safe s ((s.setAutoCommit false).write changes) := by
  refine ⟨by simp, fun h => ⟨Session.clean_write (Session.clean_setAutoCommit h), ?_⟩⟩
  rw [Session.write_durable ?_, Session.setAutoCommit_false_durable h]
  cases hc : s.closed with
  | true => exact Or.inr (Or.inl (by simpa using hc))
  | false => exact Or.inr (Or.inr (Session.setAutoCommit_autoCommit hc))

theorem Safe.rollback (h : Safe s t) : Safe s t.rollback :=
  ⟨by rw [Session.rollback_closed, h.1], fun hclean =>
    ⟨Session.clean_rollback (h.2 hclean).1, by rw [Session.rollback_durable, (h.2 hclean).2]⟩⟩

/-- After a rollback the flag can be given back. -/
theorem Safe.setAutoCommit {b : Bool} (h : Safe s t) : Safe s (t.rollback.setAutoCommit b) := by
  refine ⟨by simp [h.1], fun hclean => ?_⟩
  have hr := h.rollback.2 hclean
  refine ⟨Session.clean_setAutoCommit hr.1, ?_⟩
  cases hc : t.closed with
  | true =>
      have hsame : t.rollback.setAutoCommit b = t.rollback := by simp [Session.setAutoCommit, hc]
      rw [hsame, hr.2]
  | false => rw [Session.setAutoCommit_durable (Session.rollback_uncommitted hc), hr.2]

/-- The statement is executed once more, and that is rolled back with all that is there. -/
def Repeated (s t : Session α) : Prop :=
  ∃ changes, t = (((s.setAutoCommit false).write changes).rollback).setAutoCommit s.autoCommit

theorem Repeated.safe (h : Repeated s t) : Safe s t := by
  obtain ⟨changes, rfl⟩ := h
  exact Safe.write.setAutoCommit

/-- How the analysis of an `INSERT` that returns has left the session. -/
def Inserted (p : Platform) (tableList : TableList) (statement : Insert) (s t : Session α) :
    Prop :=
  (LeftAlone p tableList statement ∧ t = s.setAutoCommit false)
    ∨ (¬ LeftAlone p tableList statement ∧ Repeated s t)

/-- Once the filters have agreed the keys decide. -/
theorem leftAlone_iff
    (hfilter : MysqlInsertAnalyseStrategy.doFilter p tableList statement = .ok true)
    (hpk : TableList.getPrimaryKey p tableList statement.table = .ok pk)
    (hcolumns : statement.columns = some columns) :
    LeftAlone p tableList statement
      ↔ ExplicitKey p (rowsOf statement) (MysqlInsertAnalyseStrategy.pkIndex p columns pk) := by
  constructor
  · rintro (hno | ⟨pk', columns', hpk', hcolumns', hkey⟩)
    · rw [hfilter] at hno
      cases hno
    · rw [hpk] at hpk'
      rw [hcolumns] at hcolumns'
      cases hpk'
      cases hcolumns'
      exact hkey
  · exact fun hkey => Or.inr ⟨pk, columns, hpk, hcolumns, hkey⟩

/-- The second filter wants items. -/
theorem doFilter_items
    (h : MysqlInsertAnalyseStrategy.doFilter p tableList statement = .ok true) :
    statement.itemsList ≠ none := by
  intro hitems
  unfold MysqlInsertAnalyseStrategy.doFilter ItemsListFilter.doFilter at h
  rw [hitems] at h
  cases hpk : CheckTableContainsPkFilter.doFilter p tableList statement.table with
  | error e =>
      rw [hpk] at h
      cases h
  | ok filtered =>
      rw [hpk] at h
      cases filtered <;> cases h

/-- The end of the longest path. -/
theorem ends_giveBack {changes : List α} {newSql : String} :
    Ends (do
      Analysis.rollback db
      Analysis.setAutoCommit db s.autoCommit
      pure newSql) ((s.setAutoCommit false).write changes) (fun _ t => Repeated s t) (Safe s) := by
  refine Ends.bind_untouched Analysis.ends_rollback Safe.write ?_
  intro _ t ht
  rw [ht]
  refine Analysis.bind_setAutoCommit Safe.write.rollback ?_
  exact Ends.of_pure ⟨changes, rfl⟩

theorem ends_insert : Ends (MysqlInsertAnalyseStrategy.analyse p db tableList sql statement) s
    (fun _ t => Inserted p tableList statement s t) (Safe s) := by
  unfold MysqlInsertAnalyseStrategy.analyse
  refine Ends.bind_get ?_
  refine Analysis.bind_setAutoCommit Safe.refl ?_
  refine Analysis.bind_ofExcept Safe.setAutoCommit_false ?_
  intro filtered hfilter
  cases filtered with
  | false => exact Ends.of_pure (Or.inl ⟨Or.inl hfilter, rfl⟩)
  | true =>
  refine Analysis.bind_ofExcept Safe.setAutoCommit_false ?_
  intro pk hpk
  refine Analysis.bind_orThrow Safe.setAutoCommit_false ?_
  intro columns hcolumns
  have hleft := leftAlone_iff hfilter hpk hcolumns
  -- the longest path, if the statement is not left alone
  have hback : ∀ changes (newSql : String), ¬ LeftAlone p tableList statement →
      Ends (do
        Analysis.rollback db
        Analysis.setAutoCommit db s.autoCommit
        pure newSql) ((s.setAutoCommit false).write changes)
        (fun _ t => Inserted p tableList statement s t) (Safe s) :=
    fun changes newSql hno => ends_giveBack.mono (fun _ _ h => Or.inr ⟨hno, h⟩) fun _ h => h
  have hsafe : ∀ t, (∃ changes, t = (s.setAutoCommit false).write changes) → Safe s t := by
    rintro t ⟨changes, rfl⟩
    exact Safe.write
  have hitems := doFilter_items hfilter
  unfold rowsOf at hleft
  cases hlist : statement.itemsList with
  | none => exact absurd hlist hitems
  | some itemsList =>
  rw [hlist] at hleft
  cases itemsList with
  | multiExpressionList exprList =>
      refine Ends.bind ((ends_multiInsertAnalyse hlist).mono (fun _ _ h => h) hsafe) ?_
      rintro ⟨left, statement'⟩ t ⟨⟨rfl, hkey, rfl⟩ | ⟨rfl, hkey, changes, rfl⟩, _, hlist'⟩
      · exact Ends.of_pure (Or.inl ⟨hleft.mpr hkey, rfl⟩)
      · dsimp only at hlist'
        refine Ends.bind_untouched (ends_singleInsertAnalyse_other (by simp [hlist'])) Safe.write ?_
        rintro _ _ ⟨rfl, rfl⟩
        exact hback changes _ (mt hleft.mp hkey)
  | expressionList expressions =>
      refine Ends.bind_untouched (ends_multiInsertAnalyse_other (by simp [hlist]))
        Safe.setAutoCommit_false ?_
      rintro _ _ ⟨rfl, rfl⟩
      refine Ends.bind ((ends_singleInsertAnalyse hlist).mono (fun _ _ h => h) hsafe) ?_
      rintro ⟨left, statement'⟩ t (⟨rfl, hkey, rfl⟩ | ⟨rfl, hkey, changes, rfl⟩)
      · exact Ends.of_pure (Or.inl ⟨hleft.mpr hkey, rfl⟩)
      · exact hback changes _ (mt hleft.mp hkey)
  | other =>
      refine Ends.bind_untouched (ends_multiInsertAnalyse_other (by simp [hlist]))
        Safe.setAutoCommit_false ?_
      rintro _ _ ⟨rfl, rfl⟩
      refine Ends.bind_untouched (ends_singleInsertAnalyse_other (by simp [hlist]))
        Safe.setAutoCommit_false ?_
      rintro _ _ ⟨rfl, rfl⟩
      have hno : ¬ LeftAlone p tableList statement := by
        rw [hleft]
        simp [ExplicitKey]
      have hend := hback [] (p.print statement) hno
      rw [Session.write_nil] at hend
      exact hend

/-! ## The analysis of any statement -/

variable {sqlType : String} {analyseHandlers : List SqlSqlAnalyseHandler}
  {newLog : String → Option TransactionLog} {transactionInfo : Option TransactionInfo}
  {jdbcTransaction : Option JdbcTransaction}

/-- The text is parsed as an `INSERT`, and there is a handler for that. -/
def GetsHandler (p : Platform) (analyseHandlers : List SqlSqlAnalyseHandler) (sql : String)
    (statement : Insert) : Prop :=
  p.parse sql = some (.insert statement) ∧ .insert ∈ analyseHandlers

/-- The analysis has come to an `INSERT`, or it has left the session as it was. -/
def After (reached : Insert → Prop) (p : Platform) (tableList : TableList)
    (s t : Session α) : Prop :=
  (∃ statement, reached statement ∧ Inserted p tableList statement s t)
    ∨ ((∀ statement, ¬ reached statement) ∧ t = s)

/-- The handler for an `INSERT` is chosen if it is there, and only if it is. -/
theorem getInvokeStrategy_insert :
    AnalyseStrategryFactory.getInvokeStrategy analyseHandlers (.insert statement) = none
      ↔ .insert ∉ analyseHandlers := by
  unfold AnalyseStrategryFactory.getInvokeStrategy
  rw [List.find?_eq_none]
  constructor
  · exact fun h hmem => h _ hmem rfl
  · intro hno handler hmem htakes
    cases handler with
    | insert => exact hno hmem
    | update => cases htakes
    | delete => cases htakes

theorem Inserted.safe (h : Inserted p tableList statement s t) : Safe s t := by
  rcases h with ⟨_, rfl⟩ | ⟨_, h⟩
  · exact Safe.setAutoCommit_false
  · exact h.safe

theorem After.safe {reached : Insert → Prop} (h : After reached p tableList s t) : Safe s t := by
  rcases h with ⟨statement, _, h⟩ | ⟨_, rfl⟩
  · exact h.safe
  · exact Safe.refl

theorem ends_analyse : Ends (MysqlSqlAnalyse.analyse p db analyseHandlers tableList sql) s
    (fun _ t => After (GetsHandler p analyseHandlers sql) p tableList s t) (Safe s) := by
  unfold MysqlSqlAnalyse.analyse
  refine Analysis.bind_orThrow Safe.refl ?_
  intro stmt hparse
  have hparsed : ∀ statement, GetsHandler p analyseHandlers sql statement →
      stmt = .insert statement ∧ .insert ∈ analyseHandlers := by
    intro statement h
    rw [h.1] at hparse
    cases hparse
    exact ⟨rfl, h.2⟩
  have hchange : ∀ (change : Change), (∀ statement, stmt ≠ .insert statement) →
      Ends (change.analyse p db tableList sql) s
        (fun _ t => After (GetsHandler p analyseHandlers sql) p tableList s t) (Safe s) :=
    fun change hne => (keeps_change (K := (· = s)) s rfl).mono
      (fun _ t ht => Or.inr ⟨fun statement h => hne statement (hparsed statement h).1, ht⟩)
      fun t h => h ▸ Safe.refl
  cases hfind : AnalyseStrategryFactory.getInvokeStrategy analyseHandlers stmt with
  | none =>
      refine Ends.of_pure (Or.inr ⟨fun statement h => ?_, rfl⟩)
      obtain ⟨rfl, hmem⟩ := hparsed statement h
      exact getInvokeStrategy_insert.mp hfind hmem
  | some handler =>
  cases stmt with
  | insert statement =>
      have hmem : .insert ∈ analyseHandlers := by
        by_contra hno
        rw [getInvokeStrategy_insert.mpr hno] at hfind
        cases hfind
      exact ends_insert.mono (fun _ t h => Or.inl ⟨statement, ⟨hparse, hmem⟩, h⟩) fun _ h => h
  | update change => exact hchange change (fun statement h => by cases h)
  | delete change => exact hchange change (fun statement h => by cases h)
  | other =>
      refine Ends.of_pure (Or.inr ⟨fun statement h => ?_, rfl⟩)
      cases (hparsed statement h).1

/-- The analysis comes to the `INSERT` that the text is. -/
def Reached (p : Platform) (sqlType : String) (analyseHandlers : List SqlSqlAnalyseHandler)
    (transactionInfo : Option TransactionInfo) (sql : String) (statement : Insert) : Prop :=
  (∃ info, transactionInfo = some info ∧ TransactionJdbcEventListener.hasEvent info = true)
    ∧ (sqlType = MysqlSqlAnalyse.sqlType ∧ MysqlSqlAnalyse.preAnalyse p sql = true)
    ∧ GetsHandler p analyseHandlers sql statement

theorem ends_sqlAnalyse {info : TransactionInfo}
    (hevent : TransactionJdbcEventListener.hasEvent info = true) :
    Ends (SqlAnalyseStrategy.analyse p db sqlType analyseHandlers tableList sql) s
      (fun _ t => After (Reached p sqlType analyseHandlers (some info) sql) p tableList s t)
      (Safe s) := by
  unfold SqlAnalyseStrategy.analyse
  split
  · rename_i hchosen
    simp only [Bool.and_eq_true, decide_eq_true_eq] at hchosen
    have hreached : ∀ statement, GetsHandler p analyseHandlers sql statement
        ↔ Reached p sqlType analyseHandlers (some info) sql statement :=
      fun statement => ⟨fun h => ⟨⟨info, rfl, hevent⟩, hchosen, h⟩, fun h => h.2.2⟩
    refine Ends.bind ends_analyse ?_
    rintro newSql t (⟨statement, h, hinserted⟩ | ⟨hno, ht⟩)
    · exact Ends.of_pure (Or.inl ⟨statement, (hreached statement).mp h, hinserted⟩)
    · refine Ends.of_pure (Or.inr ⟨fun statement h => ?_, ht⟩)
      exact hno statement ((hreached statement).mpr h)
  · rename_i hchosen
    simp only [Bool.and_eq_true, decide_eq_true_eq] at hchosen
    exact Ends.of_pure (Or.inr ⟨fun statement h => hchosen h.2.1, rfl⟩)

theorem ends_onAfterAnyExecute :
    Ends (TransactionJdbcEventListener.onAfterAnyExecute p db sqlType analyseHandlers tableList
      newLog transactionInfo jdbcTransaction sql) s
      (fun _ t => After (Reached p sqlType analyseHandlers transactionInfo sql) p tableList s t)
      (Safe s) := by
  unfold TransactionJdbcEventListener.onAfterAnyExecute
  refine Analysis.bind_orThrow Safe.refl ?_
  intro info hinfo
  rw [hinfo]
  refine Analysis.bind_orThrow Safe.refl ?_
  intro _ _
  split
  · rename_i hevent
    unfold LcnAfterTransactionJdbcEvent.execute
    refine Ends.bind (ends_sqlAnalyse hevent) ?_
    intro ⟨newSql, logged⟩ t hafter
    cases logged with
    | false => exact Ends.of_pure hafter
    | true =>
    refine Analysis.bind_orThrow hafter.safe ?_
    intro transactionLog _
    refine Analysis.bind_orThrow hafter.safe ?_
    intro jdbcTransaction _
    exact Ends.of_pure hafter
  · rename_i hevent
    refine Ends.of_pure (Or.inr ⟨?_, rfl⟩)
    intro statement ⟨⟨info', hinfo', hevent'⟩, _⟩
    cases hinfo'
    exact hevent hevent'

/-! ## What becomes of the business transaction -/

/-- What the business has not committed and the flag are as they were. -/
def BusinessKept (s t : Session α) : Prop :=
  t.uncommitted = s.uncommitted ∧ t.autoCommit = s.autoCommit

/-- The paths that take the flag away find it taken away; the one that rolls back finds nothing. -/
def Harmless (p : Platform) (tableList : TableList) (s : Session α) (statement : Insert) : Prop :=
  s.closed = false → (LeftAlone p tableList statement → s.autoCommit = false)
    ∧ (¬ LeftAlone p tableList statement → s.uncommitted = [])

theorem Inserted.harmless (h : Inserted p tableList statement s t) :
    BusinessKept s t ↔ Harmless p tableList s statement := by
  unfold BusinessKept Harmless
  cases hclosed : s.closed with
  | true =>
      have hself : t = s := by
        rcases h with ⟨_, rfl⟩ | ⟨_, changes, rfl⟩ <;>
          simp [Session.setAutoCommit, Session.write, Session.rollback, hclosed]
      rw [hself]
      exact iff_of_true ⟨rfl, rfl⟩ fun h => by cases h
  | false =>
  rw [forall_prop_of_true rfl]
  rcases h with ⟨hleft, rfl⟩ | ⟨hno, changes, rfl⟩
  · rw [Session.setAutoCommit_autoCommit hclosed]
    constructor
    · exact fun h => ⟨fun _ => h.2.symm, fun hno => absurd hleft hno⟩
    · intro h
      have hauto := h.1 hleft
      have hself := Session.setAutoCommit_self (s := s)
      rw [hauto] at hself
      exact ⟨by rw [hself], hauto.symm⟩
  · have hopen : ((s.setAutoCommit false).write changes).closed = false := by simpa using hclosed
    have hnone := Session.setAutoCommit_uncommitted (b := s.autoCommit)
      (Session.rollback_uncommitted hopen)
    rw [hnone, Session.setAutoCommit_autoCommit (by simpa using hclosed)]
    exact ⟨fun h => ⟨fun hleft => absurd hleft hno, fun _ => h.1.symm⟩,
      fun h => ⟨(h.2 hno).symm, rfl⟩⟩

theorem undisturbed_iff {r : Option JdbcTransaction}
    (h : TransactionJdbcEventListener.onAfterAnyExecute p db sqlType analyseHandlers tableList
      newLog transactionInfo jdbcTransaction sql s = .ok r t) :
    BusinessKept s t
      ↔ ∀ statement, Reached p sqlType analyseHandlers transactionInfo sql statement →
          Harmless p tableList s statement := by
  rcases ends_onAfterAnyExecute.of_ok h with ⟨statement, hreached, hinserted⟩ | ⟨hno, rfl⟩
  · rw [hinserted.harmless]
    constructor
    · intro h statement' hreached'
      -- the text is one statement
      have hsame := hreached.2.2.1.symm.trans hreached'.2.2.1
      cases hsame
      exact h
    · exact fun h => h statement hreached
  · exact iff_of_true ⟨rfl, rfl⟩ fun statement h => absurd h (hno statement)

/-- A platform on which everything is an `INSERT` with that value for the key. -/
def inserting (key : String) : Platform where
  toUpperCase := id
  equalsIgnoreCase := (· == ·)
  parse _ := some (.insert
    { table := { name := "account" }
      columns := some ["id", "balance"]
      itemsList := some (.expressionList [key, "100"]) })
  print _ := "INSERT INTO account (balance, id) VALUES (100, '1')"
  stringValue value := "'" ++ value ++ "'"

/-- A database in which each execution adds a row. -/
def adding : Database Nat where
  insert s _ := some ([s.uncommitted.length], [fun _ => some (.long 1)])
  query _ _ := some []
  refuses _ := false

/-- What is left of a business that has put one row into a table, once that is analysed. -/
def analysed (key : String) : EStateM.Result Thrown (Session Nat) (Option JdbcTransaction) :=
  TransactionJdbcEventListener.onAfterAnyExecute (inserting key) adding "mysql" [.insert]
    (some [{ table := "account", columnInfos := [], primaryKeys := ["id"] }])
    (fun sql => some { id := 1, groupId := some "g", sql, time := 0, flag := 0 })
    (some { groupId := some "g", transactionType := some "lcn", transactionState := .CREATE })
    (some { connection := 0 }) "INSERT INTO account VALUES (...)"
    { autoCommit := false, uncommitted := [0] }

/-- A row with a key of its own stays what the business has made of it. -/
theorem undisturbed_explicit : ∃ r t, analysed "5" = .ok r t
    ∧ BusinessKept { autoCommit := false, uncommitted := [0] } t := by
  have hsame : ∃ r, analysed "5" = .ok r { autoCommit := false, uncommitted := [0] } := ⟨_, rfl⟩
  obtain ⟨r, hr⟩ := hsame
  refine ⟨r, _, hr, (undisturbed_iff hr).mpr ?_⟩
  intro statement ⟨_, _, hparse, _⟩
  cases hparse
  have hleft : LeftAlone (inserting "5")
      (some [{ table := "account", columnInfos := [], primaryKeys := ["id"] }])
      { table := { name := "account" }
        columns := some ["id", "balance"]
        itemsList := some (.expressionList ["5", "100"]) } :=
    Or.inr ⟨"id", ["id", "balance"], rfl, rfl, 0, rfl, ["5", "100"], List.mem_singleton_self _,
      "5", rfl, by decide⟩
  exact fun _ => ⟨fun _ => rfl, fun hno => absurd hleft hno⟩

/-- A row with a key to be generated is gone. -/
theorem not_undisturbed : ¬ ∀ (p : Platform) (db : Database Nat) (sqlType : String)
    (analyseHandlers : List SqlSqlAnalyseHandler) (tableList : TableList)
    (newLog : String → Option TransactionLog) (transactionInfo : Option TransactionInfo)
    (jdbcTransaction : Option JdbcTransaction) (sql : String) (s t : Session Nat)
    (r : Option JdbcTransaction), s.closed = false →
    TransactionJdbcEventListener.onAfterAnyExecute p db sqlType analyseHandlers tableList newLog
      transactionInfo jdbcTransaction sql s = .ok r t → BusinessKept s t := by
  intro h
  have hgone : ∃ r, analysed "NULL" = .ok r { autoCommit := false, uncommitted := [] } :=
    ⟨_, rfl⟩
  obtain ⟨r, hr⟩ := hgone
  have hsame := (h _ _ _ _ _ _ _ _ _ _ _ _ rfl hr).1
  cases hsame

end TxLcn.Proof
