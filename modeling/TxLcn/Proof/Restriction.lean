import TxLcn.Lib.SqlStatement
import TxLcn.Proof.AffectedRows
import TxLcn.Proof.LiteralKeys

/-!
# What the spliced list restricts

The comparison of the key with the list is written behind the statement. It
belongs to what stands last there: to the part of the condition behind the last
`OR`, or to an `ORDER BY` or a `LIMIT`.

`restricts_iff` says when the statement is restricted to the rows with these keys.
-/

namespace TxLcn.Proof

open TxLcn.Lib TxLcn.Tc MysqlSqlDetailAnalyse

/-- What the database has to say about the rows of the table. -/
structure TableRows (ρ : Type) where
  key : ρ → Literal
  /-- Of a comparison that is not one of the key with a list. -/
  compare : ρ → List Token → Option Bool

/-- The list that a comparison is made with, if it is one of that column with a list. -/
def listOf (column comparison : List Token) : Option (List Literal) :=
  let list := (comparison.drop (column.length + 2)).dropLast
  if comparison = membership column list then literalList.run .expecting list else none

variable {ρ : Type} (rows : TableRows ρ) (column : List Token) (row : ρ)

/-- The truth of a comparison; `column` is that of the key, which is never `NULL`. -/
def TableRows.holds (comparison : List Token) : Option Bool :=
  match listOf column comparison with
  | some list => some (decide (rows.key row ∈ list))
  | none => rows.compare row comparison

/--
The text is a statement like `st`, but for the condition: it holds for the rows for
which that of `st` holds and whose key is one of `keys`.
-/
def Restricts (st : SqlStatement) (sql : Except Thrown String) (keys : List Literal) : Prop :=
  ∃ text st', sql = .ok text ∧ sqlStatement text.toList = some st'
    ∧ st'.head = st.head ∧ st'.tail = st.tail
    ∧ ∀ row, st'.condition.eval (rows.holds column row) = some true
      ↔ st.condition.eval (rows.holds column row) = some true ∧ rows.key row ∈ keys

variable {rows column row} {sqlAnalyseInfo : SqlAnalyseInfo} {query : List Row}
  {keys : List Literal} {sql : String} {st : SqlStatement} {list : List Token}

theorem listOf_membership :
    listOf column (membership column list) = literalList.run .expecting list := by
  have hlist : ((membership column list).drop (column.length + 2)).dropLast = list := by
    unfold membership
    rw [List.drop_append]
    simp
  unfold listOf
  dsimp only
  rw [hlist]
  exact if_pos rfl

/-! ## The column -/

/-- A name that is written as a word or between back quotes. -/
inductive PlainName (name : String) : Prop where
  | word (chars : ∀ c ∈ name.toList, SqlText.isWordChar c = true)
      (ordinary : Ordinary (.word name.toList)) (ne_empty : name.toList ≠ [])
  | quoted (text : List Char) (chars : Quote.back.char ∉ text)
      (written : name.toList = Quote.back.char :: (text ++ [Quote.back.char]))

/-- The token that such a name is read as. -/
def nameToken (name : String) : Token :=
  if name.toList.head? = some Quote.back.char then .quoted .back name.toList.tail.dropLast
  else .word name.toList

theorem separates_dot : SqlText.Separates '.' where
  word := by decide
  quote quote := by cases quote <;> decide
  symbol c' := by simp [SqlText.isRefused]
  dash := by decide

/-- The column that the analysis selects. -/
def columnOf (table : Table) (primaryKey : String) : List Token :=
  match table.alias with
  | some «alias» => [nameToken «alias».name, .symbol '.', nameToken primaryKey]
  | none => [nameToken primaryKey]

theorem PlainName.isName {name : String} (h : PlainName name) :
    tokens name.toList = some [nameToken name] ∧ IsName (nameToken name) := by
  unfold nameToken
  cases h with
  | word chars ordinary ne_empty =>
      have hword : name.toList.head? ≠ some Quote.back.char := by
        intro hhead
        obtain ⟨rest, hlist⟩ := List.head?_eq_some_iff.mp hhead
        exact absurd (chars Quote.back.char (by rw [hlist]; exact List.mem_cons_self)) (by decide)
      rw [if_neg hword]
      exact ⟨SqlText.tokens_word ne_empty chars, .word ordinary⟩
  | quoted text chars written =>
      rw [written, List.head?_cons, if_pos rfl, List.tail_cons, List.dropLast_concat]
      exact ⟨SqlText.tokens_back chars, .quoted text⟩

/-- It begins with nothing that the dot before it would mean something with. -/
theorem PlainName.first {name : String} (h : PlainName name) :
    ∃ c rest, name.toList = c :: rest ∧ c ≠ '-' := by
  cases h with
  | word chars ordinary ne_empty =>
      obtain ⟨c, rest, hlist⟩ := List.exists_cons_of_ne_nil ne_empty
      have hword := chars c (by rw [hlist]; exact List.mem_cons_self)
      refine ⟨c, rest, hlist, ?_⟩
      rintro rfl
      cases hword
  | quoted text chars written => exact ⟨_, _, written, by decide⟩

/-- The names as they are, with a dot in between, are read as that column. -/
theorem select_reads {table : Table} {primaryKey : String} (hkey : PlainName primaryKey)
    (halias : ∀ «alias» ∈ table.alias, PlainName «alias».name) :
    tokens (selectOf table primaryKey).toList = some (columnOf table primaryKey)
      ∧ IsColumn (columnOf table primaryKey) := by
  obtain ⟨hread, hname⟩ := hkey.isName
  unfold selectOf columnOf
  cases ht : table.alias with
  | none => exact ⟨hread, .name hname⟩
  | some «alias» =>
      obtain ⟨htable, hqualifier⟩ := (halias «alias» (by rw [ht]; rfl)).isName
      refine ⟨?_, .qualified hqualifier hname⟩
      obtain ⟨c, rest, hchars, hdash⟩ := hkey.first
      have hdot : tokens ('.' :: primaryKey.toList)
          = some [.symbol '.', nameToken primaryKey] := by
        rw [hchars, SqlText.tokens_symbol rfl (by simp [SqlText.isRefused]) hdash, ← hchars, hread]
        rfl
      have hselect : («alias».name ++ "." ++ primaryKey).toList
          = «alias».name.toList ++ '.' :: primaryKey.toList := by
        simp
      dsimp only
      rw [hselect, SqlText.tokens_append separates_dot htable, hdot]
      rfl

/-! ## The statement -/

/-- The spliced text is the statement with the comparison behind it. -/
theorem spliced_restricted {table : Table} (hst : sqlStatement sql.toList = some st)
    (hselect : sqlAnalyseInfo.select = selectOf table sqlAnalyseInfo.primaryKey)
    (hkey : PlainName sqlAnalyseInfo.primaryKey)
    (halias : ∀ «alias» ∈ table.alias, PlainName «alias».name)
    (hkeys : query.map (keyOf sqlAnalyseInfo) = keys.map some) (hne : keys ≠ [])
    (hplain : ∀ key ∈ keys, key.Plain) :
    ∃ text list, splicingNewSql sql sqlAnalyseInfo query = .ok text
      ∧ sqlStatement text.toList = some
        (st.restricted (membership (columnOf table sqlAnalyseInfo.primaryKey) list))
      ∧ literalList.run .expecting list = some keys := by
  obtain ⟨list, hread, hlist⟩ := Option.bind_eq_some_iff.mp ((expecting_listed hne).mpr hplain)
  refine ⟨_, list, splicingNewSql_listed sql hkeys, ?_, hlist⟩
  obtain ⟨htokens, hcolumn⟩ := select_reads hkey halias
  have hrestricted := sqlStatement_restricted hst htokens hcolumn hread (not_parenthesis hlist)
  rw [hselect]
  simpa only [String.toList_append, String.toList_ofList] using hrestricted

/--
**The statement is restricted to the rows with these keys exactly when** neither an
`ORDER BY` nor a `LIMIT` follows and no row that has another key meets what stands
before the last `OR` of its condition.
-/
theorem restricts_iff {table : Table} (hst : sqlStatement sql.toList = some st)
    (hselect : sqlAnalyseInfo.select = selectOf table sqlAnalyseInfo.primaryKey)
    (hkey : PlainName sqlAnalyseInfo.primaryKey)
    (halias : ∀ «alias» ∈ table.alias, PlainName «alias».name)
    (hkeys : query.map (keyOf sqlAnalyseInfo) = keys.map some) (hne : keys ≠ [])
    (hplain : ∀ key ∈ keys, key.Plain) (rows : TableRows ρ) :
    Restricts rows (columnOf table sqlAnalyseInfo.primaryKey) st
        (splicingNewSql sql sqlAnalyseInfo query) keys
      ↔ st.tail = [] ∧ ∀ a b, st.condition = .or a b → ∀ row,
        a.eval (rows.holds (columnOf table sqlAnalyseInfo.primaryKey) row) = some true →
          rows.key row ∈ keys := by
  obtain ⟨text, list, hspliced, hstatement, hlist⟩ :=
    spliced_restricted hst hselect hkey halias hkeys hne hplain
  generalize columnOf table sqlAnalyseInfo.primaryKey = column at hstatement ⊢
  have hmember : ∀ row, (Condition.comparison (membership column list)).eval
      (rows.holds column row) = some true ↔ rows.key row ∈ keys := by
    intro row
    rw [Condition.eval, TableRows.holds, listOf_membership, hlist]
    simp
  have hcondition := Condition.eval_followedBy (rows.holds column) st.condition
    (.comparison (membership column list))
  simp only [hmember] at hcondition
  unfold SqlStatement.restricted at hstatement
  by_cases htail : st.tail = []
  · rw [if_pos htail] at hstatement
    rw [and_iff_right htail, ← hcondition]
    constructor
    · rintro ⟨text', st', hspliced', hstatement', _, _, hholds⟩
      cases hspliced.symm.trans hspliced'
      cases hstatement.symm.trans hstatement'
      exact hholds
    · intro hholds
      exact ⟨text, _, hspliced, hstatement, rfl, rfl, hholds⟩
  · rw [if_neg htail] at hstatement
    refine iff_of_false ?_ fun h => htail h.1
    rintro ⟨text', st', hspliced', hstatement', _, hsame, _⟩
    cases hspliced.symm.trans hspliced'
    cases hstatement.symm.trans hstatement'
    exact absurd (List.append_right_eq_self.mp hsame) (List.cons_ne_nil _ _)

/-- One row, whose key is `k2`, and every other comparison holds for it. -/
def oneRow : TableRows Unit where
  key _ := .string "k2".toList
  compare _ _ := some true

/-- A table without an alias. -/
def plainTable : Table := { name := "t" }

theorem plainName_id : PlainName varcharKey.primaryKey :=
  .word (List.all_eq_true.mp (by decide)) ⟨by decide, by decide, by decide⟩ (by decide)

theorem plain_k1 : (Literal.string "k1".toList).Plain := rfl

/-- A condition without `OR`. -/
def conjunction : SqlStatement where
  head := [.word "delete".toList, .word "from".toList, .word "t".toList]
  condition := .and (.not (.comparison [.word ['a'], .symbol '=', .word ['1']]))
    (.comparison [.word ['b'], .symbol '>', .word ['2']])
  tail := []

theorem restricts_conjunction : Restricts oneRow [.word "id".toList] conjunction
    (splicingNewSql "delete from t where NOT a = 1 AND b > 2" varcharKey [rowWith "k1"])
    [.string "k1".toList] := by
  have hst : sqlStatement "delete from t where NOT a = 1 AND b > 2".toList = some conjunction := by
    decide
  have hplain : ∀ key ∈ [Literal.string "k1".toList], key.Plain :=
    List.forall_mem_singleton.mpr plain_k1
  refine (restricts_iff hst (rfl : _ = selectOf plainTable _) plainName_id nofun rfl (by decide)
    hplain oneRow).mpr ?_
  refine ⟨rfl, fun a b hor => ?_⟩
  cases hor

/-- A condition with `OR`. -/
def disjunction : SqlStatement where
  head := ["update", "t", "set", "a"].map (fun word => .word word.toList)
    ++ [.symbol '=', .word ['1']]
  condition := .or (.comparison [.word "id".toList, .symbol '=', .quoted .single "k2".toList])
    (.comparison [.word ['b'], .symbol '=', .word ['2']])
  tail := []

/-- What stands before the last `OR` is not restricted. -/
theorem not_restricts : ¬ ∀ sql st, sqlStatement sql.toList = some st →
    Restricts oneRow [.word "id".toList] st (splicingNewSql sql varcharKey [rowWith "k1"])
      [.string "k1".toList] := by
  intro h
  have hst : sqlStatement "update t set a = 1 where id = 'k2' or b = 2".toList
      = some disjunction := by decide
  have hkeys : [rowWith "k1"].map (keyOf varcharKey) = [Literal.string "k1".toList].map some := rfl
  obtain ⟨text, st', hspliced, hst', _, _, hholds⟩ := h _ _ hst
  obtain ⟨text', list, hspliced', hst'', _⟩ := spliced_restricted hst
    (rfl : _ = selectOf plainTable _) plainName_id nofun hkeys (by decide)
    (List.forall_mem_singleton.mpr plain_k1)
  cases hspliced.symm.trans hspliced'
  cases hst'.symm.trans hst''
  -- the row meets the first comparison, and so the new condition
  have hfirst : (Condition.comparison
      [.word "id".toList, .symbol '=', .quoted .single "k2".toList]).eval
        (oneRow.holds [.word "id".toList] ()) = some true := by decide
  exact absurd ((hholds ()).mp (Condition.eval_or.mpr (Or.inl hfirst))).2 (by decide)

end TxLcn.Proof
