import Std.Data.String.ToInt
import Mathlib.Data.List.Forall2
import TxLcn.Tc.LogExecutor
import TxLcn.Tc.SqlAnalyse

/-!
# Keys in an `IN` list

The keys of the rows in question are written behind a statement. `inList_inj`
says that the text tells the keys apart if they are numbers. Strings are put
between quotes as they are, so theirs need not.
-/

namespace TxLcn.Proof

open TxLcn.Tc MysqlSqlDetailAnalyse

/-- The keys of a column as they are written into an `IN` list. -/
def inList (primaryKeyType : JDBCType) (keys : List SqlValue) : Except Thrown String :=
  (keys.mapM fun key => splicedKey primaryKeyType (some key)).map (" , ".intercalate ·)

/-- The types whose keys are written as numbers. -/
def Numeric (primaryKeyType : JDBCType) : Prop :=
  primaryKeyType ∈ [JDBCType.INTEGER, .SMALLINT, .TINYINT, .BIGINT]

variable {primaryKeyType : JDBCType} {key key' : SqlValue} {keys keys' : List SqlValue}
  {text list : String}

/-! ## One key after the other -/

theorem inList_singleton :
    inList primaryKeyType [key] = splicedKey primaryKeyType (some key) := by
  unfold inList
  rw [List.mapM_cons]
  cases splicedKey primaryKeyType (some key) with
  | error e => rfl
  | ok text => rfl

theorem inList_cons_cons : inList primaryKeyType (key :: key' :: keys)
    = (do
      let text ← splicedKey primaryKeyType (some key)
      let list ← inList primaryKeyType (key' :: keys)
      .ok (text ++ " , " ++ list)) := by
  unfold inList
  simp only [List.mapM_cons]
  cases splicedKey primaryKeyType (some key) with
  | error e => rfl
  | ok text =>
  cases splicedKey primaryKeyType (some key') with
  | error e => rfl
  | ok text' =>
  cases keys.mapM fun key => splicedKey primaryKeyType (some key) with
  | error e => rfl
  | ok texts =>
      refine congrArg Except.ok ?_
      exact String.intercalate_cons_cons

/-- The keys are spliced as they come. -/
theorem splicedKeys_eq {sqlAnalyseInfo : SqlAnalyseInfo} {rows : List Row} {keys : List SqlValue}
    (h : rows.map (fun row => row sqlAnalyseInfo.primaryKey) = keys.map some) :
    splicedKeys sqlAnalyseInfo rows = inList sqlAnalyseInfo.primaryKeyType keys := by
  induction rows generalizing keys with
  | nil =>
      obtain rfl := List.map_eq_nil_iff.mp h.symm
      rfl
  | cons row rows ih =>
  cases keys with
  | nil => cases h
  | cons key keys =>
  rw [List.map_cons, List.map_cons] at h
  obtain ⟨hrow, hrows⟩ := List.cons.inj h
  cases rows with
  | nil =>
      obtain rfl := List.map_eq_nil_iff.mp hrows.symm
      rw [splicedKeys, hrow, inList_singleton]
  | cons row' rows =>
  cases keys with
  | nil => cases hrows
  | cons key' keys =>
      rw [splicedKeys, hrow, ih hrows, inList_cons_cons]
      simp

/-- The keys are written one by one. -/
theorem mapM_ok {β : Type} {f : SqlValue → Except Thrown β} {texts : List β}
    (h : keys.mapM f = .ok texts) : List.Forall₂ (fun key text => f key = .ok text) keys texts := by
  induction keys generalizing texts with
  | nil =>
      cases h
      exact .nil
  | cons key keys ih =>
      rw [List.mapM_cons] at h
      cases hkey : f key with
      | error e =>
          rw [hkey] at h
          cases h
      | ok text =>
      cases hkeys : keys.mapM f with
      | error e =>
          rw [hkey, hkeys] at h
          cases h
      | ok texts' =>
          rw [hkey, hkeys] at h
          cases h
          exact .cons hkey (ih hkeys)

theorem inList_ok (h : inList primaryKeyType keys = .ok list) : ∃ texts,
    List.Forall₂ (fun key text => splicedKey primaryKeyType (some key) = .ok text) keys texts
      ∧ list = " , ".intercalate texts := by
  unfold inList at h
  cases htexts : keys.mapM fun key => splicedKey primaryKeyType (some key) with
  | error e =>
      rw [htexts] at h
      cases h
  | ok texts =>
      rw [htexts] at h
      cases h
      exact ⟨texts, mapM_ok htexts, rfl⟩

/-! ## Numbers -/

theorem splicedKey_numeric (hnum : Numeric primaryKeyType)
    (h : splicedKey primaryKeyType (some key) = .ok text) :
    ∃ n : Int, text = Int.repr n ∧
      key = if primaryKeyType = .BIGINT then .long n else .integer n := by
  simp only [Numeric, List.mem_cons, List.not_mem_nil, or_false] at hnum
  rcases hnum with rfl | rfl | rfl | rfl <;> cases key <;> cases h <;> exact ⟨_, rfl, rfl⟩

theorem splicedKey_inj (hnum : Numeric primaryKeyType)
    (h : splicedKey primaryKeyType (some key) = .ok text)
    (h' : splicedKey primaryKeyType (some key') = .ok text) : key = key' := by
  obtain ⟨n, rfl, rfl⟩ := splicedKey_numeric hnum h
  obtain ⟨n', heq, rfl⟩ := splicedKey_numeric hnum h'
  rw [Int.repr_injective heq]

/-- A number has neither blanks nor commas in it. -/
theorem splicedKey_chars (hnum : Numeric primaryKeyType)
    (h : splicedKey primaryKeyType (some key) = .ok text) :
    ' ' ∉ text.toList ∧ ',' ∉ text.toList := by
  obtain ⟨n, rfl, _⟩ := splicedKey_numeric hnum h
  obtain ⟨ds, _, hds, htext⟩ := toList_toString_int n
  -- all that is in it are digits and a dash
  have hne : ∀ c, c.isDigit = false → c ≠ '-' → c ∉ (Int.repr n).toList := by
    intro c hdigit hminus hc
    have hmem : c ∈ '-' :: ds := by
      rcases htext with htext | htext
      · exact List.mem_cons_of_mem _ (htext ▸ hc)
      · exact htext ▸ hc
    rcases List.mem_cons.mp hmem with rfl | hmem
    · exact hminus rfl
    · rw [hds c hmem] at hdigit
      cases hdigit
  exact ⟨hne ' ' rfl (by decide), hne ',' rfl (by decide)⟩

/-! ## The list -/

/-- Without its blanks the list is separated by commas. -/
theorem filter_intercalate {texts : List String} (h : ∀ text ∈ texts, ' ' ∉ text.toList) :
    (" , ".intercalate texts).toList.filter (· ≠ ' ')
      = [','].intercalate (texts.map String.toList) := by
  induction texts with
  | nil => rfl
  | cons text texts ih =>
      have htext : text.toList.filter (· ≠ ' ') = text.toList := by
        refine List.filter_eq_self.mpr fun c hc => ?_
        refine decide_eq_true ?_
        rintro rfl
        exact h text List.mem_cons_self hc
      have ih' := ih fun text' h' => h text' (List.mem_cons_of_mem text h')
      cases texts with
      | nil => rw [String.intercalate_singleton, htext]; simp
      | cons text' texts =>
          have hsep : " , ".toList.filter (· ≠ ' ') = [','] := by decide
          rw [String.intercalate_cons_cons, String.toList_append, String.toList_append,
            List.filter_append, List.filter_append, htext, hsep, ih', List.map_cons, List.map_cons,
            List.map_cons, List.intercalate_cons_cons]

/-- Texts without commas and blanks are found again. -/
theorem intercalate_inj {texts texts' : List String} (hne : texts ≠ []) (hne' : texts' ≠ [])
    (h : ∀ text ∈ texts ++ texts', ' ' ∉ text.toList ∧ ',' ∉ text.toList)
    (heq : " , ".intercalate texts = " , ".intercalate texts') : texts = texts' := by
  -- without the blanks the list is split at its commas
  have hsplit : ∀ {texts : List String}, texts ≠ [] →
      (∀ text ∈ texts, ' ' ∉ text.toList ∧ ',' ∉ text.toList) →
      ((" , ".intercalate texts).toList.filter (· ≠ ' ')).splitOn ','
        = texts.map String.toList := by
    intro texts hne h
    rw [filter_intercalate fun text ht => (h text ht).1]
    refine List.splitOn_intercalate ',' ?_ (by simpa using hne)
    intro l hl
    obtain ⟨text, ht, rfl⟩ := List.mem_map.mp hl
    exact (h text ht).2
  have hmap : texts.map String.toList = texts'.map String.toList := by
    rw [← hsplit hne fun text ht => h text (List.mem_append_left _ ht), heq,
      hsplit hne' fun text ht => h text (List.mem_append_right _ ht)]
  exact List.map_injective_iff.mpr (fun _ _ => String.toList_inj.mp) hmap

theorem inList_chars (hnum : Numeric primaryKeyType) {texts : List String} (h : List.Forall₂
      (fun key text => splicedKey primaryKeyType (some key) = .ok text) keys texts) :
    ∀ text ∈ texts, ' ' ∉ text.toList ∧ ',' ∉ text.toList := by
  induction h with
  | nil => simp
  | cons hkey _ ih => exact List.forall_mem_cons.mpr ⟨splicedKey_chars hnum hkey, ih⟩

/-- Numbers are told apart. -/
theorem inList_inj (hnum : Numeric primaryKeyType) (hne : keys ≠ []) (hne' : keys' ≠ [])
    (h : inList primaryKeyType keys = .ok list) (h' : inList primaryKeyType keys' = .ok list) :
    keys = keys' := by
  obtain ⟨texts, htexts, rfl⟩ := inList_ok h
  obtain ⟨texts', htexts', heq⟩ := inList_ok h'
  have hsame : texts = texts' := by
    refine intercalate_inj ?_ ?_ ?_ heq
    · rintro rfl
      exact hne (List.length_eq_zero_iff.mp htexts.length_eq)
    · rintro rfl
      exact hne' (List.length_eq_zero_iff.mp htexts'.length_eq)
    · exact List.forall_mem_append.mpr ⟨inList_chars hnum htexts, inList_chars hnum htexts'⟩
  subst hsame
  -- one text each, and each text is that of one key
  have hunique : Relator.LeftUnique fun key text =>
      splicedKey primaryKeyType (some key) = .ok text := by
    intro key text key' h h'
    exact splicedKey_inj hnum h h'
  exact List.left_unique_forall₂' hunique htexts htexts'

end TxLcn.Proof
