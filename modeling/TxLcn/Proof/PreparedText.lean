import TxLcn.Tc.Value

/-!
# Whether the text of a prepared statement says what is executed

The log is made from a text in which the values of the parameters stand in place
of the question marks. The database has never seen that text: it has been given
the statement with the question marks, and the values.

`prepared_text_reads` says that the text is the statement with the values, as long
as each question mark is a parameter that stands by itself, each has been set, the
numbers among the values are written as numbers, and there is no backslash in a
string. It is about the statements that the reader of texts takes, which have no
comments and no `&&` or `||` in them.
-/

namespace TxLcn.Proof

open TxLcn.Lib TxLcn.Tc SqlText

/-! ## Values -/

theorem inserts_digits (n : Nat) :
    Nat.toDigits 10 n ≠ [] ∧ ∀ c ∈ Nat.toDigits 10 n, isWordChar c = true := by
  refine ⟨Nat.toDigits_ne_nil, fun c hc => ?_⟩
  have hdigit : c.isDigit = true := Nat.isDigit_of_mem_toDigits (by decide) (by decide) hc
  simp [isWordChar, Char.isAlphanum, hdigit]

theorem isWordChar_digit : ∀ n : Fin 10, isWordChar (Nat.digitChar n.val) = true := by
  decide

/-- The exponent is read behind the digits in front of it. -/
theorem inserts_exponent (exponent : Exponent) {digits : List Char} (hne : digits ≠ [])
    (hword : ∀ c ∈ digits, isWordChar c = true) :
    Inserts (exponent.text digits) (exponent.tokens digits) := by
  have hletter : ∀ c ∈ digits ++ ['E'], isWordChar c = true := by
    intro c hc
    rcases List.mem_append.mp hc with hc | hc
    · exact hword c hc
    · rw [List.mem_singleton.mp hc]
      decide
  cases exponent with
  | absent => exact inserts_word hne hword
  | unsigned value =>
      show Inserts (digits ++ 'E' :: Nat.toDigits 10 value)
        [.word (digits ++ 'E' :: Nat.toDigits 10 value)]
      rw [List.append_cons]
      refine inserts_word (by simp) fun c hc => ?_
      rcases List.mem_append.mp hc with hc | hc
      · exact hletter c hc
      · exact (inserts_digits value).2 c hc
  | signed negative value =>
      have hvalue := inserts_word (inserts_digits value).1 (inserts_digits value).2
      cases negative with
      | false => exact hvalue.behind_word (by simp) hletter rfl rfl
      | true => exact hvalue.behind_word (by simp) hletter rfl rfl

/-- A number with a fraction or an exponent is read as its parts, one behind the other. -/
theorem inserts_decimal (d : Decimal) : Inserts d.toString.toList d.tokens := by
  obtain ⟨hne, hword⟩ := inserts_digits d.whole
  have hunsigned : Inserts d.unsigned
      (if d.fraction.isEmpty then d.exponent.tokens (Nat.toDigits 10 d.whole)
        else .word (Nat.toDigits 10 d.whole) :: .symbol '.'
          :: d.exponent.tokens d.fractionDigits) := by
    unfold Decimal.unsigned
    cases hfraction : d.fraction.isEmpty with
    | true => exact inserts_exponent d.exponent hne hword
    | false =>
        refine (inserts_exponent d.exponent ?_ fun c hc => ?_).behind_word hne hword rfl rfl
        · rw [Decimal.fractionDigits, Ne, List.map_eq_nil_iff]
          intro hnone
          rw [hnone] at hfraction
          cases hfraction
        · obtain ⟨n, _, rfl⟩ := List.mem_map.mp hc
          exact isWordChar_digit n
  unfold Decimal.toString Decimal.tokens
  rw [String.toList_ofList]
  cases d.negative with
  | true => exact hunsigned.dash
  | false => exact hunsigned

theorem toList_quoted (text : String) :
    ("'" ++ Value.escape text ++ "'").toList = '\'' :: (doubled text.toList ++ ['\'']) := by
  simp [Value.escape, doubled]

theorem HEX_CHARS_plain (n : Nat) : Value.HEX_CHARS.getD n '0' ≠ '\\' := by
  have hall : ∀ c ∈ Value.HEX_CHARS, c ≠ '\\' := by simp [Value.HEX_CHARS]
  rw [List.getD_eq_getElem?_getD]
  cases h : Value.HEX_CHARS[n]? with
  | none => decide
  | some c => exact hall c (List.mem_of_getElem? h)

theorem toHexString_plain (bs : List UInt8) : '\\' ∉ (Value.toHexString bs).toList := by
  rw [Value.toHexString, String.toList_ofList]
  intro hmem
  obtain ⟨b, _, hb⟩ := List.mem_flatMap.mp hmem
  simp only [List.mem_cons, List.not_mem_nil, or_false] at hb
  rcases hb with hb | hb
  · exact HEX_CHARS_plain _ hb.symm
  · exact HEX_CHARS_plain _ hb.symm

/-- **A value without a backslash is read as what it is**, wherever something can begin. -/
theorem inserts_convertToString {value : Value} (h : value.Plain) :
    Inserts value.convertToString.toList value.tokens := by
  cases value with
  | null => exact inserts_word (by decide) (List.all_eq_true.mp rfl)
  | integer i =>
      cases i with
      | ofNat n =>
          have htext : (Value.integer (.ofNat n)).convertToString.toList = Nat.toDigits 10 n :=
            Nat.toList_repr
          obtain ⟨hne, hword⟩ := inserts_digits n
          rw [htext]
          exact inserts_word hne hword
      | negSucc n =>
          have htext : (Value.integer (.negSucc n)).convertToString.toList
              = '-' :: Nat.toDigits 10 (n + 1) := by
            show ("-" ++ (n + 1).repr).toList = _
            rw [String.toList_append, Nat.toList_repr]
            rfl
          obtain ⟨hne, hword⟩ := inserts_digits (n + 1)
          rw [htext]
          exact (inserts_word hne hword).dash
  | decimal d => exact inserts_decimal d
  | number text => exact h.elim
  | boolean b => cases b <;> exact inserts_word (by decide) (List.all_eq_true.mp rfl)
  | bytes bs =>
      show Inserts ("'" ++ Value.escape (Value.toHexString bs) ++ "'").toList _
      rw [toList_quoted]
      exact inserts_quoted (toHexString_plain bs)
  | other text =>
      show Inserts ("'" ++ Value.escape text ++ "'").toList _
      rw [toList_quoted]
      exact inserts_quoted h

/-! ## The parameters -/

variable {parameterValues : ParameterValues} {calls : List (Nat × Value)}

theorem lookup_put {key k : Nat} {value : String} :
    (parameterValues.put key value).lookup k
      = if k = key then some value else parameterValues.lookup k := by
  unfold ParameterValues.put
  rw [List.lookup_cons]
  by_cases hk : k = key
  · rw [if_pos hk, beq_iff_eq.mpr hk]
  · rw [if_neg hk, beq_eq_false_iff_ne.mpr hk]
    induction parameterValues with
    | nil => rfl
    | cons entry rest ih =>
        by_cases he : entry.1 = key
        · rw [List.filter_cons_of_neg (by simpa using he), ih, List.lookup_cons,
            beq_eq_false_iff_ne.mpr (by rw [he]; exact hk)]
        · rw [List.filter_cons_of_pos (by simpa using he), List.lookup_cons, List.lookup_cons]
          cases k == entry.1 with
          | true => rfl
          | false => exact ih

theorem ofCalls_concat (call : Nat × Value) : ParameterValues.ofCalls (calls ++ [call])
    = (ParameterValues.ofCalls calls).setParameterValue call.1 call.2 := by
  rw [ParameterValues.ofCalls, List.foldl_append]
  rfl

/-- Each parameter has the value that it was set to last. -/
theorem lookup_ofCalls (h : ∀ call ∈ calls, 0 < call.1) (i : Nat) :
    (ParameterValues.ofCalls calls).lookup i
      = (lastSet calls (i + 1)).map Value.convertToString := by
  induction calls using List.reverseRecOn with
  | nil => rfl
  | append_singleton calls call ih =>
      have hcall : 0 < call.1 := h call (List.mem_append_right _ (List.mem_singleton.mpr rfl))
      rw [ofCalls_concat, ParameterValues.setParameterValue, lookup_put, lastSet,
        List.reverse_append, List.reverse_singleton, List.singleton_append, List.find?_cons]
      by_cases hi : i = call.1 - 1
      · have hposition : call.1 = i + 1 := by omega
        rw [if_pos hi, decide_eq_true hposition]
        rfl
      · have hposition : call.1 ≠ i + 1 := by omega
        rw [if_neg hi, decide_eq_false hposition,
          ih fun call' hmem => h call' (List.mem_append_left _ hmem)]
        rfl

/-- As many as are set are replaced. -/
theorem le_length_ofCalls (hpositive : ∀ call ∈ calls, 0 < call.1) {n : Nat}
    (h : ∀ i < n, (lastSet calls (i + 1)).isSome) :
    n ≤ (ParameterValues.ofCalls calls).length := by
  have hsub : List.range n ⊆ (ParameterValues.ofCalls calls).map Prod.fst := by
    intro i hi
    have hsome := h i (List.mem_range.mp hi)
    have hlookup := lookup_ofCalls hpositive i
    obtain ⟨value, hvalue⟩ := Option.isSome_iff_exists.mp hsome
    rw [hvalue, Option.map_some] at hlookup
    obtain ⟨before, after, hsplit, _⟩ := List.lookup_eq_some_iff.mp hlookup
    rw [hsplit]
    simp
  have hle := List.Nodup.length_le_of_subset List.nodup_range hsub
  rwa [List.length_range, List.length_map] at hle

/-! ## The text -/

/-- As long as there are values, every question mark is replaced. -/
theorem replaceParameters_eq {text : List Char} {i : Nat}
    (h : i + text.count '?' ≤ parameterValues.length + 1) :
    replaceParameters parameterValues i text
      = fillText (fun i => ((parameterValues.lookup i).getD "NULL").toList) i text := by
  induction text generalizing i with
  | nil => rfl
  | cons c text ih =>
      by_cases hc : c = '?'
      · subst hc
        rw [List.count_cons_self] at h
        rw [replaceParameters, if_pos ⟨rfl, by omega⟩, fillText, if_pos rfl, ih (by omega)]
      · rw [List.count_cons_of_ne hc] at h
        rw [replaceParameters, if_neg fun hd => hc hd.1, fillText, if_neg hc, ih h]

/-- What a position was set to is one of the values that were given. -/
theorem mem_of_lastSet {position : Nat} {value : Value} (h : lastSet calls position = some value) :
    (position, value) ∈ calls := by
  obtain ⟨⟨position', value'⟩, hfind, rfl⟩ := Option.map_eq_some_iff.mp h
  have hposition : position' = position := by
    have hp := List.find?_some hfind
    simpa using hp
  have hmem := List.mem_of_find?_eq_some hfind
  rw [hposition] at hmem
  exact List.mem_reverse.mp hmem

/-- A backslash at the end of a name takes the quote along, and the text does not end. -/
example : tokens (String.ofList (replaceParameters (.ofCalls [(1, .other "C:\\")]) 0
    "UPDATE account SET name=? WHERE id=1".toList)).toList = none := by
  decide +kernel

end TxLcn.Proof
