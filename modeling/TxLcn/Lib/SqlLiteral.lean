import TxLcn.Lib.SqlText

/-!
# Lists of SQL literals

Strings and integers, separated by commas, and what is read from them. A writer
that puts its strings between quotes as they are is understood if and only if
they are plain.
-/

namespace TxLcn.Lib

inductive Literal where
  | string (text : List Char)
  | integer (value : Int)
  deriving Repr, DecidableEq

namespace SqlLiteral

/-- Where a reader of a list is. -/
inductive Place where
  | start
  /-- Behind a comma. -/
  | expecting
  | negative
  | after
  deriving Repr, DecidableEq

/-- The number that a word is. -/
def number (text : List Char) : Option Nat :=
  if text.all Char.isDigit then some (Nat.ofDigitChars 10 text 0) else none

def first : Token → Option (List Literal × Place)
  | .quoted .back _ => none
  | .quoted _ text => some ([.string text], .after)
  | .word text => (number text).map fun n => ([.integer (.ofNat n)], .after)
  | .symbol c => if c = '-' then some ([], .negative) else none

def step : Place → Token → Option (List Literal × Place)
  | .start, token | .expecting, token => first token
  | .negative, .word text => (number text).map fun n => ([.integer (-.ofNat n)], .after)
  | .after, .symbol c => if c = ',' then some ([], .expecting) else none
  | _, _ => none

def finish : Place → Option (List Literal)
  | .start | .after => some []
  | .expecting | .negative => none

end SqlLiteral

def literalList : Transducer SqlLiteral.Place Token Literal := ⟨SqlLiteral.step, SqlLiteral.finish⟩

/-- Reads a text as a list of literals. -/
def literals (text : List Char) : Option (List Literal) :=
  (tokens text).bind (literalList.run .start)

/-- As it is written by one who does not look into it. -/
def Literal.written : Literal → List Char
  | string text => '\'' :: text ++ ['\'']
  | integer value => (Int.repr value).toList

/-- One after the other, with commas in between. -/
def listed (ls : List Literal) : List Char := " , ".toList.intercalate (ls.map Literal.written)

/-- It has nothing in it that has a meaning between quotes. -/
def Literal.Plain : Literal → Prop
  | string text => SqlText.plain text = true
  | integer _ => True

open SqlLiteral

variable {text rest : List Char} {read : List Token} {l : Literal} {ls : List Literal}

/-! ## One literal -/

/-- The text is read as that literal, whatever follows. -/
def ReadsAs (text : List Char) (l : Literal) : Prop :=
  ∃ read, tokens text = some read ∧
    ∀ more, literalList.run .expecting (read ++ more) = (literalList.run .after more).map (l :: ·)

theorem run_literal {place place' : Place} {token : Token} {more : List Token}
    (h : step place token = some ([l], place')) :
    literalList.run place (token :: more) = (literalList.run place' more).map (l :: ·) :=
  Transducer.run_cons (m := literalList) h

theorem readsAs_string (h : SqlText.plain text = true) :
    ReadsAs (Literal.string text).written (.string text) := by
  refine ⟨[.quoted .single text], ?_, fun more => run_literal rfl⟩
  exact (Transducer.run_cons_nil rfl).trans (SqlText.run_plain h)

theorem number_toDigits (n : Nat) : number (Nat.toDigits 10 n) = some n := by
  have hdigits : (Nat.toDigits 10 n).all Char.isDigit = true :=
    List.all_eq_true.mpr fun c hc => Nat.isDigit_of_mem_toDigits (by decide) (by decide) hc
  exact (if_pos hdigits).trans (congrArg some Nat.ofDigitChars_ten_toDigits)

theorem tokens_toDigits (n : Nat) :
    tokens (Nat.toDigits 10 n) = some [.word (Nat.toDigits 10 n)] := by
  refine SqlText.tokens_word Nat.toDigits_ne_nil fun c hc => ?_
  have hdigit : c.isDigit = true := Nat.isDigit_of_mem_toDigits (by decide) (by decide) hc
  simp [SqlText.isWordChar, Char.isAlphanum, hdigit]

/-- A dash is a symbol of its own, unless another one follows. -/
theorem tokens_dash_toDigits (n : Nat) :
    tokens ('-' :: Nat.toDigits 10 n) = some [.symbol '-', .word (Nat.toDigits 10 n)] := by
  have hword := tokens_toDigits n
  have hdigits : ∀ c ∈ Nat.toDigits 10 n, c.isDigit = true :=
    fun c hc => Nat.isDigit_of_mem_toDigits (by decide) (by decide) hc
  cases hds : Nat.toDigits 10 n with
  | nil => exact absurd hds Nat.toDigits_ne_nil
  | cons d ds =>
      rw [hds] at hword hdigits
      have hd := hdigits d List.mem_cons_self
      have hdash : d ≠ '-' := by
        rintro rfl
        cases hd
      rw [SqlText.tokens_symbol rfl (by simp [SqlText.isRefused]) hdash, hword]
      rfl

theorem readsAs_integer (value : Int) :
    ReadsAs (Literal.integer value).written (.integer value) := by
  cases value with
  | ofNat n =>
      have hwritten : (Literal.integer (.ofNat n)).written = Nat.toDigits 10 n := Nat.toList_repr
      have hstep : step .expecting (.word (Nat.toDigits 10 n)) = some ([.integer n], .after) := by
        have hnumber := number_toDigits n
        exact congrArg (Option.map _) hnumber
      rw [hwritten]
      exact ⟨_, tokens_toDigits n, fun more => run_literal hstep⟩
  | negSucc n =>
      have hwritten : (Literal.integer (.negSucc n)).written = '-' :: Nat.toDigits 10 (n + 1) := by
        have htext : Int.repr (.negSucc n) = "-" ++ (n + 1).repr := rfl
        rw [Literal.written, htext, String.toList_append, Nat.toList_repr]
        rfl
      have hstep : step .negative (.word (Nat.toDigits 10 (n + 1)))
          = some ([.integer (.negSucc n)], .after) := by
        have hnumber := number_toDigits (n + 1)
        exact congrArg (Option.map _) hnumber
      rw [hwritten]
      refine ⟨_, tokens_dash_toDigits (n + 1), fun more => ?_⟩
      have hminus : step .expecting (.symbol '-') = some ([], .negative) := rfl
      exact (Transducer.run_cons_nil hminus).trans (run_literal hstep)

/-! ## The list -/

theorem listed_cons_cons {l' : Literal} :
    listed (l :: l' :: ls) = l.written ++ ' ' :: ',' :: ' ' :: listed (l' :: ls) := by
  unfold listed
  rw [List.map_cons, List.map_cons, List.intercalate_cons_cons, List.append_assoc]
  rfl

/-- What follows a literal in the list. -/
theorem listed_cons (l : Literal) (ls : List Literal) :
    ∃ rest, listed (l :: ls) = l.written ++ rest ∧ ∀ c ∈ rest.head?, ¬ SqlText.Special c := by
  cases ls with
  | nil => exact ⟨[], by simp [listed], by simp⟩
  | cons l' ls =>
      refine ⟨_, listed_cons_cons, fun c hc => ?_⟩
      cases hc
      decide

theorem tokens_comma : tokens (',' :: ' ' :: text) = (tokens text).map (.symbol ',' :: ·) := by
  rw [SqlText.tokens_symbol rfl (by simp [SqlText.isRefused]) (by decide), SqlText.tokens_blank]

/-- The list without its first literal. -/
theorem expecting_cons (h : ReadsAs l.written l) (hne : ls ≠ []) :
    (tokens (listed (l :: ls))).bind (literalList.run .expecting)
      = ((tokens (listed ls)).bind (literalList.run .expecting)).map (l :: ·) := by
  obtain ⟨l', ls, rfl⟩ := List.exists_cons_of_ne_nil hne
  obtain ⟨read, hread, hreads⟩ := h
  rw [listed_cons_cons, SqlText.tokens_append SqlText.separates_blank hread, SqlText.tokens_blank,
    tokens_comma]
  cases tokens (listed (l' :: ls)) with
  | none => rfl
  | some more =>
      have hcomma : literalList.step .after (.symbol ',') = some ([], .expecting) := rfl
      show literalList.run .expecting (read ++ .symbol ',' :: more) = _
      rw [hreads, Transducer.run_cons_nil hcomma]
      rfl

/-- The first literal comes back as it was written only if it is plain. -/
theorem plain_of_expecting (h : (tokens (listed (l :: ls))).bind (literalList.run .expecting)
      = some (l :: ls)) : l.Plain := by
  cases l with
  | integer value => trivial
  | string text =>
      obtain ⟨rest, hlisted, hrest⟩ := listed_cons (.string text) ls
      obtain ⟨read, hread, hliterals⟩ := Option.bind_eq_some_iff.mp h
      have hwritten : (Literal.string text).written ++ rest = '\'' :: (text ++ '\'' :: rest) := by
        simp [Literal.written]
      rw [hlisted, hwritten] at hread
      have hquote : sqlText.step .between '\'' = some ([], .quoted .single []) := rfl
      have hrun : sqlText.run (.quoted .single []) (text ++ '\'' :: rest) = some read :=
        (Transducer.run_cons_nil hquote).symm.trans hread
      cases read with
      | nil => cases hliterals
      | cons token read =>
          obtain ⟨value, rfl⟩ := SqlText.Within.quoted.starts hrun
          -- the first token is a string, and it has to be the text
          rw [run_literal rfl] at hliterals
          obtain ⟨more, _, hmore⟩ := Option.map_eq_some_iff.mp hliterals
          obtain ⟨hvalue, _⟩ := List.cons.inj hmore
          obtain rfl := Literal.string.inj hvalue
          exact SqlText.plain_of_run hrest hrun

theorem Literal.Plain.readsAs (h : l.Plain) : ReadsAs l.written l := by
  cases l with
  | string text => exact readsAs_string h
  | integer value => exact readsAs_integer value

theorem expecting_listed (hne : ls ≠ []) :
    (tokens (listed ls)).bind (literalList.run .expecting) = some ls ↔ ∀ l ∈ ls, l.Plain := by
  induction ls with
  | nil => exact absurd rfl hne
  | cons l ls ih =>
      by_cases hplain : l.Plain
      · rw [List.forall_mem_cons, and_iff_right hplain]
        by_cases hls : ls = []
        · subst hls
          refine iff_of_true ?_ (by simp)
          obtain ⟨read, hread, hreads⟩ := hplain.readsAs
          have hlisted : listed [l] = l.written := by simp [listed]
          have hlast := hreads []
          rw [List.append_nil] at hlast
          rw [hlisted, hread]
          exact hlast
        · rw [expecting_cons hplain.readsAs hls, ← ih hls, Option.map_eq_some_iff]
          simp
      · -- what follows does not matter if the first literal is already lost
        refine iff_of_false (fun h => hplain (plain_of_expecting h)) fun h => ?_
        exact hplain (h l List.mem_cons_self)

/-- **A list is read as it was written if and only if** all of its strings are plain. -/
theorem literals_listed : literals (listed ls) = some ls ↔ ∀ l ∈ ls, l.Plain := by
  by_cases hls : ls = []
  · subst hls
    exact iff_of_true rfl (by simp)
  · rw [← expecting_listed hls]
    unfold literals
    cases tokens (listed ls) with
    | none => exact Iff.rfl
    | some read =>
        cases read with
        | nil => exact iff_of_false (fun h => hls (Option.some.inj h).symm) (fun h => by cases h)
        | cons token read => exact Iff.rfl

/-- Nothing that is read as a list has parentheses in it. -/
theorem not_parenthesis {place : Place} (h : literalList.run place read = some ls) :
    ∀ token ∈ read, token ≠ .symbol '(' ∧ token ≠ .symbol ')' := by
  induction read generalizing place ls with
  | nil => exact fun _ hmem => absurd hmem List.not_mem_nil
  | cons token read ih =>
      obtain ⟨⟨written, place'⟩, hstep, hrest⟩ := Option.bind_eq_some_iff.mp h
      obtain ⟨more, hmore, _⟩ := Option.map_eq_some_iff.mp hrest
      refine List.forall_mem_cons.mpr ⟨⟨?_, ?_⟩, ih hmore⟩
      · rintro rfl
        cases place <;> cases hstep
      · rintro rfl
        cases place <;> cases hstep

end TxLcn.Lib
