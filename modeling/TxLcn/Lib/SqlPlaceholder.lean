import TxLcn.Lib.SqlText

/-!
# Question marks in the text of a statement

A text with question marks is made a statement by putting the text of a literal
in place of each. It is read as the statement with the literals in place of the
question marks, as long as a question mark stands by itself (not within quotes,
and not next to what it might grow together with) and each literal can stand by
itself too.

A text between single quotes can, if each quote in it is written twice and there
is no backslash.
-/

namespace TxLcn.Lib

namespace SqlText

variable {c : Char} {text rest more : List Char} {read ts : List Token} {place place' : Place}

/-! ## Literals -/

/-- Something new can begin here. -/
def isOpen : Place → Bool
  | .between | .symbol _ | .dashes => true
  | .word _ | .quoted _ _ | .escaped _ _ | .closing _ _ => false

/-- The last token is not written before the character behind it is seen. -/
inductive Pending : Place → Token → Prop where
  | word (text : List Char) : Pending (.word text) (.word text)
  | closing (text : List Char) : Pending (.closing .single text) (.quoted .single text)

/-- A text that is read as those tokens wherever something new can begin. -/
def Inserts (text : List Char) (read : List Token) : Prop :=
  ∃ before last place', read = before ++ [last] ∧ Pending place' last ∧
    ∀ place, isOpen place = true → ∀ rest,
      sqlText.run place (text ++ rest) = (sqlText.run place' rest).map (before ++ ·)

/-- What begins neither a comment nor an operator of two characters begins anywhere. -/
theorem step_open (h : isOpen place = true) (hslash : c ≠ '*') (hand : c ≠ '&') (hor : c ≠ '|')
    (hdash : c ≠ '-') (hblank : isBlank c = false) : step place c = first c := by
  cases place with
  | between => rfl
  | symbol c' =>
      have hrefused : isRefused c' c = false := by simp [isRefused, hslash, hand, hor]
      rw [step, if_neg (by simp [hrefused]), if_neg fun hd => hdash hd.2]
  | dashes => rw [step, if_neg (by simp [hblank]), if_neg hdash]
  | word | quoted | escaped | closing => cases h

/-- A dash is a symbol of its own wherever something new can begin. -/
theorem step_dash (h : isOpen place = true) :
    ∃ place', isOpen place' = true ∧ step place '-' = some ([.symbol '-'], place') := by
  cases place with
  | between => exact ⟨.symbol '-', rfl, rfl⟩
  | symbol c' =>
      have hrefused : isRefused c' '-' = false := by simp [isRefused]
      by_cases hc : c' = '-'
      · subst hc
        exact ⟨.dashes, rfl, rfl⟩
      · refine ⟨.symbol '-', rfl, ?_⟩
        rw [step, if_neg (by simp [hrefused]), if_neg fun hd => hc hd.1]
        rfl
  | dashes => exact ⟨.dashes, rfl, rfl⟩
  | word | quoted | escaped | closing => cases h

theorem isWordChar_ne (h : isWordChar c = true) {d : Char} (hd : isWordChar d = false) : c ≠ d := by
  rintro rfl
  rw [h] at hd
  cases hd

theorem isBlank_of_isWordChar (h : isWordChar c = true) : isBlank c = false := by
  have hword : isWordChar (Char.ofNat c.toNat) = true := by rwa [Char.ofNat_toNat]
  have hcode : isBlank c = true →
      c.toNat = 32 ∨ c.toNat = 9 ∨ c.toNat = 10 ∨ c.toNat = 11 ∨ c.toNat = 12 ∨ c.toNat = 13 := by
    intro hblank
    rw [isBlank, Bool.or_eq_true, decide_eq_true_eq, Bool.and_eq_true, decide_eq_true_eq,
      decide_eq_true_eq] at hblank
    rcases hblank with rfl | ⟨hlow, hhigh⟩
    · exact Or.inl rfl
    · have hlow' : 9 ≤ c.toNat := hlow
      have hhigh' : c.toNat ≤ 13 := hhigh
      omega
  by_contra hblank
  generalize c.toNat = n at hcode hword
  rcases hcode (by simpa using hblank) with rfl | rfl | rfl | rfl | rfl | rfl <;>
    exact absurd hword (by decide)

theorem run_begun_word {begun : List Char} (h : ∀ c ∈ text, isWordChar c = true) :
    sqlText.run (.word begun) (text ++ rest) = sqlText.run (.word (begun ++ text)) rest := by
  induction text generalizing begun with
  | nil => rw [List.append_nil]; rfl
  | cons c text ih =>
      rw [List.cons_append, Transducer.run_cons_nil (if_pos (h c List.mem_cons_self)),
        ih fun c' hc' => h c' (List.mem_cons_of_mem c hc'), List.append_assoc]
      rfl

/-- A word of letters and digits can be put in. -/
theorem run_open_word (h : isOpen place = true) (hne : text ≠ [])
    (hword : ∀ c ∈ text, isWordChar c = true) :
    sqlText.run place (text ++ rest) = sqlText.run (.word text) rest := by
  cases text with
  | nil => exact absurd rfl hne
  | cons c text =>
      have hc := hword c List.mem_cons_self
      have hstep : step place c = some ([], .word [c]) := by
        rw [step_open h (isWordChar_ne hc rfl) (isWordChar_ne hc rfl) (isWordChar_ne hc rfl)
          (isWordChar_ne hc rfl) (isBlank_of_isWordChar hc)]
        exact if_pos hc
      rw [List.cons_append, Transducer.run_cons_nil hstep,
        run_begun_word fun c' hc' => hword c' (List.mem_cons_of_mem c hc')]
      rfl

theorem inserts_word (hne : text ≠ []) (hword : ∀ c ∈ text, isWordChar c = true) :
    Inserts text [.word text] := by
  refine ⟨[], .word text, .word text, rfl, .word text, fun place h rest => ?_⟩
  rw [run_open_word h hne hword]
  cases sqlText.run (.word text) rest <;> rfl

/-- What can be put in can be put in with a sign. -/
theorem Inserts.dash (h : Inserts text read) : Inserts ('-' :: text) (.symbol '-' :: read) := by
  obtain ⟨before, last, place', rfl, hpending, hrun⟩ := h
  refine ⟨.symbol '-' :: before, last, place', rfl, hpending, fun place hopen rest => ?_⟩
  obtain ⟨next, hnext, hstep⟩ := step_dash hopen
  rw [List.cons_append, Transducer.run_cons hstep, hrun next hnext, Option.map_map]
  rfl

/-- And so it can behind a word and a symbol, which ends the word. -/
theorem Inserts.behind_word (h : Inserts text read) {word : List Char} (hne : word ≠ [])
    (hword : ∀ c ∈ word, isWordChar c = true) (hc : isWordChar c = false)
    (hfirst : first c = some ([.symbol c], .symbol c)) :
    Inserts (word ++ c :: text) (.word word :: .symbol c :: read) := by
  obtain ⟨before, last, place', rfl, hpending, hrun⟩ := h
  refine ⟨.word word :: .symbol c :: before, last, place', rfl, hpending,
    fun place hopen rest => ?_⟩
  have hstep : step (.word word) c = some ([.word word, .symbol c], .symbol c) := by
    rw [step, if_neg (by simp [hc]), endedBy, hfirst]
    rfl
  rw [List.append_assoc, run_open_word hopen hne hword, List.cons_append,
    Transducer.run_cons hstep, hrun (.symbol c) rfl, Option.map_map]
  rfl

/-- Each quote is written twice. -/
def doubled (text : List Char) : List Char :=
  text.flatMap fun c => if c = '\'' then ['\'', '\''] else [c]

/-- A text without a backslash comes back from between the quotes. -/
theorem run_doubled {begun : List Char} (h : '\\' ∉ text) :
    sqlText.run (.quoted .single begun) (doubled text ++ '\'' :: rest)
      = sqlText.run (.closing .single (begun ++ text)) rest := by
  induction text generalizing begun with
  | nil =>
      rw [List.append_nil]
      exact Transducer.run_cons_nil rfl
  | cons c text ih =>
      have htext : '\\' ∉ text := fun hmem => h (List.mem_cons_of_mem c hmem)
      have hrun : sqlText.run (.quoted .single (begun ++ [c])) (doubled text ++ '\'' :: rest)
          = sqlText.run (.closing .single (begun ++ c :: text)) rest := by
        rw [ih htext, List.append_assoc, List.singleton_append]
      rw [← hrun, doubled, List.flatMap_cons]
      by_cases hc : c = '\''
      · subst hc
        have hquote : step (.quoted .single begun) '\'' = some ([], .closing .single begun) := rfl
        have hagain : step (.closing .single begun) '\''
            = some ([], .quoted .single (begun ++ ['\''])) := rfl
        rw [if_pos rfl, List.cons_append, List.cons_append, Transducer.run_cons_nil hquote]
        exact Transducer.run_cons_nil hagain
      · have hback : c ≠ '\\' := by
          rintro rfl
          exact h List.mem_cons_self
        rw [if_neg hc, List.singleton_append, List.cons_append,
          Transducer.run_cons_nil (step_quoted fun hspecial => hspecial.elim hc hback)]
        rfl

theorem inserts_quoted (h : '\\' ∉ text) :
    Inserts ('\'' :: (doubled text ++ ['\''])) [.quoted .single text] := by
  refine ⟨[], .quoted .single text, .closing .single text, rfl, .closing text,
    fun place hopen rest => ?_⟩
  have hstep : step place '\'' = some ([], .quoted .single []) := by
    rw [step_open hopen (by decide) (by decide) (by decide) (by decide) (by decide)]
    rfl
  rw [List.cons_append, Transducer.run_cons_nil hstep, List.append_assoc, List.singleton_append,
    run_doubled h, List.nil_append]
  cases sqlText.run (.closing .single text) rest <;> rfl

/-! ## Statements with question marks -/

/-- The `i`-th question mark from here on is replaced by `literal i`. -/
def fillText (literal : Nat → List Char) : Nat → List Char → List Char
  | _, [] => []
  | i, c :: rest =>
      if c = '?' then literal i ++ fillText literal (i + 1) rest else c :: fillText literal i rest

/-- The same, after it has been read. -/
def fillTokens (literal : Nat → List Token) : Nat → List Token → List Token
  | _, [] => []
  | i, token :: tokens =>
      if token = .symbol '?' then literal i ++ fillTokens literal (i + 1) tokens
      else token :: fillTokens literal i tokens

/-- A character that nothing which has been put in front of it grows together with. -/
def isApart (c : Char) : Bool := !isWordChar c && c != '\'' && c != '?'

/-- Each question mark stands where something new can begin, and apart from what follows. -/
def placed : Place → List Char → Bool
  | _, [] => true
  | place, c :: rest =>
      (c != '?' || (isOpen place && rest.head?.all isApart)) &&
        match step place c with
        | none => true
        | some (_, place') => placed place' rest

/-- Where the two texts are read to: at the same place, or only a literal is between them. -/
inductive Follows (text : List Char) : Place → Place → List Token → Prop where
  | same (place : Place) : Follows text place place []
  | literal {place' : Place} {last : Token} (h : Pending place' last)
      (happart : text.head?.all isApart = true) : Follows text (.symbol '?') place' [last]

theorem first_no_placeholder (hc : c ≠ '?') (h : first c = some (read, place)) :
    Token.symbol '?' ∉ read := by
  unfold first at h
  split at h
  · cases h
    exact List.not_mem_nil
  · split at h
    · cases h
      exact List.not_mem_nil
    · split at h
      · cases h
        intro hmem
        exact hc (Token.symbol.inj (List.mem_singleton.mp hmem)).symm
      · obtain ⟨quote, _, hquote⟩ := Option.map_eq_some_iff.mp h
        cases hquote
        exact List.not_mem_nil

theorem endedBy_no_placeholder {token : Token} (hc : c ≠ '?') (htoken : token ≠ .symbol '?')
    (h : endedBy token c = some (read, place)) : Token.symbol '?' ∉ read := by
  obtain ⟨⟨read', place'⟩, hfirst, hread⟩ := Option.map_eq_some_iff.mp h
  cases hread
  intro hmem
  rcases List.mem_cons.mp hmem with he | hmem
  · exact htoken he.symm
  · exact first_no_placeholder hc hfirst hmem

/-- Only a question mark is read as one. -/
theorem step_no_placeholder (hc : c ≠ '?') (h : step place c = some (read, place')) :
    Token.symbol '?' ∉ read := by
  cases place with
  | between => exact first_no_placeholder hc h
  | word text =>
      rw [step] at h
      split at h
      · cases h
        exact List.not_mem_nil
      · exact endedBy_no_placeholder hc (by simp) h
  | quoted quote text =>
      rw [step] at h
      split at h
      · cases h
        exact List.not_mem_nil
      · split at h <;> cases h <;> exact List.not_mem_nil
  | escaped quote text =>
      cases h
      exact List.not_mem_nil
  | closing quote text =>
      rw [step] at h
      split at h
      · cases h
        exact List.not_mem_nil
      · exact endedBy_no_placeholder hc (by simp) h
  | symbol c' =>
      rw [step] at h
      split at h
      · cases h
      · split at h
        · rename_i hd
          cases h
          rw [hd.2]
          simp
        · exact first_no_placeholder hc h
  | dashes =>
      rw [step] at h
      split at h
      · cases h
      · split at h
        · rename_i hd
          cases h
          rw [hd]
          simp
        · exact first_no_placeholder hc h

theorem fillTokens_append {literal : Nat → List Token} {i : Nat} (h : Token.symbol '?' ∉ read) :
    fillTokens literal i (read ++ ts) = read ++ fillTokens literal i ts := by
  induction read with
  | nil => rfl
  | cons token read ih =>
      have hne : token ≠ .symbol '?' := fun he => h (he ▸ List.mem_cons_self)
      rw [List.cons_append, fillTokens, if_neg hne,
        ih fun hmem => h (List.mem_cons_of_mem token hmem), List.cons_append]

/-- Behind a question mark a character is read as it is behind the literal. -/
theorem step_pending {last : Token} (h : Pending place' last) (hc : isApart c = true)
    (hstep : step (.symbol '?') c = some (read, place)) :
    step place' c = some (last :: read, place) := by
  have hfirst : first c = some (read, place) := by
    have hrefused : isRefused '?' c = false := by simp [isRefused]
    rwa [step, if_neg (by simp [hrefused]), if_neg fun hd => absurd hd.1 (by decide)] at hstep
  simp only [isApart, Bool.and_eq_true, Bool.not_eq_true', bne_iff_ne] at hc
  have hended : endedBy last c = some (last :: read, place) := by rw [endedBy, hfirst]; rfl
  cases h with
  | word text => rwa [step, if_neg (by simp [hc.1.1])]
  | closing text => rwa [step, if_neg (by exact hc.1.2)]

/-- At the end the literal is read, too. -/
theorem finish_pending {last : Token} (h : Pending place' last) : finish place' = some [last] := by
  cases h <;> rfl

theorem fillTokens_finish {literal : Nat → List Token} {i : Nat}
    (h : finish place = some read) : fillTokens literal i read = read := by
  have hnone : Token.symbol '?' ∉ read := by
    cases place <;> cases h <;> simp
  have hfill : fillTokens literal i (read ++ []) = read ++ fillTokens literal i [] :=
    fillTokens_append hnone
  rwa [List.append_nil, fillTokens, List.append_nil] at hfill

/-- Where something new can begin, the two texts are read to the same place. -/
theorem Follows.eq_of_open {pending : List Token} (h : Follows ('?' :: text) place place' pending) :
    place' = place ∧ pending = [] := by
  cases h with
  | same => exact ⟨rfl, rfl⟩
  | literal _ happart => exact absurd happart (by simp [isApart])

/--
**The filled text is read as the statement with the literals filled in.**
-/
theorem run_fillText {literal : Nat → List Char} {tokensOf : Nat → List Token} {n : Nat}
    (hinserts : ∀ i < n, Inserts (literal i) (tokensOf i)) {text : List Char} {i : Nat}
    {pending : List Token} (hfollows : Follows text place place' pending)
    (hplaced : placed place text = true) (hcount : i + text.count '?' ≤ n)
    (hrun : sqlText.run place text = some read) :
    sqlText.run place' (fillText literal i text)
      = some (pending ++ fillTokens tokensOf i read) := by
  induction text generalizing i place place' pending read with
  | nil =>
      cases hfollows with
      | same =>
          rw [fillTokens_finish hrun]
          exact hrun
      | literal h _ =>
          cases hrun
          exact finish_pending h
  | cons c text ih =>
      rw [placed, Bool.and_eq_true] at hplaced
      obtain ⟨hmark, hrest⟩ := hplaced
      cases hstep : step place c with
      | none =>
          rw [Transducer.run_cons_none hstep] at hrun
          cases hrun
      | some r =>
          obtain ⟨written, next⟩ := r
          rw [Transducer.run_cons hstep] at hrun
          obtain ⟨read', hread', rfl⟩ := Option.map_eq_some_iff.mp hrun
          have hplaced' : placed next text = true := by simpa only [hstep] using hrest
          by_cases hc : c = '?'
          · subst hc
            obtain ⟨hopen, happart⟩ : isOpen place = true ∧ text.head?.all isApart = true := by
              simpa using hmark
            obtain ⟨rfl, rfl⟩ := hfollows.eq_of_open
            rw [step_open hopen (by decide) (by decide) (by decide) (by decide) (by decide)]
              at hstep
            cases hstep
            have hi : i < n := by
              rw [List.count_cons_self] at hcount
              omega
            obtain ⟨before, last, place₁, hlast, hpending, hinsert⟩ := hinserts i hi
            have hih := ih (i := i + 1) (.literal hpending happart) hplaced'
              (by rw [List.count_cons_self] at hcount; omega) hread'
            rw [fillText, if_pos rfl, hinsert place' hopen, hih]
            show some (before ++ ([last] ++ fillTokens tokensOf (i + 1) read'))
              = some (fillTokens tokensOf i (.symbol '?' :: read'))
            rw [fillTokens, if_pos rfl, hlast, List.append_assoc]
          · have hnone := step_no_placeholder hc hstep
            have hcount' : i + text.count '?' ≤ n := by
              rwa [List.count_cons_of_ne hc] at hcount
            have hih := ih (.same next) hplaced' hcount' hread'
            rw [fillText, if_neg hc, fillTokens_append hnone]
            cases hfollows with
            | same =>
                rw [Transducer.run_cons hstep, hih]
                rfl
            | literal hpending happart =>
                rw [Transducer.run_cons (step_pending hpending happart hstep), hih]
                rfl

/-- A whole statement. -/
theorem tokens_fillText {literal : Nat → List Char} {tokensOf : Nat → List Token}
    {text : List Char} (hinserts : ∀ i < text.count '?', Inserts (literal i) (tokensOf i))
    (hplaced : placed .between text = true) (hread : tokens text = some read) :
    tokens (fillText literal 0 text) = some (fillTokens tokensOf 0 read) :=
  run_fillText hinserts (.same .between) hplaced (by omega) hread

end SqlText

end TxLcn.Lib
