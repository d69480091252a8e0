import Mathlib.Data.List.Induction
import TxLcn.Lib.Transducer

/-!
# The text of an SQL statement

How MySQL reads a text: as words, quoted texts and symbols. Within quotes the
quote itself is written twice, and a backslash says that the next character
stands for something else. What may begin a comment is not read, and neither are
`&&` and `||`.

A list of literals is read from that. What is put between quotes as it is comes
back as it is if there is nothing in it that has a meaning there, and in no other
case.
-/

namespace TxLcn.Lib

inductive Quote where
  | single
  | double
  | back
  deriving Repr, DecidableEq

def Quote.char : Quote → Char
  | single => '\''
  | double => '"'
  | back => '\u0060'

inductive Token where
  | word (text : List Char)
  | quoted (quote : Quote) (text : List Char)
  | symbol (char : Char)
  deriving Repr, DecidableEq

namespace SqlText

def isBlank (c : Char) : Bool := c = ' ' || ('\t' ≤ c && c ≤ '\r')

def isWordChar (c : Char) : Bool := c.isAlphanum || c = '_' || c = '$' || '\u0080' ≤ c

def isSymbol (c : Char) : Bool := c ∈ "(),.=<>!+-*/%&|^~?@".toList

/-- The two symbols, one right behind the other, are not read. -/
def isRefused (c c' : Char) : Bool := (c, c') ∈ [('/', '*'), ('&', '&'), ('|', '|')]

/-- What a character stands for behind a backslash. -/
def escape : Char → List Char
  | '0' => [Char.ofNat 0]
  | 'b' => [Char.ofNat 8]
  | 't' => ['\t']
  | 'n' => ['\n']
  | 'r' => ['\r']
  | 'Z' => [Char.ofNat 26]
  -- only a pattern has a use for these two
  | '%' => ['\\', '%']
  | '_' => ['\\', '_']
  | c => [c]

/-- Where a reader is. -/
inductive Place where
  | between
  | word (text : List Char)
  | quoted (quote : Quote) (text : List Char)
  | escaped (quote : Quote) (text : List Char)
  /-- Behind a quote, which is the last one unless another one follows. -/
  | closing (quote : Quote) (text : List Char)
  | symbol (char : Char)
  /-- Behind two minus signs, which begin a comment if a blank follows. -/
  | dashes
  deriving Repr, DecidableEq

/-- The character is the first one of something. -/
def first (c : Char) : Option (List Token × Place) :=
  if isWordChar c then some ([], .word [c])
  else if isBlank c then some ([], .between)
  else if isSymbol c then some ([.symbol c], .symbol c)
  else ([.single, .double, .back].find? fun quote => quote.char = c).map
    fun quote => ([], .quoted quote [])

/-- What has been read is written, and the character is the first one of something. -/
def endedBy (token : Token) (c : Char) : Option (List Token × Place) :=
  (first c).map fun (tokens, place) => (token :: tokens, place)

def step : Place → Char → Option (List Token × Place)
  | .between, c => first c
  | .word text, c =>
      if isWordChar c then some ([], .word (text ++ [c])) else endedBy (.word text) c
  | .quoted quote text, c =>
      if c = quote.char then some ([], .closing quote text)
      else if c = '\\' ∧ quote ≠ .back then some ([], .escaped quote text)
      else some ([], .quoted quote (text ++ [c]))
  | .escaped quote text, c => some ([], .quoted quote (text ++ escape c))
  | .closing quote text, c =>
      if c = quote.char then some ([], .quoted quote (text ++ [c]))
      else endedBy (.quoted quote text) c
  | .symbol c', c =>
      if isRefused c' c then none
      else if c' = '-' ∧ c = '-' then some ([.symbol c], .dashes)
      else first c
  | .dashes, c =>
      if isBlank c then none
      else if c = '-' then some ([.symbol c], .dashes)
      else first c

def finish : Place → Option (List Token)
  | .between => some []
  | .word text => some [.word text]
  | .closing quote text => some [.quoted quote text]
  | .symbol _ => some []
  | .quoted _ _ | .escaped _ _ | .dashes => none

end SqlText

/-- Reads a text from its beginning, or from where one thing has ended. -/
def sqlText : Transducer SqlText.Place Char Token := ⟨SqlText.step, SqlText.finish⟩

def tokens (text : List Char) : Option (List Token) := sqlText.run .between text

namespace SqlText

variable {c : Char} {text rest : List Char} {read : List Token}

/-- A character that nothing goes on with. -/
structure Separates (c : Char) : Prop where
  word : isWordChar c = false
  quote : ∀ quote : Quote, c ≠ quote.char
  symbol : ∀ c', isRefused c' c = false
  dash : c ≠ '-'

theorem separates_blank : Separates ' ' where
  word := by decide
  quote quote := by cases quote <;> decide
  symbol c' := by simp [isRefused]
  dash := by decide

theorem separates_closing : Separates ')' where
  word := by decide
  quote quote := by cases quote <;> decide
  symbol c' := by simp [isRefused]
  dash := by decide

/-- Wherever a text may end, it may be ended. -/
theorem Separates.breaks (h : Separates c) : sqlText.Breaks .between c := by
  intro place written hfinish
  -- `first` and `endedBy` say the same, up to what has been read before
  have hended : ∀ token, endedBy token c = (first c).map fun (written', place) =>
      ([token] ++ written', place) := fun _ => rfl
  have hfirst : first c = (first c).map fun (written', place) => ([] ++ written', place) := by
    cases first c <;> rfl
  cases place with
  | between =>
      cases hfinish
      exact hfirst
  | word text =>
      cases hfinish
      exact (if_neg (by simp [h.word])).trans (hended _)
  | closing quote text =>
      cases hfinish
      exact (if_neg (h.quote quote)).trans (hended _)
  | symbol c' =>
      cases hfinish
      refine (if_neg (by simp [h.symbol])).trans ((if_neg fun hdash => h.dash hdash.2).trans ?_)
      exact hfirst
  | quoted | escaped | dashes => cases hfinish

/-- A separator cuts a text in two. -/
theorem tokens_append (h : Separates c) (hread : tokens text = some read) :
    tokens (text ++ c :: rest) = (tokens (c :: rest)).map (read ++ ·) :=
  Transducer.run_append_cons h.breaks hread

theorem tokens_blank : tokens (' ' :: rest) = tokens rest :=
  Transducer.run_cons_nil rfl

theorem run_word {begun : List Char} (h : ∀ c ∈ text, isWordChar c = true) :
    sqlText.run (.word begun) text = some [.word (begun ++ text)] := by
  induction text generalizing begun with
  | nil =>
      rw [List.append_nil]
      rfl
  | cons c text ih =>
      rw [Transducer.run_cons_nil (if_pos (h c List.mem_cons_self)),
        ih fun c' hc' => h c' (List.mem_cons_of_mem c hc'), List.append_assoc]
      rfl

theorem tokens_word (hne : text ≠ []) (h : ∀ c ∈ text, isWordChar c = true) :
    tokens text = some [.word text] := by
  cases text with
  | nil => exact absurd rfl hne
  | cons c text =>
      exact (Transducer.run_cons_nil (if_pos (h c List.mem_cons_self))).trans
        (run_word fun c' hc' => h c' (List.mem_cons_of_mem c hc'))

/-- A symbol has no effect on what comes behind it, as long as the two are not one. -/
theorem tokens_symbol {c' : Char} (hfirst : first c' = some ([.symbol c'], .symbol c'))
    (hrefused : isRefused c' c = false) (hdash : c ≠ '-') :
    tokens (c' :: c :: rest) = (tokens (c :: rest)).map (.symbol c' :: ·) := by
  have hstep : step (.symbol c') c = step .between c :=
    (if_neg (by simp [hrefused])).trans (if_neg fun h => hdash h.2)
  have hrun : sqlText.run (.symbol c') (c :: rest) = tokens (c :: rest) := by
    show (step (.symbol c') c).bind _ = (step .between c).bind _
    rw [hstep]
  rw [← hrun]
  have hbegin : sqlText.step .between c' = some ([.symbol c'], .symbol c') := hfirst
  exact Transducer.run_cons hbegin

/-! ## Quoted texts -/

/-- Between back quotes a backslash means nothing, and only the back quote ends the text. -/
theorem run_back {begun : List Char} (h : Quote.back.char ∉ text) :
    sqlText.run (.quoted .back begun) (text ++ [Quote.back.char])
      = some [.quoted .back (begun ++ text)] := by
  induction text generalizing begun with
  | nil =>
      rw [List.append_nil]
      rfl
  | cons c text ih =>
      rw [List.mem_cons, not_or] at h
      have hstep : step (.quoted .back begun) c = some ([], .quoted .back (begun ++ [c])) :=
        (if_neg (Ne.symm h.1)).trans (if_neg (by simp))
      rw [List.cons_append, Transducer.run_cons_nil hstep, ih h.2, List.append_assoc,
        List.singleton_append]

theorem tokens_back (h : Quote.back.char ∉ text) :
    tokens (Quote.back.char :: (text ++ [Quote.back.char])) = some [.quoted .back text] :=
  (Transducer.run_cons_nil rfl).trans (run_back h)

/-- Nothing in the text has a meaning between single quotes. -/
def plain : List Char → Bool
  | [] => true
  | c :: text =>
      c != '\'' && (c != '\\' || text.head? == some '%' || text.head? == some '_') && plain text

/-- The quote that ends a text and the backslash. -/
def Special (c : Char) : Prop := c = '\'' ∨ c = '\\'

instance : Decidable (Special c) := inferInstanceAs (Decidable (_ ∨ _))

variable {begun value : List Char} {token : Token} {place : Place} {quote : Quote}

theorem step_quoted (h : ¬ Special c) :
    step (.quoted .single begun) c = some ([], .quoted .single (begun ++ [c])) := by
  unfold Special at h
  simp only [not_or] at h
  exact (if_neg h.1).trans (if_neg fun hback => h.2 hback.1)

/-- Inside a quoted text of which that much has been read. -/
inductive Within (quote : Quote) (begun : List Char) : Place → Prop where
  | quoted : Within quote begun (.quoted quote begun)
  | escaped : Within quote begun (.escaped quote begun)
  | closing : Within quote begun (.closing quote begun)

/-- A character goes on with the text, or ends it. -/
theorem Within.step (h : Within quote begun place) (c : Char) :
    (∃ more place', SqlText.step place c = some ([], place')
        ∧ Within quote (begun ++ more) place')
      ∨ place = .closing quote begun ∧ c ≠ quote.char := by
  cases h with
  | quoted =>
      by_cases hquote : c = quote.char
      · exact Or.inl ⟨[], _, if_pos hquote, (List.append_nil begun).symm ▸ .closing⟩
      · by_cases hescape : c = '\\' ∧ quote ≠ .back
        · exact Or.inl ⟨[], _, (if_neg hquote).trans (if_pos hescape),
            (List.append_nil begun).symm ▸ .escaped⟩
        · exact Or.inl ⟨[c], _, (if_neg hquote).trans (if_neg hescape), .quoted⟩
  | escaped => exact Or.inl ⟨escape c, _, rfl, .quoted⟩
  | closing =>
      by_cases hquote : c = quote.char
      · exact Or.inl ⟨[c], _, if_pos hquote, .quoted⟩
      · exact Or.inr ⟨rfl, hquote⟩

/-- The text has ended. -/
theorem run_closing (h : text.head? ≠ some quote.char)
    (hrun : sqlText.run (.closing quote begun) text = some (token :: read)) :
    token = .quoted quote begun := by
  cases text with
  | nil =>
      cases hrun
      rfl
  | cons c text =>
      have hc : c ≠ quote.char := fun hc => h (congrArg some hc)
      have hstep : SqlText.step (.closing quote begun) c = endedBy (.quoted quote begun) c :=
        if_neg hc
      unfold endedBy at hstep
      cases hfirst : first c with
      | none =>
          rw [hfirst] at hstep
          rw [Transducer.run_cons_none hstep] at hrun
          cases hrun
      | some r =>
          rw [hfirst] at hstep
          rw [Transducer.run_cons hstep] at hrun
          obtain ⟨more, _, hmore⟩ := Option.map_eq_some_iff.mp hrun
          exact (List.cons.inj hmore).1.symm

/-- What is written first goes on from what has been read. -/
theorem Within.starts (h : Within quote begun place)
    (hrun : sqlText.run place text = some (token :: read)) :
    ∃ value, token = .quoted quote (begun ++ value) := by
  induction text generalizing begun place with
  | nil =>
      cases h with
      | closing =>
          cases hrun
          exact ⟨[], by rw [List.append_nil]⟩
      | quoted | escaped => cases hrun
  | cons c text ih =>
      rcases h.step c with ⟨more, place', hstep, hwithin⟩ | ⟨rfl, hc⟩
      · rw [Transducer.run_cons_nil hstep] at hrun
        obtain ⟨value, rfl⟩ := ih hwithin hrun
        exact ⟨more ++ value, by rw [List.append_assoc]⟩
      · refine ⟨[], ?_⟩
        rw [List.append_nil]
        refine run_closing (fun hhead => hc ?_) hrun
        exact Option.some.inj hhead

/-- What has been read inside the quotes, and what it is of. -/
theorem within_cons {place' : Place} {more : List Char} (hstep : step place c = some ([], place'))
    (hwithin : Within quote (begun ++ more) place')
    (hrun : sqlText.run place (c :: text) = some (.quoted quote (begun ++ value) :: read)) :
    ∃ value', value = more ++ value' ∧
      sqlText.run place' text = some (.quoted quote (begun ++ more ++ value') :: read) := by
  rw [Transducer.run_cons_nil hstep] at hrun
  obtain ⟨value', hvalue⟩ := hwithin.starts hrun
  obtain ⟨_, htext⟩ := Token.quoted.inj hvalue
  rw [List.append_assoc] at htext
  refine ⟨value', List.append_cancel_left htext, ?_⟩
  rw [hrun, hvalue]

theorem reads_ordinary (hc : ¬ Special c) (hrun : sqlText.run (.quoted .single begun) (c :: text)
      = some (.quoted .single (begun ++ value) :: read)) :
    ∃ value', value = c :: value' ∧ sqlText.run (.quoted .single (begun ++ [c])) text
      = some (.quoted .single (begun ++ [c] ++ value') :: read) :=
  within_cons (step_quoted hc) .quoted hrun

theorem reads_escaped (hrun : sqlText.run (.quoted .single begun) ('\\' :: c :: text)
      = some (.quoted .single (begun ++ value) :: read)) :
    ∃ value', value = escape c ++ value' ∧ sqlText.run (.quoted .single (begun ++ escape c)) text
      = some (.quoted .single (begun ++ escape c ++ value') :: read) := by
  have hstep : step (.quoted .single begun) '\\' = some ([], .escaped .single begun) := rfl
  exact within_cons rfl .quoted ((Transducer.run_cons_nil hstep).symm.trans hrun)

/-- A quote ends the text, unless there is another one. -/
theorem reads_quote (hrun : sqlText.run (.quoted .single begun) ('\'' :: text)
      = some (.quoted .single (begun ++ value) :: read)) :
    (text.head? ≠ some '\'' ∧ value = []) ∨ ∃ text' value', text = '\'' :: text' ∧
      value = '\'' :: value' ∧ sqlText.run (.quoted .single (begun ++ ['\''])) text'
        = some (.quoted .single (begun ++ ['\''] ++ value') :: read) := by
  have hstep : step (.quoted .single begun) '\'' = some ([], .closing .single begun) := rfl
  rw [Transducer.run_cons_nil hstep] at hrun
  by_cases hhead : text.head? = some '\''
  · obtain ⟨text', rfl⟩ := List.head?_eq_some_iff.mp hhead
    have hgo : step (.closing .single begun) '\'' = some ([], .quoted .single (begun ++ ['\''])) :=
      rfl
    obtain ⟨value', hvalue, hrun⟩ := within_cons hgo .quoted hrun
    exact Or.inr ⟨text', value', rfl, hvalue, hrun⟩
  · refine Or.inl ⟨hhead, ?_⟩
    obtain ⟨_, htext⟩ := Token.quoted.inj (run_closing hhead hrun)
    exact List.append_right_eq_self.mp htext

theorem escape_special (h : Special c) : escape c = [c] := by
  rcases h with rfl | rfl <;> rfl

theorem escape_ordinary (h : ¬ Special c) :
    (∃ c', escape c = [c'] ∧ ¬ Special c')
      ∨ escape c = ['\\', c] ∧ (c = '%' ∨ c = '_') := by
  have hone : ∀ c', ¬ (c' = '\'' ∨ c' = '\\') → ∃ c'', [c'] = [c''] ∧ ¬ Special c'' :=
    fun c' hc' => ⟨c', rfl, hc'⟩
  unfold escape
  split
  · exact Or.inl (hone _ (by decide))
  · exact Or.inl (hone _ (by decide))
  · exact Or.inl (hone _ (by decide))
  · exact Or.inl (hone _ (by decide))
  · exact Or.inl (hone _ (by decide))
  · exact Or.inl (hone _ (by decide))
  · exact Or.inr ⟨rfl, Or.inl rfl⟩
  · exact Or.inr ⟨rfl, Or.inr rfl⟩
  · exact Or.inl (hone _ h)

/-- What begins with a special character has not been written with another one. -/
theorem special_of_reads {b : Char} (hb : Special b)
    (hrun : sqlText.run (.quoted .single begun) (c :: text)
      = some (.quoted .single (begun ++ b :: value) :: read)) : Special c := by
  by_contra hc
  obtain ⟨value', hvalue, _⟩ := reads_ordinary hc hrun
  exact hc ((List.cons.inj hvalue).1 ▸ hb)

/-- What is read from an ordinary character on begins with that. -/
theorem reads_rest (hrest : ∀ c ∈ rest.head?, ¬ Special c)
    (hrun : sqlText.run (.quoted .single begun) rest
      = some (.quoted .single (begun ++ value) :: read)) :
    ∃ c ∈ value.head?, ¬ Special c := by
  cases rest with
  | nil => cases hrun
  | cons c rest =>
      obtain ⟨value', rfl, _⟩ := reads_ordinary (hrest c rfl) hrun
      exact ⟨c, rfl, hrest c rfl⟩

/-- A special character takes the next one along, and one of the two is read. -/
theorem reads_pair {b c' : Char} (hc : Special c) (hb : Special b)
    (hnext : ∀ d ∈ value.head?, Special d)
    (hrun : sqlText.run (.quoted .single begun) (c :: c' :: text)
      = some (.quoted .single (begun ++ b :: value) :: read)) :
    c' = b ∧ sqlText.run (.quoted .single (begun ++ [c'])) text
      = some (.quoted .single (begun ++ [c'] ++ value) :: read) := by
  rcases hc with rfl | rfl
  · rcases reads_quote hrun with ⟨_, hnil⟩ | ⟨text', value', htext, hvalue, hrun⟩
    · cases hnil
    · obtain ⟨rfl, rfl⟩ := List.cons.inj htext
      obtain ⟨rfl, rfl⟩ := List.cons.inj hvalue
      exact ⟨rfl, hrun⟩
  · obtain ⟨value', hvalue, hrun⟩ := reads_escaped hrun
    by_cases hc' : Special c'
    · rw [escape_special hc'] at hvalue hrun
      obtain ⟨rfl, rfl⟩ := List.cons.inj hvalue
      exact ⟨rfl, hrun⟩
    · -- an ordinary character would be read in place of `b`, or behind it
      rcases escape_ordinary hc' with ⟨e, he, hordinary⟩ | ⟨he, _⟩
      · rw [he] at hvalue
        exact absurd ((List.cons.inj hvalue).1 ▸ hb) hordinary
      · rw [he] at hvalue
        obtain ⟨_, rfl⟩ := List.cons.inj hvalue
        exact absurd (hnext c' rfl) hc'

/--
Once a character has been read that two were written for, the text is behind and
does not catch up.
-/
theorem not_reads_behind (behind : List Char) (hrest : ∀ c ∈ rest.head?, ¬ Special c)
    (hne : behind ≠ []) (hbehind : ∀ c ∈ behind, Special c) :
    sqlText.run (.quoted .single begun) (text ++ '\'' :: rest)
      ≠ some (.quoted .single (begun ++ (behind ++ text)) :: read) := by
  -- two of the special characters are read at a time, so `behind` grows by one with each step
  induction text using List.twoStepInduction generalizing begun behind with
  | nil =>
      intro hrun
      rcases reads_quote hrun with ⟨_, hnil⟩ | ⟨text', _, rfl, _⟩
      · exact hne (List.append_eq_nil_iff.mp hnil).1
      · exact hrest '\'' rfl (Or.inl rfl)
  | singleton c =>
      intro hrun
      obtain ⟨b, behind, rfl⟩ := List.exists_cons_of_ne_nil hne
      obtain ⟨hb, hbehind⟩ := List.forall_mem_cons.mp hbehind
      have hc : Special c := special_of_reads hb hrun
      have hmore : ∀ d ∈ (behind ++ [c]).head?, Special d := by
        intro d hd
        rcases List.mem_append.mp (List.mem_of_head? hd) with hd | hd
        · exact hbehind d hd
        · exact List.mem_singleton.mp hd ▸ hc
      -- the quote that should end the text goes with `c`, and `rest` would have to go on with it
      obtain ⟨_, hrun⟩ := reads_pair hc hb hmore hrun
      obtain ⟨d, hd, hordinary⟩ := reads_rest hrest hrun
      exact hordinary (hmore d hd)
  | cons_cons c c' text ih _ =>
      intro hrun
      obtain ⟨b, behind, rfl⟩ := List.exists_cons_of_ne_nil hne
      obtain ⟨hb, hbehind⟩ := List.forall_mem_cons.mp hbehind
      have hc : Special c := special_of_reads hb hrun
      have hmore : ∀ d ∈ behind ++ [c], Special d :=
        List.forall_mem_append.mpr ⟨hbehind, by simpa using hc⟩
      have hsplit : b :: behind ++ c :: c' :: text = b :: (behind ++ [c] ++ c' :: text) := by simp
      rw [hsplit] at hrun
      have hnext : ∀ d ∈ (behind ++ [c] ++ c' :: text).head?, Special d := by
        intro d hd
        rw [List.head?_append_of_ne_nil _ (by simp)] at hd
        exact hmore d (List.mem_of_head? hd)
      obtain ⟨hsame, hread⟩ := reads_pair hc hb hnext hrun
      have hc' : Special c' := hsame ▸ hb
      rw [List.append_cons (behind ++ [c])] at hread
      exact ih _ (by simp) (List.forall_mem_append.mpr ⟨hmore, by simpa using hc'⟩) hread

theorem plain_cons : plain (c :: text) = true ↔
    c ≠ '\'' ∧ (c = '\\' → text.head? = some '%' ∨ text.head? = some '_') ∧ plain text = true := by
  simp only [plain, Bool.and_eq_true, Bool.or_eq_true, bne_iff_ne, beq_iff_eq]
  by_cases hc : c = '\\' <;> simp [hc]

/-- The backslash is kept. -/
theorem run_kept (h : c = '%' ∨ c = '_') :
    sqlText.run (.quoted .single begun) ('\\' :: c :: text)
      = sqlText.run (.quoted .single (begun ++ ['\\'])) (c :: text) := by
  have hback : step (.quoted .single begun) '\\' = some ([], .escaped .single begun) := rfl
  have hordinary : ¬ Special c := by rcases h with rfl | rfl <;> decide
  have hescape : escape c = ['\\', c] := by rcases h with rfl | rfl <;> rfl
  have hkept : step (.escaped .single begun) c
      = some ([], .quoted .single (begun ++ ['\\'] ++ [c])) := by
    rw [step, hescape, List.append_assoc]
    rfl
  rw [Transducer.run_cons_nil hback, Transducer.run_cons_nil hkept,
    Transducer.run_cons_nil (step_quoted hordinary)]

/-- A plain text is read as it is. -/
theorem run_plain (h : plain text = true) :
    sqlText.run (.quoted .single begun) (text ++ '\'' :: rest)
      = sqlText.run (.closing .single (begun ++ text)) rest := by
  induction text generalizing begun with
  | nil =>
      rw [List.append_nil]
      exact Transducer.run_cons_nil rfl
  | cons c text ih =>
      obtain ⟨hquote, hescape, htext⟩ := plain_cons.mp h
      have hrun : sqlText.run (.quoted .single (begun ++ [c])) (text ++ '\'' :: rest)
          = sqlText.run (.closing .single (begun ++ c :: text)) rest := by
        rw [ih htext, List.append_assoc, List.singleton_append]
      rw [← hrun, List.cons_append]
      by_cases hc : c = '\\'
      · subst hc
        obtain ⟨d, text', hd, rfl⟩ : ∃ d text', (d = '%' ∨ d = '_') ∧ text = d :: text' := by
          rcases hescape rfl with hhead | hhead
          · obtain ⟨text', rfl⟩ := List.head?_eq_some_iff.mp hhead
            exact ⟨'%', text', Or.inl rfl, rfl⟩
          · obtain ⟨text', rfl⟩ := List.head?_eq_some_iff.mp hhead
            exact ⟨'_', text', Or.inr rfl, rfl⟩
        exact run_kept hd
      · exact Transducer.run_cons_nil (step_quoted fun hspecial => hspecial.elim hquote hc)

/-- Only a plain text comes back as it was. -/
theorem plain_of_run (hrest : ∀ c ∈ rest.head?, ¬ Special c)
    (hrun : sqlText.run (.quoted .single begun) (text ++ '\'' :: rest)
      = some (.quoted .single (begun ++ text) :: read)) : plain text = true := by
  induction text generalizing begun with
  | nil => rfl
  | cons c text ih =>
      by_cases hc : Special c
      · cases text with
        | nil =>
            obtain ⟨_, hrun⟩ := reads_pair hc hc (by simp) hrun
            obtain ⟨_, hnil, _⟩ := reads_rest hrest hrun
            cases hnil
        | cons d text =>
            by_cases hd : Special d
            · -- one has been read for the two of them
              obtain ⟨_, hrun⟩ := reads_pair hc hc (by simpa using hd) hrun
              exact absurd hrun (not_reads_behind [d] hrest (by simp) (by simpa using hd))
            · rcases hc with rfl | rfl
              · rcases reads_quote hrun with ⟨_, hnil⟩ | ⟨_, _, htext, _, _⟩
                · cases hnil
                · exact absurd (Or.inl (List.cons.inj htext).1) hd
              · obtain ⟨value', hvalue, _⟩ := reads_escaped hrun
                -- of what stands behind a backslash only `%` and `_` leave it there
                rcases escape_ordinary hd with ⟨e, he, hordinary⟩ | ⟨_, hkept⟩
                · rw [he] at hvalue
                  exact absurd (Or.inr (List.cons.inj hvalue).1.symm) hordinary
                · rw [List.cons_append, List.cons_append, run_kept hkept] at hrun
                  rw [← List.singleton_append (l := d :: text), ← List.append_assoc] at hrun
                  refine plain_cons.mpr ⟨by decide, fun _ => ?_, ih hrun⟩
                  exact hkept.imp (congrArg some) (congrArg some)
      · obtain ⟨value', hvalue, hrun⟩ := reads_ordinary hc hrun
        obtain ⟨_, rfl⟩ := List.cons.inj hvalue
        exact plain_cons.mpr ⟨fun h => hc (Or.inl h), fun h => absurd (Or.inr h) hc, ih hrun⟩

end SqlText

end TxLcn.Lib
