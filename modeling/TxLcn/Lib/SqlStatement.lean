import TxLcn.Lib.Exec
import TxLcn.Lib.SqlLiteral

/-!
# Updates and deletes with a condition

A statement is read token by token: its head up to `WHERE`, the condition, and
what follows it from `ORDER BY` or `LIMIT` on. `NOT` binds more tightly than
`AND`, and `AND` more tightly than `OR`. A comparison is whatever stands between
these, with the `AND` of a `BETWEEN` and all that is in its own parentheses; what
it says is left open. `XOR` and `CASE` are not read.

The truth of a condition is `none` if it is unknown.

What is appended to a statement that ends in its condition goes to the last part
of it only.
-/

namespace TxLcn.Lib

/-! ## Conditions -/

inductive Condition where
  | comparison (tokens : List Token)
  | paren (c : Condition)
  | not (c : Condition)
  | and (a b : Condition)
  | or (a b : Condition)
  deriving Repr, DecidableEq

namespace Condition

def eval (holds : List Token → Option Bool) : Condition → Option Bool
  | comparison tokens => holds tokens
  | paren c => c.eval holds
  | not c => (c.eval holds).map (!·)
  | and a b =>
      match a.eval holds, b.eval holds with
      | some false, _ | _, some false => some false
      | some true, some true => some true
      | _, _ => none
  | or a b =>
      match a.eval holds, b.eval holds with
      | some true, _ | _, some true => some true
      | some false, some false => some false
      | _, _ => none

variable {holds : List Token → Option Bool} {a b c k : Condition}

theorem eval_and : (and a b).eval holds = some true
    ↔ a.eval holds = some true ∧ b.eval holds = some true := by
  rw [eval]
  cases a.eval holds with
  | none => cases b.eval holds with
    | none => simp
    | some y => cases y <;> simp
  | some x => cases b.eval holds with
    | none => cases x <;> simp
    | some y => cases x <;> cases y <;> simp

theorem eval_or : (or a b).eval holds = some true
    ↔ a.eval holds = some true ∨ b.eval holds = some true := by
  rw [eval]
  cases a.eval holds with
  | none => cases b.eval holds with
    | none => simp
    | some y => cases y <;> simp
  | some x => cases b.eval holds with
    | none => cases x <;> simp
    | some y => cases x <;> cases y <;> simp

/-- What `AND k` makes of the condition if it is written behind it. -/
def followedBy (c k : Condition) : Condition :=
  match c with
  | or a b => or a (and b k)
  | c => and c k

/--
**Behind a condition `AND` restricts it exactly when** what comes before its last
`OR` holds for nothing that it should leave out.
-/
theorem eval_followedBy {ρ : Type*} (holds : ρ → List Token → Option Bool) (c k : Condition) :
    (∀ row, (c.followedBy k).eval (holds row) = some true
        ↔ c.eval (holds row) = some true ∧ k.eval (holds row) = some true)
      ↔ ∀ a b, c = or a b → ∀ row, a.eval (holds row) = some true →
          k.eval (holds row) = some true := by
  cases c with
  | or a b =>
      constructor
      · intro h a' b' heq row ha
        cases heq
        exact ((h row).mp (eval_or.mpr (Or.inl ha))).2
      · intro h row
        have ha := h a b rfl row
        rw [followedBy, eval_or, eval_or, eval_and]
        constructor
        · rintro (hleft | ⟨hright, hk⟩)
          · exact ⟨Or.inl hleft, ha hleft⟩
          · exact ⟨Or.inr hright, hk⟩
        · rintro ⟨hleft | hright, hk⟩
          · exact Or.inl hleft
          · exact Or.inr ⟨hright, hk⟩
  | comparison | paren | not | and =>
      refine iff_of_true (fun row => eval_and) fun a b heq => ?_
      cases heq

end Condition

/-! ## Reading a statement -/

def Token.is (word : String) : Token → Bool
  | .word text => text.map Char.toLower = word.toList
  | _ => false

/-- What has been read of the operand of `NOT`, `AND` or `OR`. -/
inductive Operand where
  | missing
  /-- In so many parentheses of its own, or waiting for the `AND` of a `BETWEEN`. -/
  | comparison (tokens : List Token) (depth : Nat) (between : Bool)
  /-- In parentheses, which a comparison may begin with. -/
  | paren (c : Condition) (tokens : List Token)
  deriving Repr, DecidableEq

/-- What has been read since a parenthesis. -/
structure Group where
  disjunction : Option Condition := none
  conjunction : Option Condition := none
  nots : Nat := 0
  operand : Operand := .missing
  tokens : List Token := []
  deriving Repr, DecidableEq

inductive Reader where
  | head (tokens : List Token) (depth : Nat)
  /-- In a group, and in others around it. -/
  | condition (head : List Token) (group : Group) (outer : List Group)
  | tail (head : List Token) (condition : Condition) (first : Token) (rest : List Token)
  deriving Repr, DecidableEq

structure SqlStatement where
  head : List Token
  condition : Condition
  /-- From `ORDER BY` or `LIMIT` on. -/
  tail : List Token
  deriving Repr, DecidableEq

/-- What comes next is a name, whatever it reads. -/
def behindDot (parts : List Token) : Bool :=
  match parts.reverse with
  | .symbol '.' :: .word (c :: _) :: _ => !c.isDigit
  | .symbol '.' :: .quoted .back _ :: _ => true
  | _ => false

def Operand.condition : Operand → Option Condition
  | .comparison tokens 0 false => if behindDot tokens then none else some (.comparison tokens)
  | .paren c _ => some (.paren c)
  | _ => none

namespace Group

variable (g : Group)

def factor : Option Condition := g.operand.condition.map (Nat.repeat .not g.nots)

def term : Option Condition :=
  g.factor.map fun c => match g.conjunction with
    | some a => .and a c
    | none => c

def condition : Option Condition :=
  g.term.map fun c => match g.disjunction with
    | some a => .or a c
    | none => c

/-- The token belongs to the comparison. -/
def compare (tokens : List Token) (depth : Nat) (between : Bool) (token : Token) : Group :=
  { g with
    operand := .comparison (tokens ++ [token]) depth between
    tokens := g.tokens ++ [token] }

end Group

namespace Reader

/-- How deep one is in parentheses behind the token. -/
def nested (depth : Nat) (token : Token) : Option Nat :=
  if token = .symbol '(' then some (depth + 1)
  else if token = .symbol ')' then if depth = 0 then none else some (depth - 1)
  else some depth

/-- The words that are no part of a comparison, or have a meaning in it. -/
def reserved : List String := ["not", "and", "or", "xor", "case", "between", "order", "limit"]

/-- In a group, behind the tokens of something that may be complete, unless a name follows. -/
def afterOperand (front : List Token) (g : Group) (outer : List Group) (parts : List Token)
    (name : Bool) (token : Token) : Option Reader :=
  let goesOn := (nested 0 token).map fun depth =>
    .condition front (g.compare parts depth (token.is "between" && !name) token) outer
  if name then goesOn
  else if token.is "and" then
    g.term.map fun c => .condition front { g with
      conjunction := some c, nots := 0, operand := .missing, tokens := g.tokens ++ [token] } outer
  else if token.is "or" then
    g.condition.map fun c => .condition front { g with
      disjunction := some c, conjunction := none, nots := 0, operand := .missing,
      tokens := g.tokens ++ [token] } outer
  else if token.is "xor" || token.is "case" then none
  else if token = .symbol ')' then
    match g.condition, outer with
    | some c, g' :: outer => some <| .condition front { g' with
        operand := .paren c (g.tokens ++ [token])
        tokens := g'.tokens ++ (g.tokens ++ [token]) } outer
    | _, _ => none
  -- inside parentheses these are words of a query
  else if outer.isEmpty && (token.is "order" || token.is "limit") then
    g.condition.map fun c => .tail front c token []
  else goesOn

def step : Reader → Token → Option Reader
  | .head [] _, token =>
      if token.is "update" || token.is "delete" then some (.head [token] 0) else none
  | .head tokens depth, token =>
      if depth = 0 && token.is "where" && !behindDot tokens then some (.condition tokens {} [])
      else (nested depth token).map (.head (tokens ++ [token]))
  | .condition front g outer, token =>
      match g.operand with
      | .missing =>
          if token.is "not" then some <| .condition front { g with
            nots := g.nots + 1, tokens := g.tokens ++ [token] } outer
          -- of a condition or, if it turns out so behind it, of a comparison
          else if token = .symbol '(' then
            some (.condition front { tokens := [token] } (g :: outer))
          else if reserved.any token.is || token = .symbol ')' then none
          else some (.condition front (g.compare [] 0 false token) outer)
      -- all that is in parentheses belongs to the comparison, a query for example
      | .comparison tokens (depth + 1) between =>
          (nested (depth + 1) token).map fun depth =>
            .condition front (g.compare tokens depth between token) outer
      | .comparison tokens 0 true =>
          if token.is "and" && !behindDot tokens then
            some (.condition front (g.compare tokens 0 false token) outer)
          else if reserved.any token.is && !behindDot tokens then none
          else (nested 0 token).map fun depth =>
            .condition front (g.compare tokens depth true token) outer
      | .comparison tokens 0 false =>
          afterOperand front g outer tokens (behindDot tokens) token
      | .paren _ tokens => afterOperand front g outer tokens false token
  | .tail front c first rest, token => some (.tail front c first (rest ++ [token]))

def finish : Reader → Option SqlStatement
  | .condition front g [] => g.condition.map fun c => { head := front, condition := c, tail := [] }
  | .tail front c first rest => some { head := front, condition := c, tail := first :: rest }
  | _ => none

end Reader

/-- Reads a text as a statement with a condition. -/
def sqlStatement (text : List Char) : Option SqlStatement :=
  (tokens text).bind fun read => (exec Reader.step (.head [] 0) read).bind Reader.finish

/-! ## Comparisons -/

/-- The token has no meaning of its own, in a comparison or before one. -/
structure Ordinary (token : Token) : Prop where
  word : Reader.reserved.any token.is = false
  opening : token ≠ .symbol '('
  closing : token ≠ .symbol ')'

/-- The tokens are read as one comparison. -/
structure IsComparison (ts : List Token) : Prop where
  complete : behindDot ts = false
  read : ∀ front (g : Group) outer, g.operand = .missing →
    exec Reader.step (.condition front g outer) ts = some (.condition front { g with
      operand := .comparison ts 0 false, tokens := g.tokens ++ ts } outer)

/-- A word that has no other meaning, or whatever stands between back quotes. -/
inductive IsName : Token → Prop where
  | word {text : List Char} : Ordinary (.word text) → IsName (.word text)
  | quoted (text : List Char) : IsName (.quoted .back text)

/-- A column, with or without its table. -/
inductive IsColumn : List Token → Prop where
  | name {name : Token} : IsName name → IsColumn [name]
  | qualified {table name : Token} : IsName table → IsName name →
      IsColumn [table, .symbol '.', name]

/-- The comparison of a column with a list. -/
def membership (column list : List Token) : List Token :=
  column ++ (.word "in".toList :: .symbol '(' :: list ++ [.symbol ')'])

variable {front parts list column : List Token} {g : Group} {outer : List Group} {token : Token}
  {depth : Nat} {c k : Condition}

theorem Ordinary.nested (h : Ordinary token) (depth : Nat) :
    Reader.nested depth token = some depth :=
  (if_neg h.opening).trans (if_neg h.closing)

theorem Ordinary.words (h : Ordinary token) : token.is "not" = false ∧ token.is "and" = false
    ∧ token.is "or" = false ∧ token.is "xor" = false ∧ token.is "case" = false
    ∧ token.is "between" = false ∧ token.is "order" = false ∧ token.is "limit" = false := by
  simpa [Reader.reserved] using h.word

theorem step_missing (h : Ordinary token) (hg : g.operand = .missing) :
    Reader.step (.condition front g outer) token
      = some (.condition front (g.compare [] 0 false token) outer) := by
  obtain ⟨hnot, _⟩ := h.words
  rw [Reader.step, hg]
  dsimp only
  rw [hnot, h.word, if_neg Bool.false_ne_true, if_neg h.opening, if_neg (by simp [h.closing])]

theorem step_comparison (h : Ordinary token) (hg : g.operand = .comparison parts 0 false) :
    Reader.step (.condition front g outer) token
      = some (.condition front (g.compare parts 0 false token) outer) := by
  obtain ⟨_, hand, hor, hxor, hcase, hbetween, horder, hlimit⟩ := h.words
  rw [Reader.step, hg]
  dsimp only
  unfold Reader.afterOperand
  simp [h.nested, h.closing, hand, hor, hxor, hcase, hbetween, horder, hlimit]

/-- A parenthesis that belongs to a comparison. -/
theorem step_opening (hg : g.operand = .comparison parts 0 false) :
    Reader.step (.condition front g outer) (.symbol '(')
      = some (.condition front (g.compare parts 1 false (.symbol '(')) outer) := by
  rw [Reader.step, hg]
  dsimp only
  unfold Reader.afterOperand
  simp [Token.is, Reader.nested]

/-- Inside the parentheses of a comparison. -/
theorem step_nested (h : Reader.nested 1 token = some depth)
    (hg : g.operand = .comparison parts 1 false) :
    Reader.step (.condition front g outer) token
      = some (.condition front (g.compare parts depth false token) outer) := by
  rw [Reader.step, hg]
  dsimp only
  rw [h]
  rfl

/-- Token by token, as long as the parentheses stay as they are. -/
theorem exec_compare {ts : List Token} (hstep : ∀ token ∈ ts, ∀ g parts,
      g.operand = .comparison parts depth false → Reader.step (.condition front g outer) token
        = some (.condition front (g.compare parts depth false token) outer))
    (hg : g.operand = .comparison parts depth false) :
    exec Reader.step (.condition front g outer) ts = some (.condition front { g with
      operand := .comparison (parts ++ ts) depth false, tokens := g.tokens ++ ts } outer) := by
  induction ts generalizing g parts with
  | nil => simp [← hg]
  | cons token ts ih =>
      refine exec_cons_some.mpr ⟨_, hstep token List.mem_cons_self g parts hg, ?_⟩
      rw [ih (fun t ht => hstep t (List.mem_cons_of_mem token ht)) rfl]
      simp [Group.compare]

theorem IsName.ordinary (h : IsName token) : Ordinary token := by
  cases h with
  | word htext => exact htext
  | quoted text => exact ⟨rfl, by simp, by simp⟩

theorem IsColumn.ordinary (h : IsColumn column) : ∀ token ∈ column, Ordinary token := by
  have hdot : Ordinary (.symbol '.') := ⟨by decide, by decide, by decide⟩
  cases h with
  | name hname => simp [hname.ordinary]
  | qualified htable hname => simp [htable.ordinary, hname.ordinary, hdot]

/-- Such as `a = 1`. -/
theorem isComparison_ordinary (hne : parts ≠ []) (h : ∀ token ∈ parts, Ordinary token)
    (hdot : behindDot parts = false) : IsComparison parts where
  complete := hdot
  read front g outer hg := by
    obtain ⟨token, parts, rfl⟩ := List.exists_cons_of_ne_nil hne
    refine exec_cons_some.mpr ⟨_, step_missing (h token List.mem_cons_self) hg, ?_⟩
    rw [exec_compare (fun token' hmem g parts hg =>
      step_comparison (h token' (List.mem_cons_of_mem token hmem)) hg) rfl]
    simp [Group.compare]

theorem isComparison_membership (hcolumn : IsColumn column)
    (hlist : ∀ token ∈ list, token ≠ .symbol '(' ∧ token ≠ .symbol ')') :
    IsComparison (membership column list) where
  complete := by simp [behindDot, membership]
  read front g outer hg := by
    have hin : Ordinary (.word "in".toList) := ⟨by decide, by decide, by decide⟩
    have hname : ∀ token ∈ column ++ [.word "in".toList], Ordinary token := by
      intro token hmem
      rcases List.mem_append.mp hmem with hmem | hmem
      · exact hcolumn.ordinary token hmem
      · rwa [List.mem_singleton.mp hmem]
    have hbegun : IsComparison (column ++ [.word "in".toList]) :=
      isComparison_ordinary (by simp) hname (by simp [behindDot])
    have hsplit : membership column list = (column ++ [.word "in".toList])
        ++ (.symbol '(' :: (list ++ [.symbol ')'])) := by
      simp [membership]
    rw [hsplit]
    refine exec_append_some.mpr ⟨_, hbegun.read front g outer hg, ?_⟩
    refine exec_cons_some.mpr ⟨_, step_opening rfl, ?_⟩
    refine exec_append_some.mpr ⟨_, exec_compare (fun token hmem g parts hg => ?_) rfl, ?_⟩
    · obtain ⟨hopening, hclosing⟩ := hlist token hmem
      exact step_nested ((if_neg hopening).trans (if_neg hclosing)) hg
    · have hclosed : Reader.nested 1 (.symbol ')') = some 0 := by decide
      rw [exec_singleton, step_nested hclosed rfl]
      simp [Group.compare]

/-! ## Precedence -/

/-- What a part of a condition is: of `AND`, of `OR`, or of parentheses. -/
inductive Level where
  | factor
  | term
  | whole

namespace Condition

/-- A condition that has parentheses where it needs them. -/
inductive Fits : Level → Condition → Prop where
  | comparison {ts : List Token} : IsComparison ts → Fits .factor (.comparison ts)
  | paren {c : Condition} : Fits .whole c → Fits .factor (.paren c)
  | not {c : Condition} : Fits .factor c → Fits .factor (.not c)
  | factor {c : Condition} : Fits .factor c → Fits .term c
  | and {a b : Condition} : Fits .term a → Fits .factor b → Fits .term (.and a b)
  | term {c : Condition} : Fits .term c → Fits .whole c
  | or {a b : Condition} : Fits .whole a → Fits .term b → Fits .whole (.or a b)

def print : Condition → List Token
  | comparison tokens => tokens
  | paren c => .symbol '(' :: c.print ++ [.symbol ')']
  | not c => .word "not".toList :: c.print
  | and a b => a.print ++ .word "and".toList :: b.print
  | or a b => a.print ++ .word "or".toList :: b.print

end Condition

/-- A part of that level may begin in the group. -/
def Expects (g : Group) : Level → Prop
  | .factor => g.operand = .missing
  | .term => g.operand = .missing ∧ g.nots = 0 ∧ g.conjunction = none
  | .whole => g.operand = .missing ∧ g.nots = 0 ∧ g.conjunction = none ∧ g.disjunction = none

/-- What the group has become when the part has been read. -/
def HasRead (c : Condition) (g g' : Group) : Level → Prop
  | .factor => g'.disjunction = g.disjunction ∧ g'.conjunction = g.conjunction
      ∧ g'.factor = some (Nat.repeat .not g.nots c)
  | .term => g'.disjunction = g.disjunction ∧ g'.term = some c
  | .whole => g'.condition = some c

/-- A part is read wherever it may begin. -/
def IsRead (c : Condition) (level : Level) : Prop :=
  ∀ front g outer, Expects g level → ∃ g', exec Reader.step (.condition front g outer) c.print
    = some (.condition front g' outer) ∧ HasRead c g g' level

/-- Behind something complete. -/
theorem step_complete (hg : g.condition = some c) : ∃ parts, ∀ front outer token,
    Reader.step (.condition front g outer) token
      = Reader.afterOperand front g outer parts false token := by
  -- a group has a condition only if its operand has one
  obtain ⟨a, hterm, _⟩ := Option.map_eq_some_iff.mp hg
  obtain ⟨f, hfactor, _⟩ := Option.map_eq_some_iff.mp hterm
  obtain ⟨o, hoperand, _⟩ := Option.map_eq_some_iff.mp hfactor
  unfold Operand.condition at hoperand
  split at hoperand
  · rename_i parts hcomparison
    split at hoperand
    · cases hoperand
    · rename_i hdot
      rw [Bool.not_eq_true] at hdot
      refine ⟨parts, fun front outer token => ?_⟩
      rw [Reader.step, hcomparison]
      dsimp only
      rw [hdot]
  · rename_i c parts hparen
    refine ⟨parts, fun front outer token => ?_⟩
    rw [Reader.step, hparen]
  · cases hoperand

theorem step_and {a : Condition} (hg : g.condition = some c) (ha : g.term = some a) :
    Reader.step (.condition front g outer) (.word "and".toList) = some (.condition front { g with
      conjunction := some a, nots := 0, operand := .missing,
      tokens := g.tokens ++ [.word "and".toList] } outer) := by
  obtain ⟨parts, hstep⟩ := step_complete hg
  have hand : Token.is "and" (.word "and".toList) = true := by decide
  rw [hstep]
  unfold Reader.afterOperand
  dsimp only
  rw [if_neg Bool.false_ne_true, if_pos hand, ha]
  rfl

theorem step_or (hg : g.condition = some c) :
    Reader.step (.condition front g outer) (.word "or".toList) = some (.condition front { g with
      disjunction := some c, conjunction := none, nots := 0, operand := .missing,
      tokens := g.tokens ++ [.word "or".toList] } outer) := by
  obtain ⟨parts, hstep⟩ := step_complete hg
  have hand : ¬ Token.is "and" (.word "or".toList) = true := by decide
  have hor : Token.is "or" (.word "or".toList) = true := by decide
  rw [hstep]
  unfold Reader.afterOperand
  dsimp only
  rw [if_neg Bool.false_ne_true, if_neg hand, if_pos hor, hg]
  rfl

theorem step_closing {g' : Group} (hg : g'.condition = some c) :
    Reader.step (.condition front g' (g :: outer)) (.symbol ')')
      = some (.condition front { g with
        operand := .paren c (g'.tokens ++ [.symbol ')'])
        tokens := g.tokens ++ (g'.tokens ++ [.symbol ')']) } outer) := by
  obtain ⟨parts, hstep⟩ := step_complete hg
  rw [hstep]
  unfold Reader.afterOperand
  dsimp only
  rw [hg]
  simp [Token.is]

theorem condition_isSome {a : Condition} (h : g.term = some a) : ∃ c, g.condition = some c := by
  unfold Group.condition
  rw [h]
  exact ⟨_, rfl⟩

/-- Behind something complete `AND` and a factor go to the last term. -/
theorem exec_and {a : Condition} (ha : g.term = some a) (hk : IsRead k .factor) :
    ∃ g', exec Reader.step (.condition front g outer) (.word "and".toList :: k.print)
        = some (.condition front g' outer)
      ∧ g'.disjunction = g.disjunction ∧ g'.term = some (.and a k) := by
  obtain ⟨c, hc⟩ := condition_isSome ha
  obtain ⟨g', hrun, hdisjunction, hconjunction, hfactor⟩ := hk front { g with
    conjunction := some a, nots := 0, operand := .missing,
    tokens := g.tokens ++ [.word "and".toList] } outer rfl
  refine ⟨g', exec_cons_some.mpr ⟨_, step_and hc ha, hrun⟩, hdisjunction, ?_⟩
  unfold Group.term
  rw [hfactor, hconjunction]
  rfl

/-- A group that is just closed is the operand of the one around it. -/
theorem IsRead.paren (h : IsRead c .whole) : IsRead (.paren c) .factor := by
  intro front g outer hg
  have hopening : Reader.step (.condition front g outer) (.symbol '(')
      = some (.condition front { tokens := [.symbol '('] } (g :: outer)) := by
    rw [Reader.step, hg]
    simp [Token.is]
  obtain ⟨g', hrun, hread⟩ :=
    h front { tokens := [.symbol '('] } (g :: outer) ⟨rfl, rfl, rfl, rfl⟩
  refine ⟨{ g with
    operand := .paren c (g'.tokens ++ [.symbol ')'])
    tokens := g.tokens ++ (g'.tokens ++ [.symbol ')']) }, ?_, rfl, rfl, rfl⟩
  refine exec_cons_some.mpr ⟨_, hopening, exec_append_some.mpr ⟨_, hrun, ?_⟩⟩
  exact (exec_singleton _ _).trans (step_closing hread)

theorem IsRead.not (h : IsRead c .factor) : IsRead (.not c) .factor := by
  intro front g outer hg
  have hnot : Reader.step (.condition front g outer) (.word "not".toList)
      = some (.condition front { g with
        nots := g.nots + 1, tokens := g.tokens ++ [.word "not".toList] } outer) := by
    have hword : Token.is "not" (.word "not".toList) = true := by decide
    rw [Reader.step, hg]
    dsimp only
    rw [if_pos hword]
  obtain ⟨g', hrun, hdisjunction, hconjunction, hfactor⟩ := h front
    { g with nots := g.nots + 1, tokens := g.tokens ++ [.word "not".toList] } outer hg
  refine ⟨g', exec_cons_some.mpr ⟨_, hnot, hrun⟩, hdisjunction, hconjunction, ?_⟩
  -- the new `NOT` is the innermost one
  have hnots : ∀ n, Nat.repeat Condition.not (n + 1) c = Nat.repeat .not n (.not c) := by
    intro n
    induction n with
    | zero => rfl
    | succ n ih => exact congrArg Condition.not ih
  rw [hfactor, hnots]

theorem IsRead.or {a b : Condition} (ha : IsRead a .whole) (hb : IsRead b .term) :
    IsRead (.or a b) .whole := by
  intro front g outer hg
  obtain ⟨g₁, hrun₁, hread₁⟩ := ha front g outer hg
  obtain ⟨g₂, hrun₂, hdisjunction, hterm⟩ := hb front { g₁ with
    disjunction := some a, conjunction := none, nots := 0, operand := .missing,
    tokens := g₁.tokens ++ [.word "or".toList] } outer ⟨rfl, rfl, rfl⟩
  refine ⟨g₂, exec_append_some.mpr ⟨_, hrun₁, exec_cons_some.mpr ⟨_, step_or hread₁, hrun₂⟩⟩, ?_⟩
  show Group.condition g₂ = _
  unfold Group.condition
  rw [hterm, hdisjunction]
  rfl

/-- **What is printed is read as it was**, at whatever level. -/
theorem Condition.Fits.isRead {level : Level} (h : Condition.Fits level c) : IsRead c level := by
  induction h with
  | comparison hts =>
      intro front g outer hg
      refine ⟨_, hts.read front g outer hg, rfl, rfl, ?_⟩
      simp [Group.factor, Operand.condition, hts.complete]
  | paren _ ih => exact ih.paren
  | not _ ih => exact ih.not
  | factor _ ih =>
      intro front g outer ⟨hg, hnots, hnone⟩
      obtain ⟨g', hrun, hdisjunction, hconjunction, hfactor⟩ := ih front g outer hg
      refine ⟨g', hrun, hdisjunction, ?_⟩
      unfold Group.term
      rw [hfactor, hconjunction, hnone, hnots]
      rfl
  | and _ _ iha ihb =>
      intro front g outer hg
      obtain ⟨g₁, hrun₁, hdisjunction₁, hterm₁⟩ := iha front g outer hg
      obtain ⟨g₂, hrun₂, hdisjunction₂, hterm₂⟩ := exec_and hterm₁ ihb
      exact ⟨g₂, exec_append_some.mpr ⟨_, hrun₁, hrun₂⟩, hdisjunction₂.trans hdisjunction₁, hterm₂⟩
  | term _ ih =>
      intro front g outer ⟨hg, hnots, hnone, hdisjunction⟩
      obtain ⟨g', hrun, hsame, hterm⟩ := ih front g outer ⟨hg, hnots, hnone⟩
      refine ⟨g', hrun, ?_⟩
      show Group.condition g' = _
      unfold Group.condition
      rw [hterm, hsame, hdisjunction]
      rfl
  | or _ _ iha ihb => exact iha.or ihb

/-- A condition stands behind the head as it is printed. -/
theorem exec_whole (h : Condition.Fits .whole c) :
    (exec Reader.step (.condition front {} []) c.print).bind Reader.finish
      = some { head := front, condition := c, tail := [] } := by
  obtain ⟨g', hrun, hread⟩ := h.isRead front {} [] ⟨rfl, rfl, rfl, rfl⟩
  have hcondition : g'.condition = some c := hread
  rw [hrun, Option.bind_some, Reader.finish, hcondition]
  rfl

/-! ## What is appended -/

/-- The part behind the last `OR` is no `OR` itself. -/
theorem term_ne_or {a b : Condition} : g.term ≠ some (.or a b) := by
  intro hterm
  -- it is an `AND`, a `NOT`, a comparison or in parentheses
  obtain ⟨f, hfactor, hf⟩ := Option.map_eq_some_iff.mp hterm
  split at hf
  · cases hf
  · subst hf
    obtain ⟨o, hoperand, ho⟩ := Option.map_eq_some_iff.mp hfactor
    cases hnots : g.nots with
    | succ n =>
        rw [hnots] at ho
        cases ho
    | zero =>
        rw [hnots] at ho
        obtain rfl : o = .or a b := ho
        unfold Operand.condition at hoperand
        split at hoperand
        · split at hoperand <;> cases hoperand
        · cases hoperand
        · cases hoperand

theorem condition_followedBy {a : Condition} {g' : Group} (hg : g.condition = some c)
    (ha : g.term = some a) (hdisjunction : g'.disjunction = g.disjunction)
    (hterm : g'.term = some (.and a k)) : g'.condition = some (c.followedBy k) := by
  have hnone : a.followedBy k = .and a k := by
    cases a with
    | or a b => exact absurd ha term_ne_or
    | comparison | paren | not | and => rfl
  unfold Group.condition at hg ⊢
  rw [ha] at hg
  rw [hterm, hdisjunction]
  cases hor : g.disjunction with
  | none =>
      rw [hor] at hg
      cases hg
      exact congrArg some hnone.symm
  | some d =>
      rw [hor] at hg
      cases hg
      rfl

/-- What is written behind a condition goes to the part behind its last `OR`. -/
theorem exec_restriction (hg : g.condition = some c) (hk : Condition.Fits .factor k) :
    ∃ g', exec Reader.step (.condition front g outer) (.word "and".toList :: k.print)
        = some (.condition front g' outer) ∧ g'.condition = some (c.followedBy k) := by
  obtain ⟨a, ha, _⟩ := Option.map_eq_some_iff.mp hg
  obtain ⟨g', hrun, hdisjunction, hterm⟩ := exec_and ha hk.isRead
  exact ⟨g', hrun, condition_followedBy hg ha hdisjunction hterm⟩

/-! ## Texts -/

/-- What becomes of a statement behind which `AND` and a comparison are written. -/
def SqlStatement.restricted (st : SqlStatement) (comparison : List Token) : SqlStatement :=
  if st.tail = [] then { st with condition := st.condition.followedBy (.comparison comparison) }
  else { st with tail := st.tail ++ .word "and".toList :: comparison }

variable {text select listText : List Char} {st : SqlStatement} {read : List Token}

theorem exec_tail {first : Token} {rest more : List Token} :
    exec Reader.step (.tail front c first rest) more
      = some (.tail front c first (rest ++ more)) := by
  induction more generalizing rest with
  | nil => rw [List.append_nil]; rfl
  | cons token more ih =>
      refine exec_cons_some.mpr ⟨_, rfl, ?_⟩
      rw [ih, List.append_assoc]
      rfl

theorem tokens_restriction (hread : tokens text = some read) (hselect : tokens select = some column)
    (hlist : tokens listText = some list) :
    tokens (text ++ " and ".toList ++ select ++ " in ( ".toList ++ listText ++ ")".toList)
      = some (read ++ .word "and".toList :: membership column list) := by
  have hclosed : tokens (listText ++ [')']) = some (list ++ [.symbol ')']) := by
    rw [SqlText.tokens_append SqlText.separates_closing hlist]
    rfl
  have hopened : tokens ('(' :: ' ' :: (listText ++ [')']))
      = some (.symbol '(' :: (list ++ [.symbol ')'])) := by
    rw [SqlText.tokens_symbol rfl (by simp [SqlText.isRefused]) (by decide), SqlText.tokens_blank,
      hclosed]
    rfl
  have hword : ∀ word : String, word.toList ≠ [] →
      word.toList.all SqlText.isWordChar = true → ∀ {rest more}, tokens rest = some more →
      tokens (word.toList ++ ' ' :: rest) = some (.word word.toList :: more) := by
    intro word hne hchars rest more hrest
    rw [SqlText.tokens_append SqlText.separates_blank
      (SqlText.tokens_word hne (List.all_eq_true.mp hchars)), SqlText.tokens_blank, hrest]
    rfl
  have hin := hword "in" (by decide) (by decide) hopened
  have hcolumn : tokens (select ++ ' ' :: ("in".toList ++ ' ' :: '(' :: ' ' :: (listText ++ [')'])))
      = some (membership column list) := by
    rw [SqlText.tokens_append SqlText.separates_blank hselect, SqlText.tokens_blank, hin]
    rfl
  have hand := hword "and" (by decide) (by decide) hcolumn
  have htext : text ++ " and ".toList ++ select ++ " in ( ".toList ++ listText ++ ")".toList
      = text ++ ' ' :: ("and".toList ++ ' ' :: (select
        ++ ' ' :: ("in".toList ++ ' ' :: '(' :: ' ' :: (listText ++ [')'])))) := by
    simp
  rw [htext, SqlText.tokens_append SqlText.separates_blank hread, SqlText.tokens_blank, hand]
  rfl

theorem sqlStatement_restricted (hst : sqlStatement text = some st)
    (hselect : tokens select = some column) (hcolumn : IsColumn column)
    (hread : tokens listText = some list)
    (hlist : ∀ token ∈ list, token ≠ .symbol '(' ∧ token ≠ .symbol ')') :
    sqlStatement (text ++ " and ".toList ++ select ++ " in ( ".toList ++ listText ++ ")".toList)
      = some (st.restricted (membership column list)) := by
  obtain ⟨read, hread', hst⟩ := Option.bind_eq_some_iff.mp hst
  obtain ⟨r, hexec, hfinish⟩ := Option.bind_eq_some_iff.mp hst
  unfold sqlStatement
  rw [tokens_restriction hread' hselect hread, Option.bind_some, exec_append, hexec,
    Option.bind_some]
  unfold Reader.finish at hfinish
  -- where the text has ended: in its condition, or behind it
  split at hfinish
  · rename_i front g
    obtain ⟨c, hg, rfl⟩ := Option.map_eq_some_iff.mp hfinish
    obtain ⟨g', hrun, hg'⟩ :=
      exec_restriction hg (.comparison (isComparison_membership hcolumn hlist))
    rw [Condition.print] at hrun
    rw [hrun, Option.bind_some, Reader.finish, hg']
    rfl
  · rename_i front c first rest
    cases hfinish
    rw [exec_tail]
    rfl
  · cases hfinish

end TxLcn.Lib
