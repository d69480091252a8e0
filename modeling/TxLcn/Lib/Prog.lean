import Mathlib.Data.List.Nodup
import Mathlib.Logic.Function.Basic
import Mathlib.Data.List.Perm.Basic
import TxLcn.Lib.Exec

/-!
# Clients of a key/value store

A client is a program of `get` and `set` commands with pure computation in
between. Each command is atomic; a whole program is not. `Prog.eval` runs a
program alone. A `Pool` runs any number of clients on one store, one command of
one client at a time, in whatever order a schedule says.

A pool is linearizable when what its finished clients did to the store is what
they do alone, one after the other, in an order that keeps every client that
finished before another one's first command in front of it.
`linearizable_of_atomic` gives the usual sufficient condition: no command but a
client's last one changes the store, and the last one changes it to what the
whole program, run at that moment, would make of it.
-/

namespace TxLcn.Lib

/-- A program of atomic commands. -/
inductive Prog (K V α : Type) where
  | ret (a : α)
  | get (k : K) (next : Option V → Prog K V α)
  | set (k : K) (v : V) (next : Prog K V α)

namespace Prog

variable {K V α β : Type}

protected def bind : Prog K V α → (α → Prog K V β) → Prog K V β
  | ret a, f => f a
  | get k next, f => get k fun v => (next v).bind f
  | set k v next, f => set k v (next.bind f)

instance : Monad (Prog K V) where
  pure := ret
  bind := Prog.bind

/-- Read one key. -/
def getValue (k : K) : Prog K V (Option V) := get k ret

/-- Write one key. -/
def setValue (k : K) (v : V) : Prog K V Unit := set k v (ret ())

def isRet : Prog K V α → Bool
  | ret _ => true
  | _ => false

variable [DecidableEq K]

/-- Run a program with nobody else on the store. -/
def eval : Prog K V α → (K → Option V) → α × (K → Option V)
  | ret a, s => (a, s)
  | get k next, s => (next (s k)).eval s
  | set k v next, s => next.eval (Function.update s k (some v))

/-- What a program run alone makes of the store. -/
def effect (p : Prog K V α) (s : K → Option V) : K → Option V := (p.eval s).2

/-- Take the next command; `none` once the program has returned. -/
def step : Prog K V α → (K → Option V) → Option (Prog K V α × (K → Option V))
  | ret _, _ => none
  | get k next, s => some (next (s k), s)
  | set k v next, s => some (next, Function.update s k (some v))

@[simp] theorem eval_pure (a : α) (s : K → Option V) :
    (pure a : Prog K V α).eval s = (a, s) := rfl

@[simp] theorem eval_getValue (k : K) (s : K → Option V) :
    (getValue k : Prog K V (Option V)).eval s = (s k, s) := rfl

@[simp] theorem eval_setValue (k : K) (v : V) (s : K → Option V) :
    (setValue k v).eval s = ((), Function.update s k (some v)) := rfl

@[simp] theorem eval_bind (p : Prog K V α) (f : α → Prog K V β) (s : K → Option V) :
    (p >>= f).eval s = (f (p.eval s).1).eval (p.eval s).2 := by
  show (p.bind f).eval s = _
  induction p generalizing s with
  | ret a => rfl
  | get k next ih => exact ih (s k) s
  | set k v next ih => exact ih (Function.update s k (some v))

/-! ### Programs that write at their end -/

/-- No command but the last one writes. -/
inductive WritesLast : Prog K V α → Prop where
  | ret (a : α) : WritesLast (ret a)
  | get {k : K} {next : Option V → Prog K V α} (h : ∀ v, WritesLast (next v)) :
      WritesLast (get k next)
  | set (k : K) (v : V) (a : α) : WritesLast (set k v (ret a))

omit [DecidableEq K] in
/-- What returns at once can follow. -/
theorem WritesLast.bind {p : Prog K V α} {f : α → Prog K V β} (hp : WritesLast p)
    (hf : ∀ a, ∃ b, f a = pure b) : WritesLast (p >>= f) := by
  show WritesLast (p.bind f)
  induction hp with
  | ret a =>
      obtain ⟨b, hb⟩ := hf a
      rw [Prog.bind, hb]
      exact .ret b
  | get _ ih => exact .get ih
  | set k v a =>
      obtain ⟨b, hb⟩ := hf a
      rw [Prog.bind, Prog.bind, hb]
      exact .set k v b

/-- As long as something is left to do, nothing has been written. -/
theorem WritesLast.step {p q : Prog K V α} {s t : K → Option V} (hp : WritesLast p)
    (h : p.step s = some (q, t)) : WritesLast q ∧ (q.isRet = false → t = s) := by
  cases hp with
  | ret a => cases h
  | get hn =>
      cases h
      exact ⟨hn _, fun _ => rfl⟩
  | set k v a =>
      cases h
      exact ⟨.ret a, fun hret => absurd hret (by simp [isRet])⟩

end Prog

/-! ## Pools of clients -/

/-- Clients at work: the store, what each has left to do, who has finished, in order. -/
structure Pool (ι K V α : Type) where
  store : K → Option V
  rest : ι → Prog K V α
  done : List ι

namespace Pool

variable {ι K V α : Type} [DecidableEq ι] [DecidableEq K]

/-- Nobody has begun. -/
def start (prog : ι → Prog K V α) (s : K → Option V) : Pool ι K V α := ⟨s, prog, []⟩

/-- Client `i` takes its next command. -/
def step (P : Pool ι K V α) (i : ι) : Option (Pool ι K V α) :=
  match (P.rest i).step P.store with
  | none => none
  | some (p, s) =>
      some { store := s
             rest := Function.update P.rest i p
             done := if p.isRet then P.done ++ [i] else P.done }

/-- The clients of `order` run alone, one after the other. -/
def sequential (prog : ι → Prog K V α) (s : K → Option V) (order : List ι) : K → Option V :=
  order.foldl (fun s i => (prog i).effect s) s

omit [DecidableEq ι] in
theorem sequential_append (prog : ι → Prog K V α) (s : K → Option V) (xs ys : List ι) :
    sequential prog s (xs ++ ys) = sequential prog (sequential prog s xs) ys :=
  List.foldl_append

/--
The schedule `es` ended in `P`, and the store is that of a sequential run of the
finished clients, each once, in which whoever had finished before another began
comes first.
-/
def Linearizable (prog : ι → Prog K V α) (s : K → Option V) (es : List ι)
    (P : Pool ι K V α) : Prop :=
  ∃ order : List ι, order.Perm P.done ∧ order.Nodup
    ∧ (∀ pre post Q i j, es = pre ++ post → exec step (start prog s) pre = some Q →
        i ∈ Q.done → j ∉ pre → j ∈ P.done → [i, j].Sublist order)
    ∧ P.store = sequential prog s order

/-- The next command of `i` is invisible, or does at once what the whole program does. -/
def AtomicAt (prog : ι → Prog K V α) (P : Pool ι K V α) (i : ι) : Prop :=
  ∀ p s, (P.rest i).step P.store = some (p, s) →
    (p.isRet = false → s = P.store) ∧ (p.isRet = true → s = (prog i).effect P.store)

theorem step_some {P Q : Pool ι K V α} {i : ι} (h : P.step i = some Q) :
    ∃ p s, (P.rest i).step P.store = some (p, s)
      ∧ Q = { store := s
              rest := Function.update P.rest i p
              done := if p.isRet then P.done ++ [i] else P.done } := by
  unfold step at h
  split at h
  · exact absurd h (by simp)
  · rename_i p s heq
    exact ⟨p, s, heq, (Option.some.inj h).symm⟩

theorem step_done_extends {P Q : Pool ι K V α} {i : ι} (h : P.step i = some Q) :
    P.done <+: Q.done := by
  obtain ⟨p, s, _, rfl⟩ := step_some h
  dsimp only
  split
  · exact List.prefix_append _ _
  · exact List.prefix_rfl

theorem exec_done_extends {P Q : Pool ι K V α} {es : List ι} (h : exec step P es = some Q) :
    P.done <+: Q.done :=
  exec_invariant (I := fun R => P.done <+: R.done)
    (fun _ _ _ hs hstep => hs.trans (step_done_extends hstep)) List.prefix_rfl h

/-- Only clients that took a command finish. -/
theorem mem_of_mem_done {es : List ι} : ∀ {P Q : Pool ι K V α}, exec step P es = some Q →
    ∀ j ∈ Q.done, j ∈ P.done ∨ j ∈ es := by
  induction es with
  | nil => intro P Q h j hj; cases h; exact Or.inl hj
  | cons i es ih =>
      intro P Q h j hj
      obtain ⟨R, h₁, h₂⟩ := exec_cons_some.mp h
      rcases ih h₂ j hj with hR | hes
      · obtain ⟨p, s, _, rfl⟩ := step_some h₁
        dsimp only at hR
        split at hR
        · rcases List.mem_append.mp hR with hP | hi
          · exact Or.inl hP
          · exact Or.inr (List.mem_singleton.mp hi ▸ List.mem_cons_self)
        · exact Or.inl hR
      · exact Or.inr (List.mem_cons_of_mem i hes)

/-- Whoever has finished is in the list once and takes no further command. -/
theorem done_nodup {prog : ι → Prog K V α} {s : K → Option V} {es : List ι}
    {P : Pool ι K V α} (h : exec step (start prog s) es = some P) : P.done.Nodup := by
  have hinv : P.done.Nodup ∧ ∀ i ∈ P.done, (P.rest i).isRet = true := by
    refine exec_invariant (I := fun R => R.done.Nodup ∧ ∀ i ∈ R.done, (R.rest i).isRet = true)
      ?_ ⟨List.nodup_nil, fun i hi => absurd hi List.not_mem_nil⟩ h
    intro R i Q hR hstep
    obtain ⟨hnd, hret⟩ := hR
    obtain ⟨p, s', heq, rfl⟩ := step_some hstep
    -- a client that has finished has no command left, so it is not the one that moves
    have hi : i ∉ R.done := by
      intro hmem
      have hr := hret i hmem
      cases hrest : R.rest i with
      | ret a => rw [hrest] at heq; exact absurd heq (by simp [Prog.step])
      | get k next => rw [hrest] at hr; exact absurd hr (by simp [Prog.isRet])
      | set k v next => rw [hrest] at hr; exact absurd hr (by simp [Prog.isRet])
    have hold : ∀ j ∈ R.done, (Function.update R.rest i p j).isRet = true := by
      intro j hj
      have hne : j ≠ i := fun he => hi (he ▸ hj)
      rw [Function.update_of_ne hne]
      exact hret j hj
    dsimp only
    split
    · rename_i hp
      have hnd' : (R.done ++ [i]).Nodup := by
        rw [← List.concat_eq_append, List.nodup_concat]
        exact ⟨hi, hnd⟩
      refine ⟨hnd', fun j hj => ?_⟩
      rcases List.mem_append.mp hj with hj | hj
      · exact hold j hj
      · rw [List.mem_singleton.mp hj, Function.update_self]
        exact hp
    · exact ⟨hnd, hold⟩
  exact hinv.1

/-- An atomic step keeps the store sequential in the order of completion. -/
theorem step_sequential {prog : ι → Prog K V α} {s : K → Option V} {P Q : Pool ι K V α} {i : ι}
    (hP : P.store = sequential prog s P.done) (ha : AtomicAt prog P i)
    (h : P.step i = some Q) : Q.store = sequential prog s Q.done := by
  obtain ⟨p, s', heq, rfl⟩ := step_some h
  obtain ⟨hinv, hlast⟩ := ha p s' heq
  dsimp only
  cases hret : p.isRet with
  | false => rw [hinv hret, hP]; rfl
  | true =>
      rw [hlast hret, hP]
      exact (sequential_append prog s P.done [i]).symm

/-- A store that is sequential in the order of completion is so in an order as asked for. -/
theorem linearizable_of_sequential {prog : ι → Prog K V α} {s : K → Option V} {es : List ι}
    {P : Pool ι K V α} (hstore : P.store = sequential prog s P.done)
    (h : exec step (start prog s) es = some P) : Linearizable prog s es P := by
  refine ⟨P.done, List.Perm.refl _, done_nodup h, ?_, hstore⟩
  intro pre post Q i j hsplit hpre hi hj hjP
  rw [hsplit, exec_append_some] at h
  obtain ⟨Q', hQ', hpost⟩ := h
  rw [hpre] at hQ'
  cases hQ'
  obtain ⟨later, hlater⟩ := exec_done_extends hpost
  -- `j` had not begun at `Q`, so it is among those that finished later
  have hjQ : j ∉ Q.done := fun hmem =>
    (mem_of_mem_done hpre j hmem).elim (fun h0 => absurd h0 (List.not_mem_nil)) hj
  have hjl : j ∈ later := by
    rw [← hlater, List.mem_append] at hjP
    exact hjP.resolve_left hjQ
  rw [← hlater]
  exact List.Sublist.append (List.singleton_sublist.mpr hi) (List.singleton_sublist.mpr hjl)

/-- **Atomic steps make a pool linearizable**, in the order of completion. -/
theorem linearizable_of_atomic {prog : ι → Prog K V α} {s : K → Option V} {es : List ι}
    {P : Pool ι K V α} (ha : AllSteps step (AtomicAt prog) (start prog s) es)
    (h : exec step (start prog s) es = some P) :
    P.store = sequential prog s P.done ∧ Linearizable prog s es P := by
  have hstore : P.store = sequential prog s P.done :=
    exec_invariant_of_allSteps (I := fun R => R.store = sequential prog s R.done)
      (fun _ _ _ hI hC hstep => step_sequential hI hC hstep) rfl ha h
  exact ⟨hstore, linearizable_of_sequential hstore h⟩

end Pool

end TxLcn.Lib
