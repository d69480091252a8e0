import Mathlib.Order.WellFounded
import Mathlib.Logic.Relation
import TxLcn.Lib.Prog
import TxLcn.Lib.Projection

/-!
# Clients that keep to one key

A client all of whose commands are about one key neither sees nor changes what
is stored elsewhere. Two things follow for a pool of such clients.

Clients of different keys do not meet: what becomes of a key, and of the clients
about it, is the same whatever the others do in between (`sameAt_of_filter_eq`).

And clients of one key need only be kept apart from each other. If none of them
takes a command while another one about the same key is underway, every client
returns what it returns when all are run alone, one after the other, in the order
in which they finish (`serial_of_apart`). A lock for each key does that.
-/

namespace TxLcn.Lib

namespace Prog

variable {K V α β : Type}

/-- Every command of the program is about `k`. -/
inductive OnKey (k : K) : Prog K V α → Prop where
  | ret (a : α) : OnKey k (ret a)
  | get {next : Option V → Prog K V α} (h : ∀ v, OnKey k (next v)) : OnKey k (get k next)
  | set {v : V} {next : Prog K V α} (h : OnKey k next) : OnKey k (set k v next)

variable {k : K} {p q : Prog K V α} {f : α → Prog K V β} {s t s' t' : K → Option V}

theorem OnKey.getValue (k : K) : OnKey k (getValue k : Prog K V (Option V)) := .get fun v => .ret v

theorem OnKey.setValue (k : K) (v : V) : OnKey k (setValue k v) := .set (.ret ())

theorem OnKey.pure (k : K) (a : α) : OnKey k (Pure.pure a : Prog K V α) := .ret a

theorem OnKey.bind (hp : OnKey k p) (hf : ∀ a, OnKey k (f a)) : OnKey k (p >>= f) := by
  show OnKey k (p.bind f)
  induction hp with
  | ret a => exact hf a
  | get _ ih => exact .get ih
  | set _ ih => exact .set ih

/-- What is left of a program after its next command. -/
inductive Next : Prog K V α → Prog K V α → Prop where
  | get (k : K) (next : Option V → Prog K V α) (v : Option V) : Next (next v) (get k next)
  | set (k : K) (v : V) (next : Prog K V α) : Next next (set k v next)

/-- A program has only so many commands ahead of it, so it never comes back to its first. -/
theorem next_wellFounded : WellFounded (Next : Prog K V α → Prog K V α → Prop) := by
  refine ⟨fun p => ?_⟩
  induction p with
  | ret a => exact ⟨_, fun q h => nomatch h⟩
  | get k next ih =>
      refine ⟨_, fun q h => ?_⟩
      cases h with
      | get _ _ v => exact ih v
  | set k v next ih =>
      refine ⟨_, fun q h => ?_⟩
      cases h with
      | set _ _ _ => exact ih

variable [DecidableEq K]

theorem next_of_step (h : p.step s = some (q, t)) : Next q p := by
  cases p with
  | ret a => exact absurd h (by simp [step])
  | get k next => cases h; exact .get k next (s k)
  | set k v next => cases h; exact .set k v q

/-- A command and the rest make the whole. -/
theorem eval_of_step (h : p.step s = some (q, t)) : q.eval t = p.eval s := by
  cases p with
  | ret a => exact absurd h (by simp [step])
  | get k next => cases h; rfl
  | set k v next => cases h; rfl

theorem OnKey.of_step (hp : OnKey k p) (h : p.step s = some (q, t)) : OnKey k q := by
  cases hp with
  | ret a => exact absurd h (by simp [step])
  | get hn => cases h; exact hn (s k)
  | set hn => cases h; exact hn

/-- A command leaves every other key as it is. -/
theorem OnKey.step_of_ne (hp : OnKey k p) (h : p.step s = some (q, t)) {k' : K} (hk : k' ≠ k) :
    t k' = s k' := by
  cases hp with
  | ret a => exact absurd h (by simp [step])
  | get hn => cases h; rfl
  | set hn => cases h; exact Function.update_of_ne hk ..

/-- And does the same wherever the key holds the same. -/
theorem OnKey.step_congr (hp : OnKey k p) (hst : s k = t k) (h : p.step s = some (q, s')) :
    ∃ t', p.step t = some (q, t') ∧ s' k = t' k := by
  cases hp with
  | ret a => exact absurd h (by simp [step])
  | get hn =>
      cases h
      exact ⟨t, by rw [step, hst], hst⟩
  | @set v next hn =>
      cases h
      refine ⟨Function.update t k (some v), rfl, ?_⟩
      rw [Function.update_self, Function.update_self]

/-- Run alone, the program leaves every other key as it is. -/
theorem OnKey.eval_of_ne (hp : OnKey k p) {k' : K} (hk : k' ≠ k) : (p.eval s).2 k' = s k' := by
  induction hp generalizing s with
  | ret a => rfl
  | get _ ih => exact ih (s k)
  | set _ ih =>
      rw [eval, ih]
      exact Function.update_of_ne hk ..

/-- What it returns and leaves under the key depends on what it finds there only. -/
theorem OnKey.eval_congr (hp : OnKey k p) (h : s k = t k) :
    (p.eval s).1 = (p.eval t).1 ∧ (p.eval s).2 k = (p.eval t).2 k := by
  induction hp generalizing s t with
  | ret a => exact ⟨rfl, h⟩
  | get _ ih =>
      rw [eval, eval, h]
      exact ih (t k) h
  | set _ ih =>
      rw [eval, eval]
      exact ih (by rw [Function.update_self, Function.update_self])

end Prog

/-! ## Pools of such clients -/

namespace Pool

variable {ι K V α : Type} [DecidableEq K] {key : ι → K} {k : K} {P P' Q : Pool ι K V α} {i : ι}

/-- Every client keeps to its key. -/
def Keyed (key : ι → K) (P : Pool ι K V α) : Prop := ∀ i, (P.rest i).OnKey (key i)

/-- The pools agree on the key `k`, and on the clients about it. -/
structure SameAt (key : ι → K) (k : K) (P P' : Pool ι K V α) : Prop where
  store : P.store k = P'.store k
  rest : ∀ i, key i = k → P.rest i = P'.rest i
  done : P.done.filter (fun i => key i = k) = P'.done.filter fun i => key i = k

theorem SameAt.refl (key : ι → K) (k : K) (P : Pool ι K V α) : SameAt key k P P :=
  ⟨rfl, fun _ _ => rfl, rfl⟩

theorem SameAt.symm (h : SameAt key k P P') : SameAt key k P' P :=
  ⟨h.store.symm, fun i hi => (h.rest i hi).symm, h.done.symm⟩

theorem SameAt.trans {P'' : Pool ι K V α} (h : SameAt key k P P') (h' : SameAt key k P' P'') :
    SameAt key k P P'' :=
  ⟨h.store.trans h'.store, fun i hi => (h.rest i hi).trans (h'.rest i hi), h.done.trans h'.done⟩

variable [DecidableEq ι]

theorem keyed_step (hP : Keyed key P) (h : P.step i = some Q) : Keyed key Q := by
  obtain ⟨p, s, heq, rfl⟩ := step_some h
  intro j
  by_cases hj : j = i
  · subst hj
    simp only [Function.update_self]
    exact (hP j).of_step heq
  · simp only [Function.update_of_ne hj]
    exact hP j

/-- A command of another client is not seen. -/
theorem sameAt_of_other (hP : Keyed key P) (hi : key i ≠ k) (h : P.step i = some Q) :
    SameAt key k Q P := by
  obtain ⟨p, s, heq, rfl⟩ := step_some h
  refine ⟨(hP i).step_of_ne heq (Ne.symm hi), ?_, ?_⟩
  · intro j hj
    have hne : j ≠ i := fun he => hi (he ▸ hj)
    exact Function.update_of_ne hne ..
  · dsimp only
    split
    · rw [List.filter_append, List.filter_cons_of_neg (by simpa using hi), List.filter_nil,
        List.append_nil]
    · rfl

/-- A command about the key can be taken in either pool. -/
theorem sameAt_of_own (hP : Keyed key P) (hsame : SameAt key k P P') (hi : key i = k)
    (h : P.step i = some Q) : ∃ Q', P'.step i = some Q' ∧ SameAt key k Q Q' := by
  obtain ⟨p, s, heq, rfl⟩ := step_some h
  have hstore : P.store (key i) = P'.store (key i) := by rw [hi]; exact hsame.store
  obtain ⟨s', heq', hs'⟩ := (hP i).step_congr hstore heq
  rw [hsame.rest i hi] at heq'
  refine ⟨⟨s', Function.update P'.rest i p, if p.isRet then P'.done ++ [i] else P'.done⟩, ?_, ?_⟩
  · rw [step, heq']
  · refine ⟨hi ▸ hs', ?_, ?_⟩
    · intro j hj
      by_cases hne : j = i
      · subst hne
        simp only [Function.update_self]
      · simp only [Function.update_of_ne hne]
        exact hsame.rest j hj
    · dsimp only
      split
      · rw [List.filter_append, List.filter_append, hsame.done]
      · exact hsame.done

/-- The clients about `k` are a part of the pool. -/
theorem partOf_key (key : ι → K) (k : K) : PartOf (step (V := V) (α := α)) step
    (fun i => key i = k) (Keyed key) (SameAt key k) where
  keeps _ _ _ hP h := keyed_step hP h
  own_step _ _ _ _ hP hsame hi h := sameAt_of_own hP hsame (by simpa using hi) h
  other_step _ _ _ _ hP hsame hi h := (sameAt_of_other hP (by simpa using hi) h).trans hsame

/-- **Schedules that agree on the clients about `k` lead to the same at `k`.** -/
theorem sameAt_of_filter_eq {P₀ : Pool ι K V α} {es fs : List ι} (hP : Keyed key P₀)
    (h : exec step P₀ es = some P) (h' : exec step P₀ fs = some P')
    (hes : es.filter (fun i => key i = k) = fs.filter fun i => key i = k) : SameAt key k P P' := by
  obtain ⟨Q, hQ, hQ'⟩ := (partOf_key key k).exec_agree hP (SameAt.refl key k P₀) h h' hes
  exact hQ.trans hQ'.symm

/-! ## Clients kept apart -/

variable {prog : ι → Prog K V α} {s : K → Option V} {es : List ι}

/-- The client has not begun, or has finished. -/
def Idle (prog : ι → Prog K V α) (P : Pool ι K V α) (i : ι) : Prop :=
  P.rest i = prog i ∨ (P.rest i).isRet = true

/-- Every other client about the same key is idle. -/
def Apart (key : ι → K) (prog : ι → Prog K V α) (P : Pool ι K V α) (i : ι) : Prop :=
  ∀ j, j ≠ i → key j = key i → Idle prog P j

/-- Two programs that, each on its store, return the same and leave the same under `k`. -/
def SameEval (k : K) (p : Prog K V α) (s : K → Option V) (q : Prog K V α) (t : K → Option V) :
    Prop :=
  (p.eval s).1 = (q.eval t).1 ∧ (p.eval s).2 k = (q.eval t).2 k

omit [DecidableEq ι] in
/-- Stores that hold the same under the key do as well. -/
theorem SameEval.congr {k : K} {p q : Prog K V α} {s s' t t' : K → Option V} (hp : p.OnKey k)
    (hq : q.OnKey k) (hs : s' k = s k) (ht : t' k = t k) (h : SameEval k p s q t) :
    SameEval k p s' q t' := by
  obtain ⟨hp₁, hp₂⟩ := hp.eval_congr hs
  obtain ⟨hq₁, hq₂⟩ := hq.eval_congr ht
  exact ⟨hp₁.trans (h.1.trans hq₁.symm), hp₂.trans (h.2.trans hq₂.symm)⟩

/--
What holds as long as clients of one key are kept apart: but for those underway,
the pool is where a sequential run of the finished clients is.
-/
structure Serial (key : ι → K) (prog : ι → Prog K V α) (s : K → Option V) (P : Pool ι K V α) :
    Prop where
  progs : ∀ i, (prog i).OnKey (key i)
  keyed : Keyed key P
  /-- A client that has begun is further on in its program. -/
  begun : ∀ i, P.rest i = prog i ∨ Relation.TransGen Prog.Next (P.rest i) (prog i)
  /-- A client underway will end as its program would after the finished clients. -/
  underway : ∀ i, ¬ Idle prog P i →
    SameEval (key i) (P.rest i) P.store (prog i) (sequential prog s P.done)
  store : ∀ k, (∀ i, key i = k → Idle prog P i) → P.store k = sequential prog s P.done k
  /-- Who has finished has returned what it returns after those before it. -/
  returned : ∀ before i after, P.done = before ++ i :: after →
    P.rest i = .ret ((prog i).eval (sequential prog s before)).1

omit [DecidableEq ι] in
theorem serial_start (hprog : ∀ i, (prog i).OnKey (key i)) : Serial key prog s (start prog s) where
  progs := hprog
  keyed := hprog
  begun _ := Or.inl rfl
  underway i hi := absurd (Or.inl rfl) hi
  store _ _ := rfl
  returned before i after h := by
    exact absurd h.symm (by simp [start])

omit [DecidableEq ι] in
theorem isRet_of_step {p q : Prog K V α} {t t' : K → Option V} (h : p.step t = some (q, t')) :
    p.isRet = false := by
  cases p with
  | ret a => exact absurd h (by simp [Prog.step])
  | get k next => rfl
  | set k v next => rfl

/-- What one command of a client does to the pool. -/
theorem step_cases (h : P.step i = some Q) : ∃ p, (P.rest i).step P.store = some (p, Q.store)
    ∧ Q.rest i = p ∧ (∀ j, j ≠ i → Q.rest j = P.rest j)
    ∧ ((p.isRet = false ∧ Q.done = P.done) ∨ ∃ a, p = .ret a ∧ Q.done = P.done ++ [i]) := by
  obtain ⟨p, t, heq, rfl⟩ := step_some h
  refine ⟨p, heq, Function.update_self .., fun j hj => Function.update_of_ne hj .., ?_⟩
  cases p with
  | ret a => exact Or.inr ⟨a, rfl, rfl⟩
  | get k next => exact Or.inl ⟨rfl, rfl⟩
  | set k v next => exact Or.inl ⟨rfl, rfl⟩

/-- Whoever takes a command was going to end as its program does now. -/
theorem Serial.sameEval (hP : Serial key prog s P) (hi : Apart key prog P i)
    (hret : (P.rest i).isRet = false) :
    SameEval (key i) (P.rest i) P.store (prog i) (sequential prog s P.done) := by
  by_cases hidle : Idle prog P i
  · -- nobody is underway on the key, and the client begins now
    have hbegin : P.rest i = prog i := hidle.resolve_right (by simp [hret])
    have hall : ∀ j, key j = key i → Idle prog P j := by
      intro j hj
      by_cases hji : j = i
      · rw [hji]
        exact hidle
      · exact hi j hji hj
    rw [hbegin]
    exact (hbegin ▸ hP.keyed i).eval_congr (hP.store (key i) hall)
  · exact hP.underway i hidle

/-- **Clients that are kept apart stay serial.** -/
theorem serial_step (hP : Serial key prog s P) (hi : Apart key prog P i)
    (h : P.step i = some Q) : Serial key prog s Q := by
  have hkeyed := keyed_step hP.keyed h
  obtain ⟨p, heq, hself, hother, hdone⟩ := step_cases h
  have hret : (P.rest i).isRet = false := isRet_of_step heq
  have hsame := hP.sameEval hi hret
  rw [SameEval, ← Prog.eval_of_step heq] at hsame
  have hbegun : Relation.TransGen Prog.Next p (prog i) := by
    rcases hP.begun i with hb | hb
    · exact .single (hb ▸ Prog.next_of_step heq)
    · exact .head (Prog.next_of_step heq) hb
  -- a client that has taken a command is not where it was at the start
  have hne : p ≠ prog i := by
    intro he
    exact Prog.next_wellFounded.transGen.irrefl.irrefl _ (he ▸ hbegun)
  have hidle : ∀ j, j ≠ i → (Idle prog Q j ↔ Idle prog P j) := by
    intro j hj
    rw [Idle, Idle, hother j hj]
  -- away from the key of `i` neither the pool nor the sequential run has moved
  have hstore : ∀ k, k ≠ key i → Q.store k = P.store k :=
    fun k hk => (hP.keyed i).step_of_ne heq hk
  have hseq : ∀ k, k ≠ key i → sequential prog s Q.done k = sequential prog s P.done k := by
    intro k hk
    rcases hdone with ⟨_, hd⟩ | ⟨a, _, hd⟩
    · rw [hd]
    · rw [hd, sequential_append]
      exact (hP.progs i).eval_of_ne hk
  refine ⟨hP.progs, hkeyed, ?_, ?_, ?_, ?_⟩
  · intro j
    by_cases hj : j = i
    · subst hj
      rw [hself]
      exact Or.inr hbegun
    · rw [hother j hj]
      exact hP.begun j
  · intro j hj
    by_cases hji : j = i
    · subst hji
      rcases hdone with ⟨_, hd⟩ | ⟨a, rfl, _⟩
      · rw [hself, hd]
        exact hsame
      · exact absurd (Or.inr (by rw [hself]; rfl)) hj
    · have hjP : ¬ Idle prog P j := fun hn => hj ((hidle j hji).mpr hn)
      have hk : key j ≠ key i := fun he => hjP (hi j hji he)
      rw [hother j hji]
      exact (hP.underway j hjP).congr (hP.keyed j) (hP.progs j) (hstore _ hk) (hseq _ hk)
  · intro k hall
    by_cases hk : k = key i
    · subst hk
      rcases hdone with ⟨hp, _⟩ | ⟨a, rfl, hd⟩
      · have hiQ := hall i rfl
        rw [Idle, hself, hp] at hiQ
        exact absurd (hiQ.resolve_right (by simp)) hne
      · rw [hd, sequential_append]
        exact hsame.2
    · have hallP : ∀ j, key j = k → Idle prog P j := by
        intro j hj
        have hji : j ≠ i := fun he => hk (by rw [← hj, he])
        exact (hidle j hji).mp (hall j hj)
      rw [hstore k hk, hseq k hk]
      exact hP.store k hallP
  · intro before j after hsplit
    -- a client that had finished before is not the one that takes the command
    have hold : ∀ after', P.done = before ++ j :: after' →
        Q.rest j = .ret ((prog j).eval (sequential prog s before)).1 := by
      intro after' hsplit'
      have hj := hP.returned before j after' hsplit'
      have hji : j ≠ i := by
        intro he
        rw [← he, hj] at hret
        exact absurd hret (by simp [Prog.isRet])
      rw [hother j hji, hj]
    rcases hdone with ⟨_, hd⟩ | ⟨a, rfl, hd⟩
    · exact hold after (hd ▸ hsplit)
    · rw [hd] at hsplit
      rcases List.eq_nil_or_concat after with rfl | ⟨after', j', rfl⟩
      · obtain ⟨rfl, hj⟩ := List.append_inj' hsplit rfl
        obtain rfl : i = j := by simpa using hj
        rw [hself, ← hsame.1]
        rfl
      · rw [List.concat_eq_append, ← List.cons_append, ← List.append_assoc] at hsplit
        exact hold after' (List.append_inj' hsplit rfl).1

/--
**Clients of one key that are kept apart are as good as alone.**

Each returns what it returns after those that finished before it, and a key that
no client is busy with holds what all that have finished make of it.
-/
theorem serial_of_apart (hprog : ∀ i, (prog i).OnKey (key i))
    (hC : AllSteps step (Apart key prog) (start prog s) es)
    (h : exec step (start prog s) es = some P) : Serial key prog s P :=
  exec_invariant_of_allSteps (fun _ _ _ hI hC hstep => serial_step hI hC hstep)
    (serial_start hprog) hC h

end Pool

end TxLcn.Lib
