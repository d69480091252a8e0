import Mathlib.Logic.Function.Basic
import TxLcn.Lib.Exec

/-!
# Forward simulation

A system refines a specification along a relation between their states when
every step of the system is answered by a run of the specification, possibly
an empty one, that restores the relation. Only steps that meet a condition need
an answer, so that a system may refine its specification in some runs only.

`Simulates.allStates` is what it is good for: a property of every reachable
state of the specification becomes one of every state of such a run.

A system of many parts may refine a specification part by part, although the parts
share something: `PartwiseSimulates` asks of an event that its part answers it and
that the relations of the others stand.
-/

namespace TxLcn.Lib

universe u v

variable {σ τ : Type u} {ε α : Type v}

/-- From `a`, the specification has a run to a state that is related to `t`. -/
def Answered (spec : τ → α → Option τ) (R : σ → τ → Prop) (a : τ) (t : σ) : Prop :=
  ∃ as b, exec spec a as = some b ∧ R t b

/-- Every step that meets `C` is answered by a run of `spec`. -/
def Simulates (step : σ → ε → Option σ) (C : σ → ε → Prop) (spec : τ → α → Option τ)
    (R : σ → τ → Prop) : Prop :=
  ∀ s e t a, R s a → C s e → step s e = some t → Answered spec R a t

variable {step : σ → ε → Option σ} {C : σ → ε → Prop} {spec : τ → α → Option τ}
  {R : σ → τ → Prop} {s t : σ} {a : τ}

/-- Where the relation holds nothing has to be done. -/
theorem answered_of_related (h : R t a) : Answered spec R a t := ⟨[], a, rfl, h⟩

/-- Answers are put one after the other. -/
theorem answered_step (h : Simulates step C spec R) {e : ε} (hs : Answered spec R a s)
    (hc : C s e) (hstep : step s e = some t) : Answered spec R a t := by
  obtain ⟨as, b, has, hb⟩ := hs
  obtain ⟨bs, b', hbs, hb'⟩ := h s e t b hb hc hstep
  exact ⟨as ++ bs, b', exec_append_some.mpr ⟨b, has, hbs⟩, hb'⟩

/-- **Whatever holds of the specification's states holds, by the relation, of the system's.** -/
theorem Simulates.allStates (h : Simulates step C spec R) {P : σ → Prop} (hR : R s a)
    (hP : ∀ t as b, exec spec a as = some b → R t b → P t) {es : List ε}
    (hC : AllSteps step C s es) : AllStates step P s es := by
  refine allStates_of_allSteps (I := Answered spec R a) ?_
    (fun _ _ _ hs hc hstep => answered_step h hs hc hstep) (answered_of_related hR) hC
  intro t ht
  obtain ⟨as, b, has, hb⟩ := ht
  exact hP t as b has hb

/-! ## Part by part -/

variable {κ : Type} {key : ε → κ} {answer : ε → List α → Prop} {I : κ → τ → Prop}
  {S : κ → σ → τ → Prop}

/-- Every part is related to a state of its specification that satisfies its invariant. -/
def Related (I : κ → τ → Prop) (S : κ → σ → τ → Prop) (s : σ) : Prop :=
  ∀ k, ∃ a, I k a ∧ S k s a

/--
Each event belongs to a part, which answers it by a run of `spec` of the kind that
`answer` asks for. The relations of the other parts stand.
-/
structure PartwiseSimulates (step : σ → ε → Option σ) (C : σ → ε → Prop) (key : ε → κ)
    (spec : τ → α → Option τ) (answer : ε → List α → Prop) (I : κ → τ → Prop)
    (S : κ → σ → τ → Prop) : Prop where
  keeps : ∀ k a x b, I k a → spec a x = some b → I k b
  own : ∀ s e t a, Related I S s → C s e → step s e = some t → I (key e) a → S (key e) s a →
    ∃ as b, answer e as ∧ exec spec a as = some b ∧ S (key e) t b
  other : ∀ s e t k a, Related I S s → C s e → step s e = some t → k ≠ key e → S k s a → S k t a

/--
**A run of the system is, for each part, a run of its specification.** The latter
is made of the answers to the part's own events, in order. What is asked of these
events (`E`) can be passed on to the answers (`D`).
-/
theorem PartwiseSimulates.exec_part [DecidableEq κ]
    (h : PartwiseSimulates step C key spec answer I S) {a : κ → τ} {es : List ε}
    (hI : ∀ k, I k (a k)) (hS : ∀ k, S k s (a k)) (hC : AllSteps step C s es)
    (hrun : exec step s es = some t) (k : κ) {D : τ → α → Prop} {E : σ → ε → Prop}
    (hD : ∀ s e a as, S k s a → key e = k → E s e → answer e as → AllSteps spec D a as)
    (hE : AllSteps step (fun s e => key e = k → E s e) s es) :
    ∃ ass b, List.Forall₂ answer (es.filter fun e => key e = k) ass
      ∧ exec spec (a k) ass.flatten = some b ∧ I k b ∧ S k t b
      ∧ AllSteps spec D (a k) ass.flatten := by
  induction es generalizing s a with
  | nil =>
      cases hrun
      exact ⟨[], a k, .nil, rfl, hI k, hS k, trivial⟩
  | cons e es ih =>
      obtain ⟨s', hs', hrest⟩ := exec_cons_some.mp hrun
      rw [allSteps_cons hs'] at hC hE
      have hrelated : Related I S s := fun k => ⟨a k, hI k, hS k⟩
      obtain ⟨as, b, hanswer, has, hb⟩ :=
        h.own s e s' (a (key e)) hrelated hC.1 hs' (hI _) (hS _)
      have hIb : I (key e) b := exec_invariant (h.keeps (key e)) (hI _) has
      obtain ⟨ass, b', hall, hass, hIb', hSb', hDb'⟩ := ih (a := Function.update a (key e) b)
        (fun k' => by
          by_cases hk' : k' = key e
          · subst hk'
            rw [Function.update_self]
            exact hIb
          · rw [Function.update_of_ne hk']
            exact hI k')
        (fun k' => by
          by_cases hk' : k' = key e
          · subst hk'
            rw [Function.update_self]
            exact hb
          · rw [Function.update_of_ne hk']
            exact h.other s e s' k' (a k') hrelated hC.1 hs' hk' (hS k'))
        hC.2 hrest hE.2
      by_cases hk : key e = k
      · subst hk
        rw [Function.update_self] at hass hDb'
        refine ⟨as :: ass, b', ?_, ?_, hIb', hSb', ?_⟩
        · rw [List.filter_cons_of_pos (by simp)]
          exact .cons hanswer hall
        · exact exec_append_some.mpr ⟨b, has, hass⟩
        · exact (allSteps_append has).mpr ⟨hD s e _ as (hS _) rfl (hE.1 rfl) hanswer, hDb'⟩
      · rw [Function.update_of_ne (Ne.symm hk)] at hass hDb'
        refine ⟨ass, b', ?_, hass, hIb', hSb', hDb'⟩
        rw [List.filter_cons_of_neg (by simpa using hk)]
        exact hall

end TxLcn.Lib
