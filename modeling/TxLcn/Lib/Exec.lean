import Mathlib.Data.List.Basic
import Mathlib.Tactic.Common

/-!
# Runs of a partial step function

A system is a step function `step : σ → ε → Option σ`, where `none` says that
the event is not enabled. A run is a list of events taken from the left.

Two ways to speak about a whole run recur everywhere above this file:

* `AllSteps step C s es` — every event of the run meets `C` in the state it is
  taken in. This is how a condition on the inputs is put.
* `AllStates step P s es` — every state the run goes through satisfies `P`, the
  first and the last included. This is how a safety property is put.

`allStates_of_allSteps` leads from the first to the second through an invariant,
and `allStates_iff_allSteps` says when the condition is not only enough but
exactly what the property asks for.
-/

namespace TxLcn.Lib

universe u v

variable {σ : Type u} {ε : Type v} {step : σ → ε → Option σ}

/-- Take the events from the left; `none` as soon as one is not enabled. -/
def exec (step : σ → ε → Option σ) : σ → List ε → Option σ
  | s, [] => some s
  | s, e :: es => (step s e).bind fun s' => exec step s' es

@[simp] theorem exec_nil (s : σ) : exec step s [] = some s := rfl

theorem exec_cons (s : σ) (e : ε) (es : List ε) :
    exec step s (e :: es) = (step s e).bind fun s' => exec step s' es := rfl

/-- A run that starts with `e` takes `e` and then runs on. -/
theorem exec_cons_some {s s' : σ} {e : ε} {es : List ε} :
    exec step s (e :: es) = some s' ↔ ∃ t, step s e = some t ∧ exec step t es = some s' := by
  rw [exec_cons, Option.bind_eq_some_iff]

theorem exec_append (s : σ) (es fs : List ε) :
    exec step s (es ++ fs) = (exec step s es).bind fun s' => exec step s' fs := by
  induction es generalizing s with
  | nil => rfl
  | cons e es ih =>
      rw [List.cons_append, exec_cons, exec_cons]
      cases step s e with
      | none => rfl
      | some t => exact ih t

theorem exec_append_some {s s' : σ} {es fs : List ε} :
    exec step s (es ++ fs) = some s' ↔
      ∃ t, exec step s es = some t ∧ exec step t fs = some s' := by
  rw [exec_append, Option.bind_eq_some_iff]

theorem exec_singleton (s : σ) (e : ε) : exec step s [e] = step s e := by
  rw [exec_cons]
  cases step s e <;> rfl

/-- Every event of the run meets `C` in the state it is taken in. -/
def AllSteps (step : σ → ε → Option σ) (C : σ → ε → Prop) : σ → List ε → Prop
  | _, [] => True
  | s, e :: es => ∀ t, step s e = some t → C s e ∧ AllSteps step C t es

/-- Every state of the run satisfies `P`. -/
def AllStates (step : σ → ε → Option σ) (P : σ → Prop) : σ → List ε → Prop
  | s, [] => P s
  | s, e :: es => P s ∧ ∀ t, step s e = some t → AllStates step P t es

variable {C : σ → ε → Prop} {I P : σ → Prop}

@[simp] theorem allSteps_nil (s : σ) : AllSteps step C s [] := trivial

theorem allSteps_cons {s t : σ} {e : ε} {es : List ε} (h : step s e = some t) :
    AllSteps step C s (e :: es) ↔ C s e ∧ AllSteps step C t es := by
  refine ⟨?_, ?_⟩
  · intro hs
    exact hs t h
  · intro hs t' ht'
    rw [h] at ht'
    exact Option.some.inj ht' ▸ hs

theorem allSteps_append {s t : σ} {es fs : List ε} (h : exec step s es = some t) :
    AllSteps step C s (es ++ fs) ↔ AllSteps step C s es ∧ AllSteps step C t fs := by
  induction es generalizing s with
  | nil =>
      cases h
      exact ⟨fun hs => ⟨trivial, hs⟩, And.right⟩
  | cons e es ih =>
      obtain ⟨s₁, h₁, h₂⟩ := exec_cons_some.mp h
      rw [List.cons_append, allSteps_cons h₁, allSteps_cons h₁, ih h₂, and_assoc]

/-- The steps of a run, one by one. -/
theorem allSteps_iff_split {s : σ} {es : List ε} :
    AllSteps step C s es ↔ ∀ pre e post t t', es = pre ++ e :: post →
      exec step s pre = some t → step t e = some t' → C t e := by
  induction es generalizing s with
  | nil =>
      refine ⟨?_, ?_⟩
      · intro _ pre e post t t' hsplit
        exact absurd hsplit.symm (by simp)
      · intro _; trivial
  | cons e es ih =>
      refine ⟨?_, ?_⟩
      · intro h pre e' post t t' hsplit hrun hstep
        cases pre with
        | nil =>
            obtain ⟨rfl, rfl⟩ := List.cons.inj hsplit
            cases hrun
            exact (h t' hstep).1
        | cons e₁ pre =>
            obtain ⟨rfl, rfl⟩ := List.cons.inj hsplit
            obtain ⟨s₁, h₁, h₂⟩ := exec_cons_some.mp hrun
            exact ih.mp (h s₁ h₁).2 pre e' post t t' rfl h₂ hstep
      · intro h t ht
        -- a split of the rest is a split of the whole with `e` in front
        refine ⟨h [] e es s t rfl rfl ht, ih.mpr ?_⟩
        intro pre e' post t₁ t' hsplit hrun hstep
        exact h (e :: pre) e' post t₁ t' (by rw [hsplit]; rfl)
          (exec_cons_some.mpr ⟨t, ht, hrun⟩) hstep

/-- The states of a run are the states its prefixes end in. -/
theorem allStates_iff_split {s : σ} {es : List ε} :
    AllStates step P s es ↔
      ∀ pre post t, es = pre ++ post → exec step s pre = some t → P t := by
  induction es generalizing s with
  | nil =>
      refine ⟨?_, ?_⟩
      · intro h pre post t hsplit hrun
        obtain ⟨rfl, rfl⟩ := List.append_eq_nil_iff.mp hsplit.symm
        cases hrun
        exact h
      · intro h
        exact h [] [] s rfl rfl
  | cons e es ih =>
      refine ⟨?_, ?_⟩
      · intro hall pre post t hsplit hrun
        obtain ⟨hs, hrest⟩ := hall
        cases pre with
        | nil => cases hrun; exact hs
        | cons e' pre =>
            obtain ⟨rfl, rfl⟩ := List.cons.inj hsplit
            obtain ⟨s₁, h₁, h₂⟩ := exec_cons_some.mp hrun
            exact ih.mp (hrest s₁ h₁) pre post t rfl h₂
      · intro h
        refine ⟨h [] (e :: es) s rfl rfl, fun t ht => ih.mpr ?_⟩
        intro pre post t' hsplit hrun
        exact h (e :: pre) post t' (by rw [hsplit]; rfl) (exec_cons_some.mpr ⟨t, ht, hrun⟩)

theorem AllStates.last {s s' : σ} {es : List ε} (h : AllStates step P s es)
    (hrun : exec step s es = some s') : P s' :=
  allStates_iff_split.mp h es [] s' (List.append_nil es).symm hrun

/-! ## Invariants -/

/-- **An invariant of every step is an invariant of every run.** -/
theorem exec_invariant (hstep : ∀ s e t, I s → step s e = some t → I t)
    {s s' : σ} {es : List ε} (hs : I s) (hrun : exec step s es = some s') : I s' := by
  induction es generalizing s with
  | nil => cases hrun; exact hs
  | cons e es ih =>
      obtain ⟨t, h₁, h₂⟩ := exec_cons_some.mp hrun
      exact ih (hstep s e t hs h₁) h₂

/-- The same for an invariant that only the steps meeting `C` preserve. -/
theorem exec_invariant_of_allSteps (hstep : ∀ s e t, I s → C s e → step s e = some t → I t)
    {s s' : σ} {es : List ε} (hs : I s) (hC : AllSteps step C s es)
    (hrun : exec step s es = some s') : I s' := by
  induction es generalizing s with
  | nil => cases hrun; exact hs
  | cons e es ih =>
      obtain ⟨t, h₁, h₂⟩ := exec_cons_some.mp hrun
      obtain ⟨hc, hC'⟩ := hC t h₁
      exact ih (hstep s e t hs hc h₁) hC' h₂

/-- A condition on the events alone. -/
theorem allSteps_of_forall {es : List ε} (h : ∀ e ∈ es, ∀ s, C s e) (s : σ) :
    AllSteps step C s es := by
  induction es generalizing s with
  | nil => trivial
  | cons e es ih =>
      intro t _
      exact ⟨h e List.mem_cons_self s, ih (fun e' he' => h e' (List.mem_cons_of_mem e he')) t⟩

/-- What a condition says may depend on an invariant of the run. -/
theorem AllSteps.mono_of_invariant {D : σ → ε → Prop}
    (hstep : ∀ s e t, I s → step s e = some t → I t) (hCD : ∀ s e, I s → C s e → D s e)
    {s : σ} {es : List ε} (hs : I s) (h : AllSteps step C s es) : AllSteps step D s es := by
  induction es generalizing s with
  | nil => trivial
  | cons e es ih =>
      intro t ht
      obtain ⟨hc, hrest⟩ := h t ht
      exact ⟨hCD s e hs hc, ih (hstep s e t hs ht) hrest⟩

/-- **A condition on the steps gives a property of the states.** -/
theorem allStates_of_allSteps (hIP : ∀ s, I s → P s)
    (hstep : ∀ s e t, I s → C s e → step s e = some t → I t)
    {s : σ} {es : List ε} (hs : I s) (hC : AllSteps step C s es) :
    AllStates step P s es := by
  induction es generalizing s with
  | nil => exact hIP s hs
  | cons e es ih =>
      refine ⟨hIP s hs, fun t ht => ?_⟩
      obtain ⟨hc, hC'⟩ := hC t ht
      exact ih (hstep s e t hs hc ht) hC'

/--
**When the condition is exact.**

If, besides, a step that misses the condition leads at once to a state without
the property, then the runs with the property are exactly the runs that meet the
condition. All this may rest on what is assumed of every step.
-/
theorem allStates_iff_allSteps_assuming {A : σ → ε → Prop} (hIP : ∀ s, I s → P s)
    (hstep : ∀ s e t, I s → A s e → C s e → step s e = some t → I t)
    (hbad : ∀ s e t, I s → A s e → ¬ C s e → step s e = some t → ¬ P t)
    {s : σ} {es : List ε} (hs : I s) (hA : AllSteps step A s es) :
    AllStates step P s es ↔ AllSteps step C s es := by
  induction es generalizing s with
  | nil => exact ⟨fun _ => trivial, fun _ => hIP s hs⟩
  | cons e es ih =>
      refine ⟨fun hall t ht => ?_, fun hC => ⟨hIP s hs, fun t ht => ?_⟩⟩
      · obtain ⟨ha, hA'⟩ := hA t ht
        obtain ⟨_, hrest⟩ := hall
        -- the state after the step has the property, so the step has met the condition
        have hPt : P t := by
          cases es with
          | nil => exact hrest t ht
          | cons _ _ => exact (hrest t ht).1
        have hc : C s e := by
          by_contra hn
          exact hbad s e t hs ha hn ht hPt
        exact ⟨hc, (ih (hstep s e t hs ha hc ht) hA').mp (hrest t ht)⟩
      · obtain ⟨ha, hA'⟩ := hA t ht
        obtain ⟨hc, hrest⟩ := hC t ht
        exact (ih (hstep s e t hs ha hc ht) hA').mpr hrest

/-- Where nothing is assumed. -/
theorem allStates_iff_allSteps (hIP : ∀ s, I s → P s)
    (hstep : ∀ s e t, I s → C s e → step s e = some t → I t)
    (hbad : ∀ s e t, I s → ¬ C s e → step s e = some t → ¬ P t)
    {s : σ} {es : List ε} (hs : I s) :
    AllStates step P s es ↔ AllSteps step C s es :=
  allStates_iff_allSteps_assuming (A := fun _ _ => True) hIP
    (fun s e t hs _ hc h => hstep s e t hs hc h) (fun s e t hs _ hc h => hbad s e t hs hc h) hs
    (allSteps_of_forall (fun _ _ _ => trivial) s)

/-- Where an invariant makes two conditions on a step one, they are one on a run. -/
theorem allSteps_congr_of_invariant {D : σ → ε → Prop}
    (hstep : ∀ s e t, I s → C s e → step s e = some t → I t)
    (hCD : ∀ s e t, I s → step s e = some t → (D s e ↔ C s e))
    {s : σ} {es : List ε} (hs : I s) :
    AllSteps step D s es ↔ AllSteps step C s es := by
  induction es generalizing s with
  | nil => exact ⟨fun _ => trivial, fun _ => trivial⟩
  | cons e es ih =>
      refine ⟨fun h t ht => ?_, fun h t ht => ?_⟩
      · obtain ⟨hd, hrest⟩ := h t ht
        have hc : C s e := (hCD s e t hs ht).mp hd
        exact ⟨hc, (ih (hstep s e t hs hc ht)).mp hrest⟩
      · obtain ⟨hc, hrest⟩ := h t ht
        exact ⟨(hCD s e t hs ht).mpr hc, (ih (hstep s e t hs hc ht)).mpr hrest⟩

/-! ## Counting down -/

/--
**How many of the events are `own`.** If each of them takes one off the rank, the
others none, and nothing leaves `R` once it holds, then either `R` holds in the
end or the rank says how many there have been.
-/
theorem exec_countP_add {own : ε → Bool} (rank : σ → Nat) {R : σ → Prop}
    (hstep : ∀ s e t, I s → C s e → step s e = some t → I t)
    (hR : ∀ s e t, I s → C s e → step s e = some t → R s → R t)
    (hrank : ∀ s e t, I s → C s e → step s e = some t →
      R t ∨ (own e).toNat + rank t = rank s)
    {s t : σ} {es : List ε} (hs : I s) (hC : AllSteps step C s es)
    (hrun : exec step s es = some t) : R t ∨ es.countP own + rank t = rank s := by
  induction es generalizing s with
  | nil =>
      cases hrun
      exact Or.inr (by simp)
  | cons e es ih =>
      obtain ⟨u, hu, hrest⟩ := exec_cons_some.mp hrun
      obtain ⟨hc, hC'⟩ := hC u hu
      have hIu : I u := hstep s e u hs hc hu
      rcases ih hIu hC' hrest with hRt | hcount
      · exact Or.inl hRt
      · rcases hrank s e u hs hc hu with hRu | hone
        · -- what holds after the first event holds in the end
          have hlast : I t ∧ R t := by
            refine exec_invariant_of_allSteps (I := fun v => I v ∧ R v) ?_ ⟨hIu, hRu⟩ hC' hrest
            intro v e' w hv hc' hw
            exact ⟨hstep v e' w hv.1 hc' hw, hR v e' w hv.1 hc' hw hv.2⟩
          exact Or.inl hlast.2
        · refine Or.inr ?_
          have hsplit : (e :: es).countP own = es.countP own + (own e).toNat := by
            rw [List.countP_cons]
            cases own e <;> rfl
          omega

end TxLcn.Lib
