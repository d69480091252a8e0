import TxLcn.Lib.Exec

/-!
# A run seen from one of its parts

A part of a system owns some of the events. Seen from the part, the other events
are not there: they leave what the part can see of the state as it is. A run of
the system, with the events of others left out, is then a run of the part, and
two runs that agree on the events of the part end alike for it, however its
events are interleaved with those of others.
-/

namespace TxLcn.Lib

universe u v

variable {σ τ : Type u} {ε : Type v} {step : σ → ε → Option σ} {part : τ → ε → Option τ}
  {own : ε → Bool} {I : σ → Prop} {R : σ → τ → Prop}

/--
How a part sits in a system whose states satisfy `I`: the part takes its own
events along with the system, and the events of others do not move it.
-/
structure PartOf (step : σ → ε → Option σ) (part : τ → ε → Option τ) (own : ε → Bool)
    (I : σ → Prop) (R : σ → τ → Prop) : Prop where
  keeps : ∀ s e t, I s → step s e = some t → I t
  own_step : ∀ s e t a, I s → R s a → own e = true → step s e = some t →
    ∃ b, part a e = some b ∧ R t b
  other_step : ∀ s e t a, I s → R s a → own e = false → step s e = some t → R t a

/-- **A run, with the events of others left out, is a run of the part.** -/
theorem PartOf.exec_filter (h : PartOf step part own I R) {s t : σ} {a : τ} {es : List ε}
    (hI : I s) (hR : R s a) (hrun : exec step s es = some t) :
    ∃ b, exec part a (es.filter own) = some b ∧ R t b := by
  induction es generalizing s a with
  | nil =>
      cases hrun
      exact ⟨a, rfl, hR⟩
  | cons e es ih =>
      obtain ⟨s', hs', hrest⟩ := exec_cons_some.mp hrun
      have hI' : I s' := h.keeps s e s' hI hs'
      by_cases he : own e = true
      · obtain ⟨a', ha', hR'⟩ := h.own_step s e s' a hI hR he hs'
        obtain ⟨b, hb, hRb⟩ := ih hI' hR' hrest
        refine ⟨b, ?_, hRb⟩
        rw [List.filter_cons_of_pos he]
        exact exec_cons_some.mpr ⟨a', ha', hb⟩
      · have hR' : R s' a := h.other_step s e s' a hI hR (by simpa using he) hs'
        rw [List.filter_cons_of_neg he]
        exact ih hI' hR' hrest

/-- Two runs that agree on the events of the part lead to one state of it. -/
theorem PartOf.exec_agree (h : PartOf step part own I R) {s t t' : σ} {a : τ} {es fs : List ε}
    (hI : I s) (hR : R s a) (hrun : exec step s es = some t) (hrun' : exec step s fs = some t')
    (hown : es.filter own = fs.filter own) : ∃ b, R t b ∧ R t' b := by
  obtain ⟨b, hb, hRb⟩ := h.exec_filter hI hR hrun
  obtain ⟨b', hb', hRb'⟩ := h.exec_filter hI hR hrun'
  -- the part has made the same run twice
  have hsame : some b = some b' := by rw [← hb, ← hb', hown]
  exact ⟨b, hRb, Option.some.inj hsame ▸ hRb'⟩

end TxLcn.Lib
