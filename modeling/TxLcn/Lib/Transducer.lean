import Mathlib.Data.List.Basic
import Mathlib.Data.Option.Basic
import Mathlib.Tactic.Common

/-!
# Transducers

A transducer reads a word letter by letter. At each letter it writes something or
refuses it, and so it does at the end of the word.

Where the words are made of parts, a letter that comes between two parts ends the
first one just as the end of the word would, and the second one is read as if it
were alone.
-/

namespace TxLcn.Lib

universe u v w

structure Transducer (σ : Type u) (α : Type v) (β : Type w) where
  step : σ → α → Option (List β × σ)
  finish : σ → Option (List β)

namespace Transducer

variable {σ : Type u} {α : Type v} {β : Type w} (m : Transducer σ α β) {s s₀ s' : σ} {a : α}
  {word rest : List α} {written : List β}

/-- What is written from a state on. -/
def run : σ → List α → Option (List β)
  | s, [] => m.finish s
  | s, a :: word => (m.step s a).bind fun (written, s') => (run s' word).map (written ++ ·)

/-- The letter ends whatever may end, and goes on as it would from `s₀`. -/
def Breaks (s₀ : σ) (a : α) : Prop :=
  ∀ s written, m.finish s = some written →
    m.step s a = (m.step s₀ a).map fun (written', s') => (written ++ written', s')

variable {m}

theorem run_cons (h : m.step s a = some (written, s')) :
    m.run s (a :: word) = (m.run s' word).map (written ++ ·) := by
  rw [run, h]
  rfl

theorem run_cons_none (h : m.step s a = none) : m.run s (a :: word) = none := by
  rw [run, h]
  rfl

/-- Without writing anything. -/
theorem run_cons_nil (h : m.step s a = some ([], s')) : m.run s (a :: word) = m.run s' word := by
  rw [run_cons h]
  cases m.run s' word <;> rfl

/-- What comes before the letter is read as if it were alone, and so is the rest. -/
theorem run_append_cons (hbreaks : m.Breaks s₀ a) (h : m.run s word = some written) :
    m.run s (word ++ a :: rest) = (m.run s₀ (a :: rest)).map (written ++ ·) := by
  induction word generalizing s written with
  | nil =>
      -- the word ends here, and what the end writes comes before what the letter writes
      have hstep := hbreaks s written h
      rw [List.nil_append]
      cases ha : m.step s₀ a with
      | none =>
          rw [ha] at hstep
          rw [run_cons_none hstep, run_cons_none ha]
          rfl
      | some r =>
          obtain ⟨written', s'⟩ := r
          rw [ha] at hstep
          rw [run_cons hstep, run_cons ha, Option.map_map]
          congr 1
          funext more
          exact List.append_assoc written written' more
  | cons b word ih =>
      rw [List.cons_append]
      cases hb : m.step s b with
      | none =>
          rw [run_cons_none hb] at h
          cases h
      | some r =>
          obtain ⟨written', s'⟩ := r
          rw [run_cons hb] at h
          obtain ⟨more, hmore, rfl⟩ := Option.map_eq_some_iff.mp h
          rw [run_cons hb, ih hmore, Option.map_map]
          congr 1
          funext more'
          exact (List.append_assoc written' more more').symm

end Transducer

end TxLcn.Lib
