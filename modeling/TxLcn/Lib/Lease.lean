import Mathlib.Combinatorics.Enumerative.DoubleCounting
import Mathlib.Logic.Function.Basic
import Mathlib.Tactic.Common

/-!
# Resources held by one party at a time

Parties take resources and give them back. Nobody sees what the others hold: a
party takes a resource because it finds it without a mark, and marks it.

`Leased` is the invariant that makes this enough: whatever is held is marked, so
that what carries no mark is held by nobody.
-/

namespace TxLcn.Lib

universe u v

variable {W : Type u} {R : Type v}

/-- No two parties hold the same resource. -/
def Exclusive (held : W → Option R) : Prop :=
  ∀ w w' r, held w = some r → held w' = some r → w = w'

/-- Whatever is held is marked, and held by one party. -/
structure Leased (held : W → Option R) (mark : R → Prop) : Prop where
  exclusive : Exclusive held
  marked : ∀ w r, held w = some r → mark r

variable {held : W → Option R} {mark mark' : R → Prop} {w : W} {r : R}

/-- Where it is written who has a resource, there is one who has it. -/
theorem exclusive_of_owner (owner : R → Option W)
    (h : ∀ w r, held w = some r → owner r = some w) : Exclusive held := by
  intro w w' r hw hw'
  exact Option.some.inj ((h w r hw).symm.trans (h w' r hw'))

/-- There are no more holders than resources. -/
theorem Exclusive.card_le (h : Exclusive held) {ws : Finset W} {rs : Finset R}
    (hheld : ∀ w ∈ ws, ∃ r ∈ rs, held w = some r) : ws.card ≤ rs.card := by
  refine Finset.card_le_card_of_forall_subsingleton (fun w r => held w = some r) hheld ?_
  rintro r - w ⟨-, hw⟩ w' ⟨-, hw'⟩
  exact h w w' r hw hw'

theorem leased_nobody (mark : R → Prop) : Leased (fun _ : W => none) mark where
  exclusive := by
    intro w w' r h _
    cases h
  marked := by
    intro w r h
    cases h

/-- Marks are added; none of a held resource is taken away. -/
theorem Leased.mono (h : Leased held mark) (hm : ∀ w r, held w = some r → mark r → mark' r) :
    Leased held mark' where
  exclusive := h.exclusive
  marked := fun w r hw => hm w r hw (h.marked w r hw)

variable [DecidableEq W]

/-- A party takes a resource without a mark, and marks it. -/
theorem Leased.take (h : Leased held mark) (hr : ¬ mark r) (hself : mark' r)
    (hm : ∀ r', mark r' → mark' r') : Leased (Function.update held w (some r)) mark' where
  exclusive := by
    have hfree : ∀ w', held w' ≠ some r := fun w' hw' => hr (h.marked w' r hw')
    intro w₁ w₂ r' h₁ h₂
    by_cases hw₁ : w₁ = w
    · by_cases hw₂ : w₂ = w
      · exact hw₁.trans hw₂.symm
      · rw [hw₁, Function.update_self] at h₁
        rw [Function.update_of_ne hw₂] at h₂
        exact absurd (h₂.trans h₁.symm) (hfree w₂)
    · rw [Function.update_of_ne hw₁] at h₁
      by_cases hw₂ : w₂ = w
      · rw [hw₂, Function.update_self] at h₂
        exact absurd (h₁.trans h₂.symm) (hfree w₁)
      · rw [Function.update_of_ne hw₂] at h₂
        exact h.exclusive w₁ w₂ r' h₁ h₂
  marked := by
    intro w' r' hw'
    by_cases heq : w' = w
    · rw [heq, Function.update_self] at hw'
      cases hw'
      exact hself
    · rw [Function.update_of_ne heq] at hw'
      exact hm r' (h.marked w' r' hw')

/-- A party gives up what it holds, and takes the mark off at most that resource. -/
theorem Leased.giveBack (h : Leased held mark) (hw : held w = some r)
    (hm : ∀ r', r' ≠ r → mark r' → mark' r') : Leased (Function.update held w none) mark' where
  exclusive := by
    intro w₁ w₂ r' h₁ h₂
    by_cases hw₁ : w₁ = w
    · rw [hw₁, Function.update_self] at h₁
      cases h₁
    · by_cases hw₂ : w₂ = w
      · rw [hw₂, Function.update_self] at h₂
        cases h₂
      · rw [Function.update_of_ne hw₁] at h₁
        rw [Function.update_of_ne hw₂] at h₂
        exact h.exclusive w₁ w₂ r' h₁ h₂
  marked := by
    intro w' r' hw'
    by_cases heq : w' = w
    · rw [heq, Function.update_self] at hw'
      cases hw'
    · rw [Function.update_of_ne heq] at hw'
      have hother : r' ≠ r := fun hr => heq (h.exclusive w' w r' hw' (hr ▸ hw))
      exact hm r' hother (h.marked w' r' hw')

end TxLcn.Lib
