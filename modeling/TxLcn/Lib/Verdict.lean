import Mathlib.Logic.Function.Basic
import TxLcn.Lib.Exec

/-!
# One decision, carried out by many

What atomic commitment is about, without messages: something is decided once,
and each party, at a time of its own, does what was decided. No two parties can
have done different things.
-/

namespace TxLcn.Lib

/-- What has been decided, and what each party has done about it. -/
structure Verdict (P : Type) where
  decision : Option Bool := none
  outcome : P → Option Bool := fun _ => none

namespace Verdict

/-- What can happen to a verdict. -/
inductive Move (P : Type) where
  | decide (d : Bool)
  | carryOut (p : P)

variable {P : Type}

/-- What has been done is what was decided. -/
def Sound (v : Verdict P) : Prop := ∀ p d, v.outcome p = some d → v.decision = some d

/-- **No two parties do different things.** -/
theorem Sound.agree {v : Verdict P} (hv : v.Sound) {p q : P} {d b : Bool}
    (hp : v.outcome p = some d) (hq : v.outcome q = some b) : d = b :=
  Option.some.inj ((hv p d hp).symm.trans (hv q b hq))

variable [DecidableEq P]

/-- A decision is made once; nothing is carried out before. -/
def step (v : Verdict P) : Move P → Option (Verdict P)
  | .decide d =>
      match v.decision with
      | none => some { v with decision := some d }
      | some _ => none
  | .carryOut p =>
      match v.decision with
      | none => none
      | some d => some { v with outcome := Function.update v.outcome p (some d) }

variable {v w : Verdict P} {p : P} {d : Bool}

theorem step_decide (h : v.decision = none) :
    v.step (.decide d) = some { v with decision := some d } := by
  simp only [step, h]

theorem step_carryOut (h : v.decision = some d) : v.step (.carryOut p)
    = some { v with outcome := Function.update v.outcome p (some d) } := by
  simp only [step, h]

theorem sound_step {m : Move P} (hv : v.Sound) (h : v.step m = some w) : w.Sound := by
  intro q b hq
  cases m with
  | decide d =>
      cases hd : v.decision with
      | some d' => simp [step, hd] at h
      | none =>
          -- nobody can have done anything yet
          rw [step_decide hd] at h
          cases h
          exact absurd (hd.symm.trans (hv q b hq)) (by simp)
  | carryOut p =>
      cases hd : v.decision with
      | none => simp [step, hd] at h
      | some d =>
          rw [step_carryOut hd] at h
          cases h
          by_cases hqp : q = p
          · subst hqp
            dsimp only at hq
            rw [Function.update_self] at hq
            exact hd.trans hq
          · dsimp only at hq
            rw [Function.update_of_ne hqp] at hq
            exact hv q b hq

/-- **In every reachable verdict what has been done is what was decided.** -/
theorem sound_of_exec {ms : List (Move P)} (h : exec step ({} : Verdict P) ms = some v) :
    v.Sound :=
  exec_invariant (fun _ _ _ hv hstep => sound_step hv hstep)
    (fun _ _ hp => absurd hp (by simp)) h

end Verdict

end TxLcn.Lib
