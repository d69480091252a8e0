import Mathlib.Data.List.Basic
import Mathlib.Tactic.Common

/-!
# Sessions on a transactional store

A session has an auto-commit flag, as sessions of database drivers have. Under it
a change is durable at once; otherwise it is durable once the session commits,
and gone once it rolls back. To turn the flag commits what there is to commit.
What happens to the changes of a session that is closed is not specified
everywhere; here they are gone.

The second half is about programs that work on some state and may throw. What
they have done to the state before they throw stays done.
-/

namespace TxLcn.Lib

universe u

/-- A session, and what is in the store, in the order in which it has come there. -/
structure Session (α : Type u) where
  autoCommit : Bool := true
  uncommitted : List α := []
  closed : Bool := false
  durable : List α := []
  deriving Repr, DecidableEq

namespace Session

variable {α : Type u} {s : Session α} {xs : List α} {b : Bool}

def write (s : Session α) (xs : List α) : Session α :=
  if s.closed then s
  else if s.autoCommit then { s with durable := s.durable ++ xs }
  else { s with uncommitted := s.uncommitted ++ xs }

def commit (s : Session α) : Session α :=
  if s.closed then s else { s with uncommitted := [], durable := s.durable ++ s.uncommitted }

def rollback (s : Session α) : Session α :=
  if s.closed then s else { s with uncommitted := [] }

def setAutoCommit (s : Session α) (autoCommit : Bool) : Session α :=
  if s.closed || s.autoCommit == autoCommit then s else { s.commit with autoCommit }

def close (s : Session α) : Session α := { s with uncommitted := [], closed := true }

/-- Somebody else's change, made durable. -/
def elsewhere (s : Session α) (xs : List α) : Session α := { s with durable := s.durable ++ xs }

/-- Under the flag nothing is left to commit. -/
def Clean (s : Session α) : Prop := s.autoCommit = true → s.uncommitted = []

@[simp] theorem rollback_durable : s.rollback.durable = s.durable := by
  unfold rollback
  split <;> rfl

@[simp] theorem close_durable : s.close.durable = s.durable := rfl

theorem write_durable (h : xs = [] ∨ s.closed = true ∨ s.autoCommit = false) :
    (s.write xs).durable = s.durable := by
  unfold write
  rcases h with rfl | h | h
  · split
    · rfl
    · split <;> simp
  · rw [if_pos h]
  · split
    · rfl
    · rw [if_neg (by simp [h])]

/-- A change under the flag is durable. -/
theorem write_durable_of (hc : s.closed = false) (ha : s.autoCommit = true) :
    (s.write xs).durable = s.durable ++ xs := by
  simp [write, hc, ha]

/-- To take the flag away from a clean session commits nothing. -/
theorem setAutoCommit_false_durable (h : s.Clean) :
    (s.setAutoCommit false).durable = s.durable := by
  unfold setAutoCommit
  split
  · rfl
  · -- the flag was set, and under it there is nothing to commit
    rename_i hne
    simp only [Bool.or_eq_true, not_or, beq_iff_eq, Bool.not_eq_false] at hne
    unfold commit
    split
    · rfl
    · simp [h hne.2]

/-- Nor does it to set the flag of a session with nothing to commit. -/
theorem setAutoCommit_durable (h : s.uncommitted = []) :
    (s.setAutoCommit b).durable = s.durable := by
  unfold setAutoCommit commit
  split
  · rfl
  · split <;> simp [h]

theorem setAutoCommit_autoCommit (hc : s.closed = false) :
    (s.setAutoCommit b).autoCommit = b := by
  unfold setAutoCommit
  split
  · rename_i h
    simpa [hc] using h
  · rfl

@[simp] theorem write_nil : s.write [] = s := by
  unfold write
  split
  · rfl
  · split <;> simp

@[simp] theorem write_closed : (s.write xs).closed = s.closed := by
  unfold write
  split
  · rfl
  · split <;> rfl

@[simp] theorem rollback_closed : s.rollback.closed = s.closed := by
  unfold rollback
  split <;> rfl

@[simp] theorem commit_closed : s.commit.closed = s.closed := by
  unfold commit
  split <;> rfl

@[simp] theorem setAutoCommit_closed : (s.setAutoCommit b).closed = s.closed := by
  unfold setAutoCommit
  split
  · rfl
  · exact commit_closed

theorem rollback_uncommitted (hc : s.closed = false) : s.rollback.uncommitted = [] := by
  simp [rollback, hc]

/-- To set the flag leaves what there is to commit, or commits it. -/
theorem setAutoCommit_uncommitted (h : s.uncommitted = []) :
    (s.setAutoCommit b).uncommitted = [] := by
  unfold setAutoCommit commit
  split
  · exact h
  · split
    · exact h
    · rfl

theorem setAutoCommit_self : s.setAutoCommit s.autoCommit = s := by simp [setAutoCommit]

/-! ## A session stays clean -/

theorem clean_write (h : s.Clean) : (s.write xs).Clean := by
  unfold write
  split
  · exact h
  · split
    · exact h
    · rename_i ha
      intro ht
      exact absurd ht ha

theorem clean_commit (h : s.Clean) : s.commit.Clean := by
  unfold commit
  split
  · exact h
  · exact fun _ => rfl

theorem clean_rollback (h : s.Clean) : s.rollback.Clean := by
  unfold rollback
  split
  · exact h
  · exact fun _ => rfl

theorem clean_setAutoCommit (h : s.Clean) : (s.setAutoCommit b).Clean := by
  unfold setAutoCommit
  split
  · exact h
  · -- the flag changes, which commits what there is
    rename_i hne
    intro _
    unfold commit
    split
    · rename_i hc
      simp [hc] at hne
    · rfl

theorem clean_close : s.close.Clean := fun _ => rfl

end Session

/-! ## Programs that may throw -/

section Programs

variable {ε σ α β : Type u}

/-- Started in `s`, the program returns with `J`, or throws with `E`. -/
def Ends (x : EStateM ε σ α) (s : σ) (J : α → σ → Prop) (E : σ → Prop) : Prop :=
  match x s with
  | .ok a t => J a t
  | .error _ t => E t

/-- The state that a program leaves, whichever way it ends. -/
def stateAfter (x : EStateM ε σ α) (s : σ) : σ :=
  match x s with
  | .ok _ t => t
  | .error _ t => t

/-- A program that returns is followed by the next one. -/
theorem bind_of_ok {x : EStateM ε σ α} {f : α → EStateM ε σ β} {s t : σ} {a : α}
    (h : x s = .ok a t) : (x >>= f) s = f a t := by
  show EStateM.bind x f s = f a t
  unfold EStateM.bind
  rw [h]

/-- A program that throws is the end of it. -/
theorem bind_of_error {x : EStateM ε σ α} {f : α → EStateM ε σ β} {s t : σ} {e : ε}
    (h : x s = .error e t) : (x >>= f) s = .error e t := by
  show EStateM.bind x f s = .error e t
  unfold EStateM.bind
  rw [h]

namespace Ends

variable {x : EStateM ε σ α} {f : α → EStateM ε σ β} {s t : σ} {a : α} {J K : α → σ → Prop}
  {L : β → σ → Prop} {E F : σ → Prop}

theorem of_pure (h : J a s) : Ends (pure a : EStateM ε σ α) s J E := h

theorem of_throw {e : ε} (h : E s) : Ends (throw e : EStateM ε σ α) s J E := h

theorem of_get {J : σ → σ → Prop} (h : J s s) : Ends (get : EStateM ε σ σ) s J E := h

theorem of_modify {g : σ → σ} {J : PUnit → σ → Prop} (h : J ⟨⟩ (g s)) :
    Ends (modify g : EStateM ε σ PUnit) s J E := h

/-- One program after the other. -/
theorem bind (hx : Ends x s K E) (hf : ∀ a t, K a t → Ends (f a) t L E) :
    Ends (x >>= f) s L E := by
  show match EStateM.bind x f s with
    | .ok b t => L b t
    | .error _ t => E t
  unfold EStateM.bind
  unfold Ends at hx
  cases hxs : x s with
  | ok a t =>
      rw [hxs] at hx
      exact hf a t hx
  | error e t =>
      rw [hxs] at hx
      exact hx

theorem mono (h : Ends x s K E) (hJ : ∀ a t, K a t → J a t) (hE : ∀ t, E t → F t) :
    Ends x s J F := by
  unfold Ends at *
  cases hxs : x s with
  | ok a t =>
      rw [hxs] at h
      exact hJ a t h
  | error e t =>
      rw [hxs] at h
      exact hE t h

/-- A program that reads the state goes on in it. -/
theorem bind_get {f : σ → EStateM ε σ β} (hf : Ends (f s) s L E) : Ends (get >>= f) s L E := by
  refine bind (of_get (J := fun r t => r = s ∧ t = s) ⟨rfl, rfl⟩) ?_
  intro r t ⟨hr, ht⟩
  rw [hr, ht]
  exact hf

/-- The first program, should it throw, has done nothing. -/
theorem bind_untouched (hx : Ends x s K (· = s)) (hE : E s)
    (hf : ∀ a t, K a t → Ends (f a) t L E) : Ends (x >>= f) s L E := by
  refine (hx.mono (fun _ _ h => h) fun t ht => ?_).bind hf
  rw [ht]
  exact hE

theorem of_true : Ends x s (fun _ _ => True) (fun _ => True) := by
  unfold Ends
  cases x s <;> trivial

theorem of_ok (h : Ends x s J E) (hx : x s = .ok a t) : J a t := by
  unfold Ends at h
  rwa [hx] at h

theorem state (h : Ends x s (fun _ => E) E) : E (stateAfter x s) := by
  unfold Ends at h
  unfold stateAfter
  cases hxs : x s <;> rw [hxs] at h <;> exact h

end Ends

/-- Whichever way the program ends, the state keeps the property. -/
def Keeps (E : σ → Prop) (x : EStateM ε σ α) : Prop := ∀ s, E s → Ends x s (fun _ => E) E

namespace Keeps

variable {x : EStateM ε σ α} {f : α → EStateM ε σ β} {E : σ → Prop}

theorem of_pure {a : α} : Keeps E (pure a : EStateM ε σ α) := fun _ hs => Ends.of_pure hs

theorem of_throw {e : ε} : Keeps E (throw e : EStateM ε σ α) := fun _ hs => Ends.of_throw hs

theorem of_get : Keeps E (get : EStateM ε σ σ) := fun _ hs => Ends.of_get hs

theorem of_modify {g : σ → σ} (h : ∀ s, E s → E (g s)) :
    Keeps E (modify g : EStateM ε σ PUnit) :=
  fun s hs => Ends.of_modify (h s hs)

theorem bind (hx : Keeps E x) (hf : ∀ a, Keeps E (f a)) : Keeps E (x >>= f) :=
  fun s hs => Ends.bind (hx s hs) fun a t ht => hf a t ht

theorem ite {c : Prop} [Decidable c] {y : EStateM ε σ α} (hx : c → Keeps E x)
    (hy : ¬ c → Keeps E y) : Keeps E (if c then x else y) := by
  split
  · exact hx ‹_›
  · exact hy ‹_›

end Keeps

end Programs

end TxLcn.Lib
