import Mathlib.Logic.Function.Basic
import TxLcn.Protocol.Message

/-!
# Locks and their context

Whoever waits for a message registers a `Lock` under a key with `addKey`, waits
on it, and reads what was put into it. Whoever handles a message looks up the
lock with `getKey`, puts the message into it and signals.

Lock objects are kept: the first `cacheSize` of them are remembered in
`cacheList`, and one that `getKey` hands out is appended to `freeList`, from
where `addKey` takes it again once it is no longer in use.

A lock is referred to by its number, in the order of allocation. `addKey` is
synchronized and is one step; `getKey` is not, and its steps are separate.
-/

namespace TxLcn.Protocol

/-- The two fields of a `Lock` that the program reads. -/
structure Lock where
  res : Option Message := none
  used : Bool := false
  deriving Repr, DecidableEq

def Lock.init (lock : Lock) : Lock := { lock with used := true }

def Lock.setRes (lock : Lock) (res : Message) : Lock := { lock with res := some res }

/-- The first write of `clear`. -/
def Lock.release (lock : Lock) : Lock := { lock with used := false }

/-- The second write of `clear`. -/
def Lock.forget (lock : Lock) : Lock := { lock with res := none }

structure LockContext where
  map : String → Option Nat := fun _ => none
  cacheList : List Nat := []
  freeList : List Nat := []
  /-- The lock objects, and how many there are. -/
  heap : Nat → Lock := fun _ => {}
  allocated : Nat := 0

namespace LockContext

def cacheSize : Nat := 1024

/-- `new Lock()` followed by `init()`. -/
def newLock (c : LockContext) : Nat × LockContext :=
  (c.allocated, { c with
    heap := Function.update c.heap c.allocated (Lock.init {})
    allocated := c.allocated + 1 })

/-- `getFirst` throws on an empty list; that is `none`. What is removed is the first element. -/
def findRpcContent (c : LockContext) : Option (Nat × LockContext) :=
  match c.freeList with
  | [] => none
  | cacheContent :: freeList =>
      if (c.heap cacheContent).used = false then
        some (cacheContent, { c with
          heap := Function.update c.heap cacheContent (c.heap cacheContent).init
          freeList })
      else some c.newLock

def createRpcContent (c : LockContext) : Option (Nat × LockContext) :=
  if c.cacheList.length < cacheSize then
    let (lock, c) := c.newLock
    some (lock, { c with cacheList := c.cacheList ++ [lock] })
  else c.findRpcContent

/-- The map refuses a null key, after the lock has been taken. No lock means an exception. -/
def addKey (c : LockContext) (key : Option String) : Option Nat × LockContext :=
  match c.createRpcContent with
  | none => (none, c)
  | some (lock, c) =>
      match key with
      | none => (none, c)
      | some key => (some lock, { c with map := Function.update c.map key (some lock) })

/-! The steps of `getKey` after its first read of the map: those of `clearKey`. -/

/-- Append the lock, if it is a cached one. -/
def free (c : LockContext) (lock : Option Nat) : LockContext :=
  match lock with
  | some lock => if lock ∈ c.cacheList then { c with freeList := c.freeList ++ [lock] } else c
  | none => c

def removeKey (c : LockContext) (key : String) : LockContext :=
  { c with map := Function.update c.map key none }

def updateLock (c : LockContext) (lock : Nat) (f : Lock → Lock) : LockContext :=
  { c with heap := Function.update c.heap lock (f (c.heap lock)) }

/-! ## What the operations do to the locks and the map -/

variable {c c' : LockContext} {l : Nat}

/-- `addKey` takes a new lock or one from the free list; no message is put or removed. -/
inductive Taken (c : LockContext) (key : Option String) : Option Nat → LockContext → Prop where
  /-- The free list is empty. -/
  | exhausted : c.freeList = [] → Taken c key none c
  | fresh {c' : LockContext} : c'.heap = Function.update c.heap c.allocated (Lock.init {}) →
      c'.map = (key.elim c.map fun k => Function.update c.map k (some c.allocated)) →
      Taken c key (key.map fun _ => c.allocated) c'
  | pooled {c' : LockContext} {l : Nat} : cacheSize ≤ c.cacheList.length →
      c.freeList.head? = some l → (c.heap l).used = false →
      c'.heap = Function.update c.heap l (c.heap l).init →
      c'.map = (key.elim c.map fun k => Function.update c.map k (some l)) →
      Taken c key (key.map fun _ => l) c'

theorem addKey_taken (c : LockContext) (key : Option String) :
    Taken c key (c.addKey key).1 (c.addKey key).2 := by
  unfold addKey createRpcContent
  split
  · rename_i hnone
    split at hnone
    · exact absurd hnone (by simp)
    · unfold findRpcContent at hnone
      split at hnone
      · rename_i hfree
        exact .exhausted hfree
      · split at hnone <;> exact absurd hnone (by simp)
  · rename_i lock c' hsome
    have hcases : (lock = c.allocated
          ∧ c'.heap = Function.update c.heap c.allocated (Lock.init {}) ∧ c'.map = c.map)
        ∨ (cacheSize ≤ c.cacheList.length ∧ c.freeList.head? = some lock
          ∧ (c.heap lock).used = false
          ∧ c'.heap = Function.update c.heap lock (c.heap lock).init ∧ c'.map = c.map) := by
      split at hsome
      · cases hsome
        exact Or.inl ⟨rfl, rfl, rfl⟩
      · rename_i hfull
        unfold findRpcContent at hsome
        split at hsome
        · exact absurd hsome (by simp)
        · rename_i head rest hfree
          split at hsome
          · rename_i hused
            cases hsome
            exact Or.inr ⟨Nat.le_of_not_lt hfull, by rw [hfree]; rfl, hused, rfl, rfl⟩
          · cases hsome
            exact Or.inl ⟨rfl, rfl, rfl⟩
    -- a null key is refused by the map only now that the lock has been taken
    rcases hcases with ⟨rfl, hheap, hmap⟩ | ⟨hfull, hhead, hused, hheap, hmap⟩
    · cases key with
      | none => exact .fresh hheap hmap
      | some k => exact @Taken.fresh c (some k) _ hheap (by simp [hmap])
    · cases key with
      | none => exact .pooled hfull hhead hused hheap hmap
      | some k => exact @Taken.pooled c (some k) _ lock hfull hhead hused hheap (by simp [hmap])

/-- A lock given out by `addKey` is empty, if it is new or was left so. -/
theorem res_addKey_self {key : Option String} (h : c.addKey key = (some l, c'))
    (hpool : cacheSize ≤ c.cacheList.length → c.freeList.head? = some l →
      (c.heap l).used = false → (c.heap l).res = none) : (c'.heap l).res = none := by
  have ht := addKey_taken c key
  rw [h] at ht
  generalize ho : some l = o at ht
  cases ht with
  | exhausted _ => exact absurd ho (by simp)
  | fresh hheap _ =>
      obtain ⟨_, _, rfl⟩ := Option.map_eq_some_iff.mp ho.symm
      rw [hheap, Function.update_self]
      rfl
  | pooled hfull hhead hused hheap _ =>
      obtain ⟨_, _, rfl⟩ := Option.map_eq_some_iff.mp ho.symm
      rw [hheap, Function.update_self]
      exact hpool hfull hhead hused

/-- The key leads to the lock that was given out. -/
theorem map_addKey {key : String} (h : c.addKey (some key) = (some l, c')) :
    c'.map key = some l := by
  have ht := addKey_taken c (some key)
  rw [h] at ht
  generalize ho : some l = o at ht
  cases ht with
  | exhausted _ => exact absurd ho (by simp)
  | fresh _ hmap =>
      cases ho
      rw [hmap]
      exact Function.update_self ..
  | pooled _ _ _ _ hmap =>
      cases ho
      rw [hmap]
      exact Function.update_self ..

/-- `addKey` loses at most the message of an object that did not exist before. -/
theorem res_addKey {key : Option String} {lock : Option Nat} (h : c.addKey key = (lock, c'))
    (l : Nat) : (c'.heap l).res = (c.heap l).res ∨ (c'.heap l).res = none := by
  have ht := addKey_taken c key
  rw [h] at ht
  cases ht with
  | exhausted _ => exact Or.inl rfl
  | fresh hheap _ =>
      by_cases hl : l = c.allocated
      · exact Or.inr (by rw [hheap, hl, Function.update_self]; rfl)
      · exact Or.inl (by rw [hheap, Function.update_of_ne hl])
  | @pooled _ l' _ _ _ hheap _ =>
      by_cases hl : l = l'
      · exact Or.inl (by rw [hheap, hl, Function.update_self]; rfl)
      · exact Or.inl (by rw [hheap, Function.update_of_ne hl])

@[simp] theorem heap_free (c : LockContext) (lock : Option Nat) : (c.free lock).heap = c.heap := by
  unfold free
  split
  · split <;> rfl
  · rfl

end LockContext

end TxLcn.Protocol
