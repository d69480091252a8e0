import TxLcn.Lib.Lease
import TxLcn.Proof.CrossDelivery

/-!
# The pool of locks

A request that has got its lock from `addKey` keeps it until the first write of
`clear`. `getKey` may put that very lock into the free list meanwhile, several
times even, and so may `getKey` for a key whose request is long gone; only the
flag `used` keeps `addKey` from handing it out again.

Two questions about it: whether two requests ever have the same lock, and
whether there always is one. The answer to the first is no. As for the second, a
reply that never arrives leaves nothing in the free list, and a context that has
cached its fill then has no lock to give; `addKey_total` says that this is all
that can go wrong.
-/

namespace TxLcn.Proof

open TxLcn.Lib TxLcn.Protocol Exchange

/-! ## What is in the pool -/

/-- Locks of the lists exist, and a lock that does not exist yet is not in use. -/
structure Pooled (c : LockContext) : Prop where
  cached : ∀ l ∈ c.cacheList, l < c.allocated
  freed : ∀ l ∈ c.freeList, l ∈ c.cacheList
  unused : ∀ l, c.allocated ≤ l → (c.heap l).used = false

theorem pooled_init : Pooled {} where
  cached := by
    intro l hl
    cases hl
  freed := by
    intro l hl
    cases hl
  unused := by
    intro l _
    rfl

section Context

variable {c c' : LockContext} {key : Option String} {l : Nat}

theorem Pooled.newLock (hc : Pooled c) : Pooled c.newLock.2 where
  cached := fun l hl => Nat.lt_succ_of_lt (hc.cached l hl)
  freed := hc.freed
  unused := by
    intro l hl
    -- the new lock is in use, but it exists now
    have hne : l ≠ c.allocated := Nat.ne_of_gt hl
    have hold : (c.heap l).used = false := hc.unused l (Nat.le_of_succ_le hl)
    exact (congrArg Lock.used (Function.update_of_ne hne ..)).trans hold

/-- A lock in use exists. -/
theorem Pooled.lt_allocated (hc : Pooled c) (hused : (c.heap l).used = true) :
    l < c.allocated := by
  by_contra hge
  have hunused := hc.unused l (Nat.le_of_not_lt hge)
  exact absurd (hused.symm.trans hunused) (by decide)

/-- Only a lock that exists may be taken into use. -/
theorem Pooled.updateLock {f : Lock → Lock} (hc : Pooled c)
    (hl : (f (c.heap l)).used = true → l < c.allocated) : Pooled (c.updateLock l f) where
  cached := hc.cached
  freed := hc.freed
  unused := by
    intro l' hl'
    by_cases heq : l' = l
    · have hself : (c.updateLock l f).heap l' = f (c.heap l) := heq ▸ Function.update_self ..
      rw [hself]
      by_contra hused
      have hlt := hl (by simpa using hused)
      exact absurd (heq ▸ hl') (Nat.not_le_of_lt hlt)
    · exact (congrArg Lock.used (Function.update_of_ne heq ..)).trans (hc.unused l' hl')

/-- A change of the message leaves the flag alone. -/
theorem used_updateLock {f : Lock → Lock} (hf : ∀ lock, (f lock).used = lock.used) {l' : Nat} :
    ((c.updateLock l f).heap l').used = (c.heap l').used := by
  by_cases heq : l' = l
  · have hself : (c.updateLock l f).heap l' = f (c.heap l) := heq ▸ Function.update_self ..
    rw [hself, hf, heq]
  · exact congrArg Lock.used (Function.update_of_ne heq ..)

theorem Pooled.findRpcContent (hc : Pooled c) (h : c.findRpcContent = some (l, c')) :
    Pooled c' := by
  unfold LockContext.findRpcContent at h
  split at h
  · cases h
  · rename_i cacheContent freeList hfree
    split at h
    · -- the first lock of the free list is not in use
      cases h
      have hmem : l ∈ c.freeList := hfree ▸ List.mem_cons_self
      have hinit := hc.updateLock (f := Lock.init) fun _ => hc.cached l (hc.freed l hmem)
      refine ⟨hinit.cached, ?_, hinit.unused⟩
      intro l' hl'
      exact hc.freed l' (hfree ▸ List.mem_cons_of_mem _ hl')
    · -- it still is, and a new lock is made that goes into neither list
      cases h
      exact hc.newLock

theorem Pooled.createRpcContent (hc : Pooled c) (h : c.createRpcContent = some (l, c')) :
    Pooled c' := by
  unfold LockContext.createRpcContent at h
  split at h
  · cases h
    have hnew := hc.newLock
    refine ⟨?_, ?_, hnew.unused⟩
    · intro l' hl'
      rcases List.mem_append.mp hl' with hl' | hl'
      · exact hnew.cached l' hl'
      · exact List.mem_singleton.mp hl' ▸ Nat.lt_succ_self c.allocated
    · exact fun l' hl' => List.mem_append_left _ (hc.freed l' hl')
  · exact hc.findRpcContent h

theorem Pooled.addKey {lock : Option Nat} (hc : Pooled c) (h : c.addKey key = (lock, c')) :
    Pooled c' := by
  unfold LockContext.addKey at h
  split at h
  · cases h
    exact hc
  · rename_i lock c'' hcreate
    have hc'' := hc.createRpcContent hcreate
    split at h
    · cases h
      exact hc''
    · cases h
      exact ⟨hc''.cached, hc''.freed, hc''.unused⟩

/-- What `getKey` adds to the free list is cached. -/
theorem Pooled.free (hc : Pooled c) (lock : Option Nat) : Pooled (c.free lock) := by
  unfold LockContext.free
  split
  · split
    · rename_i hmem
      refine ⟨hc.cached, ?_, hc.unused⟩
      intro l' hl'
      rcases List.mem_append.mp hl' with hl' | hl'
      · exact hc.freed l' hl'
      · exact List.mem_singleton.mp hl' ▸ hmem
    · exact hc
  · exact hc

/-- `addKey` hands out a lock that was not in use, and is now. -/
theorem addKey_lends (hc : Pooled c) (h : c.addKey key = (some l, c')) :
    (c.heap l).used = false ∧ (c'.heap l).used = true := by
  have ht := LockContext.addKey_taken c key
  rw [h] at ht
  generalize ho : some l = o at ht
  cases ht with
  | exhausted _ => cases ho
  | fresh hheap _ =>
      obtain ⟨_, _, rfl⟩ := Option.map_eq_some_iff.mp ho.symm
      refine ⟨hc.unused c.allocated (Nat.le_refl _), ?_⟩
      rw [hheap, Function.update_self]
      rfl
  | pooled _ _ hused hheap _ =>
      obtain ⟨_, _, rfl⟩ := Option.map_eq_some_iff.mp ho.symm
      refine ⟨hused, ?_⟩
      rw [hheap, Function.update_self]
      rfl

/-- It takes no lock out of use. -/
theorem used_addKey {lock : Option Nat} (h : c.addKey key = (lock, c'))
    (hused : (c.heap l).used = true) : (c'.heap l).used = true := by
  have ht := LockContext.addKey_taken c key
  rw [h] at ht
  have hupdate : ∀ l' (new : Lock), new.used = true →
      c'.heap = Function.update c.heap l' new → (c'.heap l).used = true := by
    intro l' new hnew hheap
    rw [hheap]
    by_cases hl : l = l'
    · rw [hl, Function.update_self]
      exact hnew
    · rw [Function.update_of_ne hl]
      exact hused
  cases ht with
  | exhausted _ => exact hused
  | fresh hheap _ => exact hupdate _ _ rfl hheap
  | pooled _ _ _ hheap _ => exact hupdate _ _ rfl hheap

/-- It throws on a key exactly when it needs the free list and finds it empty. -/
theorem addKey_eq_none_iff (key : String) : (c.addKey (some key)).1 = none ↔
    LockContext.cacheSize ≤ c.cacheList.length ∧ c.freeList = [] := by
  unfold LockContext.addKey LockContext.createRpcContent
  by_cases hroom : c.cacheList.length < LockContext.cacheSize
  · rw [if_pos hroom]
    simp [hroom]
  · rw [if_neg hroom]
    have hfull : LockContext.cacheSize ≤ c.cacheList.length := Nat.le_of_not_lt hroom
    unfold LockContext.findRpcContent
    cases hfree : c.freeList with
    | nil => simp [hfull]
    | cons cacheContent freeList => cases hused : (c.heap cacheContent).used <;> simp [hused]

end Context

/-! ## Requests that hold a lock -/

/-- What a waiting thread holds, from `addKey` to the first write of `clear`. -/
def holding (held : Option Nat) : WaiterPc → Option Nat
  | .registered lock => some lock
  | .released _ _ => none
  | _ => held

/-- An exchange and, for each waiting thread, the lock it has obtained and not yet given up. -/
structure Outstanding (W H : Type) where
  exchange : Exchange W H := {}
  held : W → Option Nat := fun _ => none

variable {W H : Type} [DecidableEq W] [DecidableEq H]

def Outstanding.step (P : Threads W H) (s : Outstanding W H) :
    Thread W H → Option (Outstanding W H)
  | .waiter w => (s.exchange.stepWaiter P w).map fun exchange =>
      { exchange, held := Function.update s.held w (holding (s.held w) (exchange.waiter w)) }
  | .handler h => (s.exchange.stepHandler P h).map fun exchange => { s with exchange }

/-- Where a waiting thread still refers to its lock. -/
def lock? : WaiterPc → Option Nat
  | .registered lock => some lock
  | .sent lock => some lock
  | .awaited lock => some lock
  | .read lock _ => some lock
  | _ => none

/-- Locks that are held are in use, each by one thread, and the threads know them. -/
structure Owned (s : Outstanding W H) : Prop where
  pool : Pooled s.exchange.context
  leased : Leased s.held fun l => (s.exchange.context.heap l).used = true
  known : ∀ w l, lock? (s.exchange.waiter w) = some l → s.held w = some l

variable {P : Threads W H} {s t : Outstanding W H}

omit [DecidableEq W] [DecidableEq H] in
theorem owned_init : Owned ({} : Outstanding W H) where
  pool := pooled_init
  leased := leased_nobody _
  known := by
    intro w l h
    cases h

omit [DecidableEq H] in
/-- What has to be shown of a step of the waiting thread `w`. -/
theorem Owned.of_waited {w : W} {x : Exchange W H} (hs : Owned s)
    (hw : Waited P s.exchange w x) (hpool : Pooled x.context)
    (hleased : Leased (Function.update s.held w (holding (s.held w) (x.waiter w)))
      fun l => (x.context.heap l).used = true)
    (hknown : ∀ l, lock? (x.waiter w) = some l → holding (s.held w) (x.waiter w) = some l) :
    Owned ⟨x, Function.update s.held w (holding (s.held w) (x.waiter w))⟩ where
  pool := hpool
  leased := hleased
  known := by
    intro w' l hl
    by_cases heq : w' = w
    · subst heq
      exact (Function.update_self ..).trans (hknown l hl)
    · rw [hw.waiter_of_ne heq] at hl
      exact (Function.update_of_ne heq ..).trans (hs.known w' l hl)

omit [DecidableEq H] in
/-- A step after which `w` holds what it held before, if it takes no lock out of use. -/
theorem Owned.of_waited_same {w : W} {x : Exchange W H} (hs : Owned s)
    (hw : Waited P s.exchange w x) (hpool : Pooled x.context)
    (hused : ∀ l, (s.exchange.context.heap l).used = true → (x.context.heap l).used = true)
    (hsame : holding (s.held w) (x.waiter w) = s.held w)
    (hknown : ∀ l, lock? (x.waiter w) = some l → s.held w = some l) :
    Owned ⟨x, Function.update s.held w (holding (s.held w) (x.waiter w))⟩ := by
  refine hs.of_waited hw hpool ?_ ?_
  · rw [hsame, Function.update_eq_self]
    exact hs.leased.mono fun _ l _ => hused l
  · intro l hl
    exact hsame.trans (hknown l hl)

omit [DecidableEq H] in
/-- A step of `w` from one place with its lock to the next. -/
theorem Owned.of_waited_on {w : W} {lock : Nat} {pc : WaiterPc} (hs : Owned s)
    (hw : Waited P s.exchange w (s.exchange.setWaiter w pc))
    (hbefore : lock? (s.exchange.waiter w) = some lock) (hafter : lock? pc = some lock)
    (hsame : holding (s.held w) pc = s.held w) :
    Owned ⟨s.exchange.setWaiter w pc,
      Function.update s.held w (holding (s.held w) ((s.exchange.setWaiter w pc).waiter w))⟩ := by
  refine hs.of_waited_same hw hs.pool (fun _ => id) ?_ ?_ <;> rw [setWaiter_self]
  · exact hsame
  · intro l hl
    exact (hs.known w lock hbefore).trans (hafter.symm.trans hl)

omit [DecidableEq H] in
/-- The last step of `w`, which has no lock, or has taken it out of use before. -/
theorem Owned.of_waited_done {w : W} {x : Exchange W H} {outcome : Outcome} (hs : Owned s)
    (hw : Waited P s.exchange w (x.setWaiter w (.done outcome))) (hpool : Pooled x.context)
    (hused : ∀ l, (s.exchange.context.heap l).used = true → (x.context.heap l).used = true) :
    Owned ⟨x.setWaiter w (.done outcome), Function.update s.held w
      (holding (s.held w) ((x.setWaiter w (.done outcome)).waiter w))⟩ := by
  refine hs.of_waited_same hw hpool hused ?_ ?_ <;> rw [setWaiter_self]
  · rfl
  · intro l hl
    cases hl

omit [DecidableEq H] in
theorem owned_waited {w : W} {x : Exchange W H} (hs : Owned s)
    (hw : Waited P s.exchange w x) :
    Owned ⟨x, Function.update s.held w (holding (s.held w) (x.waiter w))⟩ := by
  have hw' := hw
  cases hw with
  | @refused context _ hadd =>
      have hpool : Pooled context := hs.pool.addKey hadd
      exact hs.of_waited_done hw' hpool fun l => used_addKey hadd
  | @registered lock context hpc hadd =>
      -- nobody has held it, since those that are held are in use
      have hpool : Pooled context := hs.pool.addKey hadd
      obtain ⟨hunused, hused⟩ := addKey_lends hs.pool hadd
      have hfree : ¬ (s.exchange.context.heap lock).used = true := by simp [hunused]
      refine hs.of_waited hw' hpool ?_ ?_
      · rw [setWaiter_self]
        exact hs.leased.take hfree hused fun l => used_addKey hadd
      · intro l hl
        rw [setWaiter_self] at hl ⊢
        exact hl
  | @sent lock hpc => exact hs.of_waited_on hw' (by rw [hpc]; rfl) rfl rfl
  | @awaited lock hpc =>
      have hbefore : lock? (s.exchange.waiter w) = some lock := by
        rcases hpc with hpc | hpc <;> rw [hpc] <;> rfl
      exact hs.of_waited_on hw' hbefore rfl rfl
  | @read lock hpc => exact hs.of_waited_on hw' (by rw [hpc]; rfl) rfl rfl
  | @released lock outcome hpc =>
      -- the one who held it is the one who takes it out of use
      have hheld := hs.known w lock (by rw [hpc]; rfl)
      have hpool : Pooled (s.exchange.context.updateLock lock Lock.release) :=
        hs.pool.updateLock fun hused => absurd hused (by simp [Lock.release])
      refine hs.of_waited hw' hpool ?_ ?_
      · rw [setWaiter_self]
        refine hs.leased.giveBack hheld fun l hne hused => ?_
        exact (congrArg Lock.used (Function.update_of_ne hne ..)).trans hused
      · intro l hl
        rw [setWaiter_self] at hl
        cases hl
  | @committed lock outcome groupId hpc _ =>
      refine hs.of_waited_done hw' ?_ ?_
      · rw [commit_context]
        exact hs.pool
      · intro l hused
        rw [commit_context]
        exact hused
  | @forgotten lock outcome hpc =>
      -- the second write of `clear` may hit a lock that is already another's, but not the flag
      have hpool : Pooled (s.exchange.context.updateLock lock Lock.forget) :=
        hs.pool.updateLock fun hused => hs.pool.lt_allocated hused
      refine hs.of_waited_done hw' hpool ?_
      intro l hused
      exact (used_updateLock (f := Lock.forget) fun _ => rfl).trans hused

omit [DecidableEq W] in
/-- A handling thread changes neither the flags nor who holds what. -/
theorem owned_handles {h : H} {x : Exchange W H} (hs : Owned s)
    (hh : Handles P s.exchange h x) : Owned { s with exchange := x } := by
  have hframe : Pooled x.context ∧
      ∀ l, (x.context.heap l).used = (s.exchange.context.heap l).used := by
    cases hh with
    | ignored _ _ => exact ⟨hs.pool, fun _ => rfl⟩
    | got _ _ => exact ⟨hs.pool, fun _ => rfl⟩
    | clearing _ _ => exact ⟨hs.pool, fun _ => rfl⟩
    | @freed _ clear _ =>
        refine ⟨hs.pool.free clear, fun l => ?_⟩
        exact congrArg (fun heap => (heap l).used) (LockContext.heap_free _ clear)
    | removed _ _ => exact ⟨⟨hs.pool.cached, hs.pool.freed, hs.pool.unused⟩, fun _ => rfl⟩
    | missed _ => exact ⟨hs.pool, fun _ => rfl⟩
    | @resSet _ lock _ _ =>
        refine ⟨hs.pool.updateLock (f := fun lock => lock.setRes (P.message h))
          fun hused => hs.pool.lt_allocated hused, fun l => ?_⟩
        exact used_updateLock (f := fun lock => lock.setRes (P.message h)) fun _ => rfl
    | signalled _ => exact ⟨hs.pool, fun _ => rfl⟩
  refine ⟨hframe.1, ?_, ?_⟩
  · exact hs.leased.mono fun _ l _ hused => (hframe.2 l).trans hused
  · intro w l hl
    rw [hh.waiter] at hl
    exact hs.known w l hl

theorem owned_step {e : Thread W H} (hs : Owned s) (h : s.step P e = some t) : Owned t := by
  cases e with
  | waiter w =>
      obtain ⟨x, hx, rfl⟩ := Option.map_eq_some_iff.mp h
      exact owned_waited hs (stepWaiter_waited hx)
  | handler h' =>
      obtain ⟨x, hx, rfl⟩ := Option.map_eq_some_iff.mp h
      exact owned_handles hs (stepHandler_handles hx)

/-- **Requests that are outstanding at the same time never share a lock.** -/
theorem outstanding_exclusive (P : Threads W H) (es : List (Thread W H)) :
    AllStates (Outstanding.step P) (fun s => Exclusive s.held) {} es :=
  allStates_of_allSteps (C := fun _ _ => True) (fun _ hs => hs.leased.exclusive)
    (fun _ _ _ hs _ h => owned_step hs h) owned_init (allSteps_of_forall (fun _ _ _ => trivial) _)

/-! ## Requests that find no lock -/

/-- No call of `addKey` with a key has thrown, and each has returned a lock marked used. -/
def Served (P : Threads W H) (s : Exchange W H) : Prop :=
  (∀ w, (P.task w).key ≠ none → s.waiter w ≠ .done .noLock)
    ∧ ∀ w lock, s.waiter w = .registered lock → (s.context.heap lock).used = true

/-- Whoever calls `addKey` with a key finds room for another lock, or one in the free list. -/
def Available (P : Threads W H) (s : Exchange W H) (e : Thread W H) : Prop :=
  ∀ w, e = .waiter w → s.waiter w = .start → (P.task w).key ≠ none →
    s.context.cacheList.length < LockContext.cacheSize ∨ s.context.freeList ≠ []

/-- Locks are owned, and nobody with a key has made anything of a refusal. -/
def Granted (P : Threads W H) (s : Exchange W H) : Prop :=
  (∃ held, Owned ⟨s, held⟩)
    ∧ ∀ w, (P.task w).key ≠ none → (s.waiter w).outcome? ≠ some .noLock

section Served

variable {x y : Exchange W H}

omit [DecidableEq W] [DecidableEq H] in
theorem granted_init : Granted P ({} : Exchange W H) :=
  ⟨⟨fun _ => none, owned_init⟩, fun _ _ => by simp [WaiterPc.outcome?]⟩

omit [DecidableEq W] [DecidableEq H] in
theorem Granted.served (hx : Granted P x) : Served P x := by
  obtain ⟨⟨held, howned⟩, hout⟩ := hx
  refine ⟨?_, ?_⟩
  · intro w hkey hdone
    exact hout w hkey (by rw [hdone]; rfl)
  · intro w lock hpc
    have hheld := howned.known w lock (by dsimp only; rw [hpc]; rfl)
    exact howned.leased.marked w lock hheld

/-- Who holds what can be followed along every step of the exchange. -/
theorem exists_outstanding_step (held : W → Option Nat) {e : Thread W H}
    (h : x.step P e = some y) : ∃ held', Outstanding.step P ⟨x, held⟩ e = some ⟨y, held'⟩ := by
  cases e with
  | waiter w => exact ⟨_, Option.map_eq_some_iff.mpr ⟨y, h, rfl⟩⟩
  | handler h' => exact ⟨_, Option.map_eq_some_iff.mpr ⟨y, h, rfl⟩⟩

omit [DecidableEq H] in
/-- Where `addKey` does not throw, nobody is refused. -/
theorem not_refused_of_waited {w : W} (hw : Waited P x w y) (hkey : (P.task w).key ≠ none)
    (hc : Available P x (.waiter w)) (hout : (x.waiter w).outcome? ≠ some .noLock) :
    (y.waiter w).outcome? ≠ some .noLock := by
  cases hw with
  | refused hpc hadd =>
      -- either there was no key, or neither room nor a free lock
      obtain ⟨key, hsome⟩ := Option.ne_none_iff_exists'.mp hkey
      rw [hsome] at hadd
      obtain ⟨hfull, hempty⟩ := (addKey_eq_none_iff key).mp (congrArg Prod.fst hadd)
      rcases hc w rfl hpc hkey with hroom | hfree
      · exact absurd hroom (Nat.not_lt_of_le hfull)
      · exact absurd hempty hfree
  | registered _ _ => simp [WaiterPc.outcome?]
  | sent _ => simp [WaiterPc.outcome?]
  | awaited _ => simp [WaiterPc.outcome?]
  | @read lock _ =>
      rw [setWaiter_self]
      cases x.resAt lock with
      | none => simp [WaiterPc.outcome?, Task.outcome]
      | some res => simp only [WaiterPc.outcome?, Task.outcome]; split <;> simp
  | released hpc => rw [setWaiter_self]; rw [hpc] at hout; exact hout
  | committed hpc _ => rw [setWaiter_self]; rw [hpc] at hout; exact hout
  | forgotten hpc => rw [setWaiter_self]; rw [hpc] at hout; exact hout

theorem granted_step {e : Thread W H} (hx : Granted P x) (hc : Available P x e)
    (h : x.step P e = some y) : Granted P y := by
  obtain ⟨⟨held, howned⟩, hout⟩ := hx
  obtain ⟨held', hstep⟩ := exists_outstanding_step held h
  refine ⟨⟨held', owned_step howned hstep⟩, ?_⟩
  intro w hkey
  by_cases he : e = .waiter w
  · subst he
    exact not_refused_of_waited (stepWaiter_waited h) hkey hc (hout w hkey)
  · rw [waiter_of_step_ne h he]
    exact hout w hkey

/-- Where there is neither room nor a free lock, `addKey` throws. -/
theorem not_served_of_not_available {e : Thread W H} (hc : ¬ Available P x e)
    (h : x.step P e = some y) : ¬ Served P y := by
  simp only [Available, not_forall, not_or, Nat.not_lt, not_not] at hc
  obtain ⟨w, rfl, hstart, hkey, hfull, hempty⟩ := hc
  obtain ⟨key, hsome⟩ := Option.ne_none_iff_exists'.mp hkey
  have hnone := (addKey_eq_none_iff key).mpr ⟨hfull, hempty⟩
  rw [← hsome] at hnone
  intro hy
  -- of the steps of `w` all but the refusal start elsewhere or need a lock
  have hw := stepWaiter_waited h
  cases hw with
  | refused _ _ => exact hy.1 w hkey (setWaiter_self ..)
  | registered _ hadd => exact absurd (hnone.symm.trans (congrArg Prod.fst hadd)) (by simp)
  | sent hpc => exact absurd (hstart.symm.trans hpc) (by simp)
  | awaited hpc =>
      rcases hpc with hpc | hpc <;> exact absurd (hstart.symm.trans hpc) (by simp)
  | read hpc => exact absurd (hstart.symm.trans hpc) (by simp)
  | released hpc => exact absurd (hstart.symm.trans hpc) (by simp)
  | committed hpc _ => exact absurd (hstart.symm.trans hpc) (by simp)
  | forgotten hpc => exact absurd (hstart.symm.trans hpc) (by simp)

end Served

/--
**A lock can be obtained in just the runs in which each call of `addKey` finds
room in the cache or a lock in the free list.**
-/
theorem addKey_total_iff (P : Threads W H) (es : List (Thread W H)) :
    AllStates (step P) (Served P) {} es ↔ AllSteps (step P) (Available P) {} es :=
  allStates_iff_allSteps (fun _ hx => hx.served) (fun _ _ _ hx hc h => granted_step hx hc h)
    (fun _ _ _ _ hc h => not_served_of_not_available hc h) granted_init

/-- `cacheSize` requests that get no reply, and one more. -/
theorem addKey_throws :
    ¬ ∀ (W H : Type) [DecidableEq W] [DecidableEq H] (P : Threads W H) (es : List (Thread W H)),
      AllStates (step P) (Served P) {} es := by
  intro h
  obtain ⟨s, hrun, _, hs⟩ := exec_register LockContext.cacheSize (Nat.le_refl _)
  have hstart : s.waiter LockContext.cacheSize = .start := by
    rw [hs.waiter, if_neg (Nat.lt_irrefl _)]
  have hfull : LockContext.cacheSize ≤ s.context.cacheList.length := by
    rw [hs.cacheList, List.length_range]
  have hkey : (manyRequests.task LockContext.cacheSize).key ≠ none := by
    simp [manyRequests, Task.key, Message.messageId, Message.absMessage]
  have hout : ¬ Available manyRequests s (.waiter LockContext.cacheSize) := by
    intro hc
    rcases hc _ rfl hstart hkey with hroom | hfree
    · exact absurd hroom (Nat.not_lt_of_le hfull)
    · exact absurd hs.freeList hfree
  obtain ⟨t, hstep⟩ : ∃ t, s.step manyRequests (.waiter LockContext.cacheSize) = some t := by
    simp only [step, stepWaiter, hstart]
    split <;> exact ⟨_, rfl⟩
  have hlast := exec_append_some.mpr ⟨s, hrun, (exec_singleton s _).trans hstep⟩
  exact not_served_of_not_available hout hstep ((h Nat Nat manyRequests _).last hlast)

end TxLcn.Proof
