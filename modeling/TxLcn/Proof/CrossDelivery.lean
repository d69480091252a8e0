import TxLcn.Protocol.Exchange

/-!
# Whether a request can get somebody else's reply

A lock is found by key, but it is filled by reference: between `getKey` and
`setRes` the one who waited may have given up, and the lock may serve another
request by then. And a lock that was filled after its request had cleared it
stays filled while it lies in the free list; `init` does not empty it.

`no_cross_delivery` says that nothing else can happen: if every lock taken from
the free list is empty, and no message is put into a lock that a request with
another key is using, each request gets a message with its own key or none.
-/

namespace TxLcn.Proof

open TxLcn.Lib TxLcn.Protocol Exchange

variable {W H : Type} [DecidableEq W] [DecidableEq H]

/-- Every message that was returned carries the key of the request it was returned to. -/
def Matched (P : Threads W H) (s : Exchange W H) : Prop :=
  ∀ w m, s.waiter w = .done (.returned (some m)) → m.messageId = (P.task w).key

/--
A thread that is about to register finds the first lock of the free list, if it
gets that one, empty; a thread that is about to put its message into a lock does
not meet a request with another key there.
-/
def Clean (P : Threads W H) (s : Exchange W H) : Thread W H → Prop
  | .waiter w => s.waiter w = .start →
      LockContext.cacheSize ≤ s.context.cacheList.length →
      ∀ lock, s.context.freeList.head? = some lock → (s.context.heap lock).used = false →
        s.resAt lock = none
  | .handler h => ∀ lock, s.handler h = .removed (some lock) →
      ∀ w, Holds s w lock → (P.message h).messageId = (P.task w).key

/-! ## The invariant -/

/-- Messages are where they belong. -/
structure Delivered (P : Threads W H) (s : Exchange W H) : Prop where
  /-- A lock in use is empty, or holds a message for its user. -/
  held : ∀ w lock m, Holds s w lock → s.resAt lock = some m → m.messageId = (P.task w).key
  /-- What has been read was for the one who read it. -/
  read : ∀ w m, (s.waiter w).outcome? = some (.returned (some m)) →
    m.messageId = (P.task w).key

variable {P : Threads W H} {s t : Exchange W H}

omit [DecidableEq W] [DecidableEq H] in
theorem delivered_init : Delivered P ({} : Exchange W H) where
  held := by
    rintro w lock m (h | h | h) _ <;> exact absurd h (by simp)
  read := by
    intro w m h
    exact absurd h (by simp [WaiterPc.outcome?])

omit [DecidableEq W] [DecidableEq H] in
theorem Delivered.matched (hs : Delivered P s) : Matched P s := by
  intro w m hdone
  exact hs.read w m (by rw [hdone]; rfl)

omit [DecidableEq H] in
/-- A waiting thread holds, after its step, an empty lock or one it has held before. -/
theorem holds_waited {w : W} {lock : Nat} (hc : Clean P s (.waiter w)) (hw : Waited P s w t)
    (hh : Holds t w lock) : t.resAt lock = none ∨ Holds s w lock := by
  cases hw with
  | refused _ _ => rw [holds_self] at hh; simp at hh
  | registered hpc hadd =>
      rw [holds_self] at hh
      simp only [WaiterPc.registered.injEq, reduceCtorEq, or_self, or_false] at hh
      subst hh
      -- a new lock is empty, and in a clean run so is one from the free list
      exact Or.inl (LockContext.res_addKey_self hadd fun hfull => hc hpc hfull _)
  | sent hpc =>
      rw [holds_self] at hh
      simp only [WaiterPc.sent.injEq, reduceCtorEq, false_or, or_false] at hh
      subst hh
      exact Or.inr (Or.inl hpc)
  | awaited hpc =>
      rw [holds_self] at hh
      simp only [WaiterPc.awaited.injEq, reduceCtorEq, false_or] at hh
      subst hh
      rcases hpc with hpc | hpc
      · exact Or.inr (Or.inl hpc)
      · exact Or.inr (Or.inr (Or.inl hpc))
  | read _ => rw [holds_self] at hh; simp at hh
  | released _ => rw [holds_self] at hh; simp at hh
  | committed _ _ => rw [holds_self] at hh; simp at hh
  | forgotten _ => rw [holds_self] at hh; simp at hh

omit [DecidableEq H] in
theorem delivered_waited {w : W} (hs : Delivered P s) (hc : Clean P s (.waiter w))
    (hw : Waited P s w t) : Delivered P t := by
  refine ⟨?_, ?_⟩
  · intro w' lock m hh hres
    -- a waiting thread empties locks, and fills none
    have hsame : s.resAt lock = some m := by
      rcases hw.resAt lock with h | h
      · exact h.symm.trans hres
      · exact absurd (h.symm.trans hres) (by simp)
    by_cases hne : w' = w
    · subst hne
      rcases holds_waited hc hw hh with h | h
      · exact absurd (h.symm.trans hres) (by simp)
      · exact hs.held w' lock m h hsame
    · rw [Holds, hw.waiter_of_ne hne] at hh
      exact hs.held w' lock m hh hsame
  · intro w' m hout
    by_cases hne : w' = w
    · subst hne
      rcases hw.outcome? hout with hold | hno | ⟨lock, hpc, hread⟩
      · exact hs.read w' m hold
      · cases hno
      · exact hs.held w' lock m (Or.inr (Or.inr hpc)) (Task.outcome_eq_returned hread.symm)
    · rw [hw.waiter_of_ne hne] at hout
      exact hs.read w' m hout

omit [DecidableEq W] in
theorem delivered_handles {h : H} (hs : Delivered P s) (hc : Clean P s (.handler h))
    (hh : Handles P s h t) : Delivered P t := by
  refine ⟨?_, ?_⟩
  · intro w lock m hhold hres
    rw [Holds, hh.waiter] at hhold
    rcases hh.resAt lock with hold | ⟨_, hpc, hnew⟩
    · exact hs.held w lock m hhold (hold.symm.trans hres)
    · -- the message has just been put there
      cases hnew.symm.trans hres
      exact hc lock hpc w hhold
  · rw [hh.waiter]
    exact hs.read

theorem delivered_step {e : Thread W H} (hs : Delivered P s) (hc : Clean P s e)
    (h : s.step P e = some t) : Delivered P t := by
  cases e with
  | waiter w => exact delivered_waited hs hc (stepWaiter_waited h)
  | handler h' => exact delivered_handles hs hc (stepHandler_handles h)

/-- **In a run of clean steps no request gets a message with another key.** -/
theorem no_cross_delivery {es : List (Thread W H)} (hC : AllSteps (step P) (Clean P) {} es) :
    AllStates (step P) (Matched P) {} es :=
  allStates_of_allSteps (fun _ hs => hs.matched)
    (fun _ _ _ hs hc h => delivered_step hs hc h) delivered_init hC

/-! ## A lock that is used again -/

/-- A request that has registered its lock waits on it. -/
theorem exec_await {w : W} {lock : Nat} {overload : Overload} {message : Message}
    (htask : P.task w = .request overload message) (hpc : s.waiter w = .registered lock) :
    exec (step P) s (List.replicate 2 (.waiter w)) = some (s.setWaiter w (.awaited lock)) := by
  simp [List.replicate, exec_cons, step, stepWaiter, hpc, htask, setWaiter, Function.update_idem]

/-- If it is not interrupted then, it reads what is in the lock and clears it. -/
theorem exec_read {w : W} (lock : Nat) {overload : Overload} {message : Message}
    (htask : P.task w = .request overload message) (hpc : s.waiter w = .awaited lock) :
    exec (step P) s (List.replicate 3 (.waiter w)) = some
      { s with
        context := (s.context.updateLock lock Lock.release).updateLock lock Lock.forget
        waiter := Function.update s.waiter w (.done ((P.task w).outcome (s.resAt lock))) } := by
  simp [List.replicate, exec_cons, step, stepWaiter, hpc, htask, setWaiter, withLock, resAt,
    Function.update_idem]

/-- A request that has registered its lock and is not interrupted reads what is in it. -/
theorem exec_request {w : W} {lock : Nat} {overload : Overload} {message : Message}
    (htask : P.task w = .request overload message) (hpc : s.waiter w = .registered lock) :
    exec (step P) s (List.replicate 5 (.waiter w)) = some
      { s with
        context := (s.context.updateLock lock Lock.release).updateLock lock Lock.forget
        waiter := Function.update s.waiter w (.done ((P.task w).outcome (s.resAt lock))) } := by
  have hsplit : List.replicate 5 (Thread.waiter (H := H) w)
      = List.replicate 2 (.waiter w) ++ List.replicate 3 (.waiter w) := rfl
  rw [hsplit, exec_append, exec_await htask hpc, Option.bind_some,
    exec_read lock htask (setWaiter_self ..)]
  simp [setWaiter, resAt, Function.update_idem]

/-- A handler that finds a lock and is not interrupted frees it, then fills it. -/
theorem exec_handler {h : H} {key : String} {lock : Nat}
    (hid : (P.message h).messageId = some key) (hpc : s.handler h = .start)
    (hmap : s.context.map key = some lock) :
    exec (step P) s (List.replicate 6 (.handler h)) = some
      { s with
        context := ((s.context.free (some lock)).removeKey key).updateLock lock
          (·.setRes (P.message h))
        handler := Function.update s.handler h .done } := by
  simp [List.replicate, exec_cons, step, stepHandler, hid, hpc, hmap, setHandler, withLock,
    Function.update_idem]

/-- Request number `i`. -/
def requestKey (i : Nat) : String := String.ofList (List.replicate i 'a')

theorem requestKey_injective {i j : Nat} (h : requestKey i = requestKey j) : i = j := by
  have hlen := congrArg String.length h
  simpa [requestKey] using hlen

/-- Any number of requests, and a reply to each. -/
def manyRequests : Threads Nat Nat where
  task i := .request .snowflakeMessage (.snowflake { messageId := some (requestKey i) })
  message i := .snowflake { messageId := some (requestKey i), groupId := some "g", logId := 7 }

/-- `n` requests have registered, each on a lock of its own. -/
structure Registered (n : Nat) (s : Exchange Nat Nat) : Prop where
  cacheList : s.context.cacheList = List.range n
  allocated : s.context.allocated = n
  freeList : s.context.freeList = []
  heap : ∀ i < n, s.context.heap i = { used := true }
  map : ∀ i < n, s.context.map (requestKey i) = some i
  waiter : ∀ i, s.waiter i = if i < n then .registered i else .start
  handler : ∀ i, s.handler i = .start

theorem registered_step {n : Nat} {s : Exchange Nat Nat} (hs : Registered n s)
    (hn : n < LockContext.cacheSize) :
    ∃ t, s.step manyRequests (.waiter n) = some t ∧ Registered (n + 1) t := by
  have hlen : s.context.cacheList.length < LockContext.cacheSize := by
    rw [hs.cacheList, List.length_range]
    exact hn
  have hstart : s.waiter n = .start := by
    rw [hs.waiter]
    simp
  have hstep : s.step manyRequests (.waiter n) = some
      { s with
        context :=
          { map := Function.update s.context.map (requestKey n) (some n)
            cacheList := s.context.cacheList ++ [n]
            freeList := s.context.freeList
            heap := Function.update s.context.heap n { used := true }
            allocated := n + 1 }
        waiter := Function.update s.waiter n (.registered n) } := by
    simp [step, stepWaiter, hstart, manyRequests, Task.key, Message.messageId, Message.absMessage,
      LockContext.addKey, LockContext.createRpcContent, hlen, LockContext.newLock, hs.allocated,
      Lock.init, setWaiter]
  refine ⟨_, hstep, ?_, rfl, hs.freeList, ?_, ?_, ?_, hs.handler⟩
  · rw [List.range_succ, ← hs.cacheList]
  · intro i hi
    by_cases he : i = n
    · subst he
      exact Function.update_self ..
    · exact (Function.update_of_ne he ..).trans (hs.heap i (by omega))
  · intro i hi
    by_cases he : i = n
    · subst he
      exact Function.update_self ..
    · have hne : requestKey i ≠ requestKey n := fun h => he (requestKey_injective h)
      exact (Function.update_of_ne hne ..).trans (hs.map i (by omega))
  · intro i
    by_cases he : i = n
    · subst he
      simp
    · have hiff : i < n + 1 ↔ i < n := by omega
      simp only [Function.update_of_ne he, hs.waiter, hiff]

/-- Up to `cacheSize` requests each get a new lock. -/
theorem exec_register : ∀ n ≤ LockContext.cacheSize, ∃ s : Exchange Nat Nat,
    exec (step manyRequests) {} ((List.range n).map .waiter) = some s
      ∧ AllSteps (step manyRequests) (Clean manyRequests) {} ((List.range n).map .waiter)
      ∧ Registered n s
  | 0, _ => ⟨{}, rfl, trivial, rfl, rfl, rfl, by simp, by simp, fun i => by simp, fun _ => rfl⟩
  | n + 1, hn => by
      obtain ⟨s, hrun, hclean, hs⟩ := exec_register n (by omega)
      obtain ⟨t, hstep, ht⟩ := registered_step hs (by omega)
      refine ⟨t, ?_, ?_, ht⟩
      · rw [List.range_succ, List.map_append, exec_append_some]
        exact ⟨s, hrun, (exec_singleton s _).trans hstep⟩
      · rw [List.range_succ, List.map_append, allSteps_append hrun]
        refine ⟨hclean, (allSteps_cons hstep).mpr ⟨fun _ hfull => ?_, trivial⟩⟩
        rw [hs.cacheList, List.length_range] at hfull
        omega

/-- Once a request has its lock, its steps are clean. -/
theorem clean_waiting {w : W} (hpc : s.waiter w ≠ .start) (n : Nat) :
    AllSteps (step P) (Clean P) s (List.replicate n (.waiter w)) := by
  induction n generalizing s with
  | zero => trivial
  | succ n ih =>
      exact fun t hstep => ⟨fun hstart => absurd hstart hpc,
        ih (stepWaiter_waited hstep).ne_start⟩

/-- The steps of a handler are clean if its lock is in use by a request with its key only. -/
theorem clean_handling {h : H} {key : String} {lock : Nat}
    (hid : (P.message h).messageId = some key) (hpc : s.handler h = .start)
    (hmap : s.context.map key = some lock)
    (hheld : ∀ w, Holds s w lock → (P.message h).messageId = (P.task w).key) :
    AllSteps (step P) (Clean P) s (List.replicate 6 (.handler h)) := by
  simp [List.replicate, AllSteps, step, stepHandler, hid, hpc, hmap, setHandler, withLock, Clean]
  exact fun w hw => hid.symm.trans (hheld w hw)

/-- The request waits, its reply is handled, and the request returns. -/
def roundTrip (w : W) (h : H) : List (Thread W H) :=
  List.replicate 2 (.waiter w) ++ (List.replicate 6 (.handler h) ++ List.replicate 3 (.waiter w))

section Answered

variable {w : W} {h : H} {lock : Nat} {key : String} {overload : Overload} {message : Message}

/-- It returns what has been put into its lock, which is free and empty then. -/
theorem exec_roundTrip (htask : P.task w = .request overload message)
    (hpc : s.waiter w = .registered lock) (hid : (P.message h).messageId = some key)
    (hstart : s.handler h = .start) (hmap : s.context.map key = some lock) :
    exec (step P) s (roundTrip w h) = some
      { s with
        context := ((((s.context.free (some lock)).removeKey key).updateLock lock
          (·.setRes (P.message h))).updateLock lock Lock.release).updateLock lock Lock.forget
        waiter := Function.update s.waiter w
          (.done ((P.task w).outcome (some (P.message h))))
        handler := Function.update s.handler h .done } := by
  have hhandle := exec_handler (s := s.setWaiter w (.awaited lock)) hid hstart hmap
  rw [roundTrip, exec_append, exec_await htask hpc, Option.bind_some, exec_append, hhandle,
    Option.bind_some]
  refine (exec_read lock htask ?_).trans ?_
  · exact setWaiter_self ..
  · simp [setWaiter, resAt, Function.update_idem, LockContext.updateLock, Lock.setRes]

theorem clean_roundTrip (htask : P.task w = .request overload message)
    (hpc : s.waiter w = .registered lock) (hid : (P.message h).messageId = some key)
    (hstart : s.handler h = .start) (hmap : s.context.map key = some lock)
    (hkey : (P.task w).key = some key) (hheld : ∀ w', Holds s w' lock → w' = w) :
    AllSteps (step P) (Clean P) s (roundTrip w h) := by
  have hawait := exec_await htask hpc (s := s)
  have hhandle := exec_handler (s := s.setWaiter w (.awaited lock)) hid hstart hmap
  refine (allSteps_append hawait).mpr ⟨clean_waiting (by simp [hpc]) 2,
    (allSteps_append hhandle).mpr ⟨clean_handling hid hstart hmap fun w' hw' => ?_,
      clean_waiting (by simp) 3⟩⟩
  by_cases hw : w' = w
  · rw [hid, hw, hkey]
  · rw [Holds, setWaiter_of_ne hw] at hw'
    exact absurd (hheld w' hw') hw

end Answered

/-- The lock at the head of the free list is taken, with what is in it. -/
theorem addKey_pooled {c : LockContext} {res : Option Message} (key : String)
    (hcache : c.cacheList = List.range LockContext.cacheSize) (hfree : c.freeList = [0])
    (hheap : c.heap 0 = { res }) : c.addKey (some key) = (some 0,
      { c with
        map := Function.update c.map key (some 0)
        freeList := []
        heap := Function.update c.heap 0 { res, used := true } }) := by
  have hfull : ¬ c.cacheList.length < LockContext.cacheSize := by
    rw [hcache, List.length_range]
    exact Nat.lt_irrefl _
  simp [LockContext.addKey, LockContext.createRpcContent, hfull, LockContext.findRpcContent,
    hfree, hheap, Lock.init]

/-- Of `n` locks that have been given out the first is returned, and one more request takes it. -/
def usedAgain (n : Nat) : List (Thread Nat Nat) :=
  (List.range n).map .waiter ++ (roundTrip 0 0 ++ .waiter n :: roundTrip n n)

/-- One lock is free and empty, and one more request gets it and its own reply. -/
theorem exec_one_more {n : Nat} {s : Exchange Nat Nat}
    (hcache : s.context.cacheList = List.range LockContext.cacheSize)
    (hfree : s.context.freeList = [0]) (hheap : s.context.heap 0 = {})
    (hwaiter : s.waiter n = .start) (hhandler : s.handler n = .start)
    (hheld : ∀ w, ¬ Holds s w 0) :
    ∃ t, exec (step manyRequests) s (.waiter n :: roundTrip n n) = some t
      ∧ t.waiter = Function.update s.waiter n (.done (.returned (some (manyRequests.message n))))
      ∧ AllSteps (step manyRequests) (Clean manyRequests) s (.waiter n :: roundTrip n n) := by
  obtain ⟨u, hstep, hwaiters, hhandlers, hmap⟩ : ∃ u, s.step manyRequests (.waiter n) = some u
      ∧ u.waiter = Function.update s.waiter n (.registered 0) ∧ u.handler = s.handler
      ∧ u.context.map (requestKey n) = some 0 := by
    have hkey : (manyRequests.task n).key = some (requestKey n) := rfl
    simp only [step, stepWaiter, hwaiter, hkey, addKey_pooled _ hcache hfree hheap]
    exact ⟨_, rfl, rfl, rfl, Function.update_self ..⟩
  have hregistered : u.waiter n = .registered 0 := by rw [hwaiters, Function.update_self]
  have hstart : u.handler n = .start := by rw [hhandlers, hhandler]
  refine ⟨_, exec_cons_some.mpr ⟨u, hstep, exec_roundTrip rfl hregistered rfl hstart hmap⟩, ?_,
    (allSteps_cons hstep).mpr ⟨?_, clean_roundTrip rfl hregistered rfl hstart hmap rfl ?_⟩⟩
  · dsimp only
    rw [hwaiters, Function.update_idem]
    rfl
  · intro _ _ lock hhead _
    rw [hfree] at hhead
    cases hhead
    simp [resAt, hheap]
  · intro w hw
    by_contra hne
    rw [Holds, hwaiters, Function.update_of_ne hne] at hw
    exact hheld w hw

/-- If there are no more locks than these, each of the two gets its own reply. -/
theorem exec_usedAgain {n : Nat} (hn : n = LockContext.cacheSize) :
    ∃ t, exec (step manyRequests) {} (usedAgain n) = some t
      ∧ t.waiter 0 = .done (.returned (some (manyRequests.message 0)))
      ∧ t.waiter n = .done (.returned (some (manyRequests.message n)))
      ∧ AllSteps (step manyRequests) (Clean manyRequests) {} (usedAgain n) := by
  obtain ⟨s, hregister, hclean, hs⟩ := exec_register n (Nat.le_of_eq hn)
  have hpos : 0 < n := by rw [hn]; decide
  have hne : n ≠ 0 := Nat.ne_of_gt hpos
  have hwaiter : s.waiter 0 = .registered 0 := by rw [hs.waiter, if_pos hpos]
  have hmem : 0 ∈ s.context.cacheList := by
    rw [hs.cacheList]
    exact List.mem_range.mpr hpos
  have hheld : ∀ w lock, Holds s w lock → lock = w := by
    intro w lock hw
    rw [Holds, hs.waiter] at hw
    split at hw
    · rcases hw with hw | hw | hw <;> cases hw
      rfl
    · rcases hw with hw | hw | hw <;> cases hw
  -- the first request gives its lock back
  obtain ⟨t, hfirst, hcache, hfree, hheap, hwaiters, hhandlers⟩ : ∃ t : Exchange Nat Nat,
      exec (step manyRequests) s (roundTrip 0 0) = some t
        ∧ t.context.cacheList = List.range n ∧ t.context.freeList = [0]
        ∧ t.context.heap 0 = {}
        ∧ t.waiter = Function.update s.waiter 0
          (.done (.returned (some (manyRequests.message 0))))
        ∧ t.handler = Function.update s.handler 0 .done := by
    refine ⟨_, exec_roundTrip rfl hwaiter rfl (hs.handler 0) (hs.map 0 hpos), ?_, ?_, ?_, rfl, rfl⟩
    · rw [← hs.cacheList]
      simp [LockContext.updateLock, LockContext.removeKey, LockContext.free, hmem]
    · simp [LockContext.updateLock, LockContext.removeKey, LockContext.free, hmem, hs.freeList]
    · simp [LockContext.updateLock, LockContext.removeKey, LockContext.free, hmem,
        hs.heap 0 hpos, Lock.release, Lock.forget, Lock.setRes]
  have hlast : t.waiter n = .start := by
    rw [hwaiters, Function.update_of_ne hne, hs.waiter, if_neg (Nat.lt_irrefl _)]
  have hhandler : t.handler n = .start := by
    rw [hhandlers, Function.update_of_ne hne, hs.handler]
  obtain ⟨u, hsecond, hdone, hsecondClean⟩ := exec_one_more (hn ▸ hcache) hfree hheap hlast hhandler
    fun w hw => by
      rw [Holds, hwaiters] at hw
      by_cases hzero : w = 0
      · subst hzero
        simp at hw
      · rw [Function.update_of_ne hzero] at hw
        exact hzero (hheld w 0 hw).symm
  have hfirstClean : AllSteps (step manyRequests) (Clean manyRequests) s (roundTrip 0 0) :=
    clean_roundTrip rfl hwaiter rfl (hs.handler 0) (hs.map 0 hpos) rfl
      fun w hw => (hheld w 0 hw).symm
  have hall : AllSteps (step manyRequests) (Clean manyRequests) {} (usedAgain n) := by
    unfold usedAgain
    rw [allSteps_append hregister, allSteps_append hfirst]
    exact ⟨hclean, hfirstClean, hsecondClean⟩
  have hrun : exec (step manyRequests) {} (usedAgain n) = some u := by
    unfold usedAgain
    rw [exec_append, hregister, Option.bind_some, exec_append, hfirst, Option.bind_some, hsecond]
  refine ⟨u, hrun, ?_, ?_, hall⟩
  · rw [hdone, Function.update_of_ne (Ne.symm hne), hwaiters, Function.update_self]
  · rw [hdone, Function.update_self]

/-- Both requests that have used the first lock have got the replies with their keys. -/
theorem matched_on_one_lock : ∃ t,
    exec (step manyRequests) {} (usedAgain LockContext.cacheSize) = some t
      ∧ t.waiter 0 = .done (.returned (some (manyRequests.message 0)))
      ∧ t.waiter LockContext.cacheSize
        = .done (.returned (some (manyRequests.message LockContext.cacheSize)))
      ∧ AllStates (step manyRequests) (Matched manyRequests) {}
        (usedAgain LockContext.cacheSize) := by
  generalize hn : LockContext.cacheSize = n
  obtain ⟨t, hrun, hfirst, hlast, hclean⟩ := exec_usedAgain hn.symm
  exact ⟨t, hrun, hfirst, hlast, no_cross_delivery hclean⟩

/-! ## A reply that goes astray -/

/-- With all locks given out, the first request times out, and only then its reply is handled. -/
theorem exec_late_reply {s : Exchange Nat Nat} (hs : Registered LockContext.cacheSize s) :
    ∃ t, exec (step manyRequests) s
        (List.replicate 5 (.waiter 0) ++ List.replicate 6 (.handler 0)) = some t
      ∧ t.context.cacheList = List.range LockContext.cacheSize ∧ t.context.freeList = [0]
      ∧ t.context.heap 0 = { res := some (manyRequests.message 0) }
      ∧ t.waiter LockContext.cacheSize = .start := by
  have hpos : 0 < LockContext.cacheSize := by decide
  have hwaiter : s.waiter 0 = .registered 0 := by
    rw [hs.waiter, if_pos hpos]
  have hmem : 0 ∈ s.context.cacheList := by
    rw [hs.cacheList]
    exact List.mem_range.mpr hpos
  refine ⟨_, exec_append_some.mpr ⟨_, exec_request rfl hwaiter,
    exec_handler rfl (hs.handler 0) (hs.map 0 hpos)⟩, ?_, ?_, ?_, ?_⟩
  · rw [← hs.cacheList]
    simp [LockContext.updateLock, LockContext.removeKey, LockContext.free, hmem]
  · simp [LockContext.updateLock, LockContext.removeKey, LockContext.free, hmem, hs.freeList]
  · simp [LockContext.updateLock, LockContext.removeKey, LockContext.free, hmem, hs.heap 0 hpos,
      Lock.release, Lock.forget, Lock.setRes]
  · have hne : LockContext.cacheSize ≠ 0 := by decide
    have hlast : s.waiter LockContext.cacheSize = .start := by
      rw [hs.waiter, if_neg (Nat.lt_irrefl _)]
    dsimp only
    rw [Function.update_of_ne hne, hlast]

/-- Then another request gets the lock, with that reply in it. -/
theorem exec_take_late_reply {t : Exchange Nat Nat}
    (hcache : t.context.cacheList = List.range LockContext.cacheSize)
    (hfree : t.context.freeList = [0])
    (hheap : t.context.heap 0 = { res := some (manyRequests.message 0) })
    (hstart : t.waiter LockContext.cacheSize = .start) :
    ∃ u, exec (step manyRequests) t
        (.waiter LockContext.cacheSize :: List.replicate 5 (.waiter LockContext.cacheSize)) = some u
      ∧ u.waiter LockContext.cacheSize = .done (.returned (some (manyRequests.message 0))) := by
  have hadd := addKey_pooled (requestKey LockContext.cacheSize) hcache hfree hheap
  have hkey : (manyRequests.task LockContext.cacheSize).key
      = some (requestKey LockContext.cacheSize) := rfl
  have hstep : t.step manyRequests (.waiter LockContext.cacheSize) = some
      ({ t with
        context := (t.context.addKey (some (requestKey LockContext.cacheSize))).2 }.setWaiter
          LockContext.cacheSize (.registered 0)) := by
    simp only [step, stepWaiter, hstart, hkey, hadd]
  refine ⟨_, exec_cons_some.mpr ⟨_, hstep, exec_request rfl (setWaiter_self ..)⟩, ?_⟩
  rw [hadd]
  simp only [Function.update_self]
  rfl

/-- A run in which the last request gets the reply to the first. -/
theorem cross_delivery_happens :
    ¬ ∀ (W H : Type) [DecidableEq W] [DecidableEq H] (P : Threads W H) (es : List (Thread W H)),
      (∀ w w', (P.task w).key = (P.task w').key → w = w') →
      AllStates (step P) (Matched P) {} es := by
  intro h
  obtain ⟨s, h₁, _, hs⟩ := exec_register LockContext.cacheSize (Nat.le_refl _)
  obtain ⟨t, h₂, hcache, hfree, hheap, hstart⟩ := exec_late_reply hs
  obtain ⟨u, h₃, hdone⟩ := exec_take_late_reply hcache hfree hheap hstart
  have hrun := exec_append_some.mpr ⟨s, h₁, exec_append_some.mpr ⟨t, h₂, h₃⟩⟩
  have hdistinct : ∀ w w', (manyRequests.task w).key = (manyRequests.task w').key → w = w' :=
    fun w w' hkey => requestKey_injective (Option.some.inj hkey)
  -- the key of the first request is not that of the last one
  have hmatched := (h Nat Nat manyRequests _ hdistinct).last hrun _ _ hdone
  exact absurd (requestKey_injective (Option.some.inj hmatched)) (by decide)

end TxLcn.Proof
