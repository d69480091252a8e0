import TxLcn.Lib.Exec
import TxLcn.Protocol.LockContext

/-!
# Threads that wait for messages and threads that handle them

A waiting thread runs one of the overloads of `Connection.request`, or the task
that `TransactionStepJoin.executeJoin` gives to its executor. A handling thread
runs `AbsMessage.handle` on the message it is given. All of them share one
`LockContext`. An event lets one thread take its next step.

`await` may end at any time: by a signal, by its timeout, or without a reason.
What the thread then finds in the lock does not depend on which it was.
-/

namespace TxLcn.Protocol

open TxLcn.Lib

/-- The overloads of `Connection.request`. -/
inductive Overload where
  | absMessage
  | transactionMessage
  | tmNodeMessage
  | snowflakeMessage
  deriving Repr, DecidableEq

/-- What a waiting thread runs. -/
inductive Task where
  | request (overload : Overload) (message : Message)
  | executeJoin (groupId : Option String)
  deriving Repr, DecidableEq

namespace Task

/-- The key under which the task registers its lock. -/
def key : Task → Option String
  | request .transactionMessage message => message.groupId
  | request _ message => message.messageId
  | executeJoin groupId => groupId

/-- Whether the cast of what was found succeeds. -/
def accepts : Task → Message → Bool
  | request .absMessage _, _ => true
  | request .transactionMessage _, res => res.family = .transactionMessage
  | request .tmNodeMessage _, res => res.family = .tmNodeMessage
  | request .snowflakeMessage _, res => res.family = .snowflakeMessage
  | executeJoin _, res => res.transactionCommitEvent?.isSome

end Task

/-- How a task ends. -/
inductive Outcome where
  | returned (res : Option Message)
  | classCast
  /-- `addKey` threw. -/
  | noLock
  deriving Repr, DecidableEq

/-- What `getRes` and the cast make of the content of the lock. -/
def Task.outcome (task : Task) : Option Message → Outcome
  | none => .returned none
  | some res => if task.accepts res then .returned (some res) else .classCast

/-- What is returned is what was found. -/
theorem Task.outcome_eq_returned {task : Task} {res : Option Message} {m : Message}
    (h : task.outcome res = .returned (some m)) : res = some m := by
  cases res with
  | none => cases h
  | some m' =>
      simp only [Task.outcome] at h
      split at h
      · cases h; rfl
      · cases h

/-- Where a waiting thread is; `lock` is the one it got from `addKey`. -/
inductive WaiterPc where
  | start
  | registered (lock : Nat)
  | sent (lock : Nat)
  | awaited (lock : Nat)
  | read (lock : Nat) (outcome : Outcome)
  | released (lock : Nat) (outcome : Outcome)
  | done (outcome : Outcome)
  deriving Repr, DecidableEq

/-- What a waiting thread has made of its lock, once it has read it. -/
def WaiterPc.outcome? : WaiterPc → Option Outcome
  | read _ outcome => some outcome
  | released _ outcome => some outcome
  | done outcome => some outcome
  | _ => none

/-- Where a handling thread is; `lock` is what `getKey` will return. -/
inductive HandlerPc where
  | start
  | got (lock : Option Nat)
  | clearing (lock clear : Option Nat)
  | freed (lock : Option Nat)
  | removed (lock : Option Nat)
  | resSet
  | done
  deriving Repr, DecidableEq

/-- What the threads run. `W` names those that wait, `H` those that handle. -/
structure Threads (W H : Type) where
  task : W → Task
  message : H → Message

/-- An event: who takes a step. -/
inductive Thread (W H : Type) where
  | waiter (w : W)
  | handler (h : H)
  deriving Repr, DecidableEq

/-- The threads at work, and the calls of `TransactionCommitorStrategy.commit` so far. -/
structure Exchange (W H : Type) where
  context : LockContext := {}
  waiter : W → WaiterPc := fun _ => .start
  handler : H → HandlerPc := fun _ => .start
  commits : W → List Bool := fun _ => []

namespace Exchange

variable {W H : Type} {P : Threads W H} {s t : Exchange W H}

def withLock (s : Exchange W H) (lock : Nat) (f : Lock → Lock) : Exchange W H :=
  { s with context := s.context.updateLock lock f }

/-- The message in a lock. -/
def resAt (s : Exchange W H) (lock : Nat) : Option Message := (s.context.heap lock).res

/-- The thread has registered this lock and not read it yet. -/
def Holds (s : Exchange W H) (w : W) (lock : Nat) : Prop :=
  s.waiter w = .registered lock ∨ s.waiter w = .sent lock ∨ s.waiter w = .awaited lock

@[simp] theorem withLock_waiter (l : Nat) (f : Lock → Lock) :
    (s.withLock l f).waiter = s.waiter := rfl

@[simp] theorem withLock_handler (l : Nat) (f : Lock → Lock) :
    (s.withLock l f).handler = s.handler := rfl

@[simp] theorem withLock_commits (l : Nat) (f : Lock → Lock) :
    (s.withLock l f).commits = s.commits := rfl

theorem withLock_resAt (l l' : Nat) (f : Lock → Lock) : (s.withLock l f).resAt l'
    = if l' = l then (f (s.context.heap l)).res else s.resAt l' := by
  by_cases h : l' = l
  · subst h
    simp [resAt, withLock, LockContext.updateLock]
  · simp [resAt, withLock, LockContext.updateLock, h]

/-! ## Threads that wait -/

section Waiter

variable [DecidableEq W]

def setWaiter (s : Exchange W H) (w : W) (pc : WaiterPc) : Exchange W H :=
  { s with waiter := Function.update s.waiter w pc }

/-- The rest of the join task: commit what the event says, if there is one. -/
def commit (s : Exchange W H) (w : W) : Outcome → Exchange W H
  | .returned (some (.commit event)) =>
      { s with commits := Function.update s.commits w (s.commits w ++ [event.commit]) }
  | _ => s

def stepWaiter (P : Threads W H) (s : Exchange W H) (w : W) : Option (Exchange W H) :=
  match s.waiter w with
  | .start =>
      match s.context.addKey (P.task w).key with
      | (none, context) => some ({ s with context }.setWaiter w (.done .noLock))
      | (some lock, context) => some ({ s with context }.setWaiter w (.registered lock))
  | .registered lock =>
      match P.task w with
      -- `writeAndFlush`; the join task has nothing to send
      | .request _ _ => some (s.setWaiter w (.sent lock))
      | .executeJoin _ => some (s.setWaiter w (.awaited lock))
  | .sent lock => some (s.setWaiter w (.awaited lock))
  | .awaited lock => some (s.setWaiter w (.read lock ((P.task w).outcome (s.resAt lock))))
  | .read lock outcome =>
      match P.task w with
      -- the `finally` of a request; the join task never clears its lock
      | .request _ _ => some ((s.withLock lock Lock.release).setWaiter w (.released lock outcome))
      | .executeJoin _ => some ((s.commit w outcome).setWaiter w (.done outcome))
  | .released lock outcome =>
      some ((s.withLock lock Lock.forget).setWaiter w (.done outcome))
  | .done _ => none

/-- What a step of the waiting thread `w` can be. -/
inductive Waited (P : Threads W H) (s : Exchange W H) (w : W) : Exchange W H → Prop where
  | refused {context : LockContext} : s.waiter w = .start →
      s.context.addKey (P.task w).key = (none, context) →
      Waited P s w ({ s with context }.setWaiter w (.done .noLock))
  | registered {lock : Nat} {context : LockContext} : s.waiter w = .start →
      s.context.addKey (P.task w).key = (some lock, context) →
      Waited P s w ({ s with context }.setWaiter w (.registered lock))
  | sent {lock : Nat} : s.waiter w = .registered lock →
      Waited P s w (s.setWaiter w (.sent lock))
  | awaited {lock : Nat} : s.waiter w = .registered lock ∨ s.waiter w = .sent lock →
      Waited P s w (s.setWaiter w (.awaited lock))
  | read {lock : Nat} : s.waiter w = .awaited lock →
      Waited P s w (s.setWaiter w (.read lock ((P.task w).outcome (s.resAt lock))))
  | released {lock : Nat} {outcome : Outcome} : s.waiter w = .read lock outcome →
      Waited P s w ((s.withLock lock Lock.release).setWaiter w (.released lock outcome))
  | committed {lock : Nat} {outcome : Outcome} {groupId : Option String} :
      s.waiter w = .read lock outcome → P.task w = .executeJoin groupId →
      Waited P s w ((s.commit w outcome).setWaiter w (.done outcome))
  | forgotten {lock : Nat} {outcome : Outcome} : s.waiter w = .released lock outcome →
      Waited P s w ((s.withLock lock Lock.forget).setWaiter w (.done outcome))

theorem stepWaiter_waited {w : W} (hs : s.stepWaiter P w = some t) : Waited P s w t := by
  unfold stepWaiter at hs
  split at hs
  · rename_i hpc
    split at hs
    · rename_i heq
      cases hs
      exact .refused hpc heq
    · rename_i heq
      cases hs
      exact .registered hpc heq
  · rename_i hpc
    split at hs
    · cases hs
      exact .sent hpc
    · cases hs
      exact .awaited (Or.inl hpc)
  · rename_i hpc
    cases hs
    exact .awaited (Or.inr hpc)
  · rename_i hpc
    cases hs
    exact .read hpc
  · rename_i hpc
    split at hs
    · cases hs
      exact .released hpc
    · rename_i htask
      cases hs
      exact .committed hpc htask
  · rename_i hpc
    cases hs
    exact .forgotten hpc
  · exact absurd hs (by simp)

@[simp] theorem setWaiter_handler (w : W) (pc : WaiterPc) :
    (s.setWaiter w pc).handler = s.handler := rfl

@[simp] theorem setWaiter_commits (w : W) (pc : WaiterPc) :
    (s.setWaiter w pc).commits = s.commits := rfl

@[simp] theorem setWaiter_resAt (w : W) (pc : WaiterPc) (l : Nat) :
    (s.setWaiter w pc).resAt l = s.resAt l := rfl

@[simp] theorem setWaiter_self (w : W) (pc : WaiterPc) : (s.setWaiter w pc).waiter w = pc :=
  Function.update_self ..

theorem setWaiter_of_ne {w w' : W} (hne : w' ≠ w) (pc : WaiterPc) :
    (s.setWaiter w pc).waiter w' = s.waiter w' :=
  Function.update_of_ne hne ..

theorem holds_self {w : W} {pc : WaiterPc} {lock : Nat} : Holds (s.setWaiter w pc) w lock ↔
    pc = .registered lock ∨ pc = .sent lock ∨ pc = .awaited lock := by
  rw [Holds, setWaiter_self]

@[simp] theorem commit_context (w : W) (o : Outcome) : (s.commit w o).context = s.context := by
  unfold commit
  split <;> rfl

@[simp] theorem commit_waiter (w : W) (o : Outcome) : (s.commit w o).waiter = s.waiter := by
  unfold commit
  split <;> rfl

@[simp] theorem commit_handler (w : W) (o : Outcome) : (s.commit w o).handler = s.handler := by
  unfold commit
  split <;> rfl

@[simp] theorem commit_resAt (w : W) (o : Outcome) (l : Nat) :
    (s.commit w o).resAt l = s.resAt l := by
  rw [resAt, commit_context, resAt]

/-- A waiting thread moves nobody else. -/
theorem Waited.waiter_of_ne {w w' : W} (hw : Waited P s w t) (hne : w' ≠ w) :
    t.waiter w' = s.waiter w' := by
  cases hw <;> rw [setWaiter_of_ne hne] <;> simp

theorem Waited.handler {w : W} (hw : Waited P s w t) : t.handler = s.handler := by
  cases hw <;> simp

/-- It puts no message into a lock. -/
theorem Waited.resAt {w : W} (hw : Waited P s w t) (l : Nat) :
    t.resAt l = s.resAt l ∨ t.resAt l = none := by
  cases hw with
  | refused _ hadd => exact LockContext.res_addKey hadd l
  | registered _ hadd => exact LockContext.res_addKey hadd l
  | sent _ => exact Or.inl rfl
  | awaited _ => exact Or.inl rfl
  | read _ => exact Or.inl rfl
  | @released lock _ _ =>
      rw [setWaiter_resAt, withLock_resAt]
      split
      · rename_i hl; exact Or.inl (by rw [hl]; rfl)
      · exact Or.inl rfl
  | committed _ _ => exact Or.inl (by simp)
  | forgotten _ =>
      rw [setWaiter_resAt, withLock_resAt]
      split
      · exact Or.inr rfl
      · exact Or.inl rfl

/-- What it has made of its lock after the step was there before, or is read in this step. -/
theorem Waited.outcome? {w : W} {outcome : Outcome} (hw : Waited P s w t)
    (h : (t.waiter w).outcome? = some outcome) : (s.waiter w).outcome? = some outcome
      ∨ outcome = .noLock
      ∨ ∃ lock, s.waiter w = .awaited lock ∧ outcome = (P.task w).outcome (s.resAt lock) := by
  cases hw with
  | refused _ _ =>
      rw [setWaiter_self] at h
      exact Or.inr (Or.inl (Option.some.inj h).symm)
  | registered _ _ => rw [setWaiter_self] at h; cases h
  | sent _ => rw [setWaiter_self] at h; cases h
  | awaited _ => rw [setWaiter_self] at h; cases h
  | @read lock hpc =>
      rw [setWaiter_self] at h
      exact Or.inr (Or.inr ⟨lock, hpc, (Option.some.inj h).symm⟩)
  | released hpc => rw [setWaiter_self] at h; exact Or.inl (by rw [hpc]; exact h)
  | committed hpc _ => rw [setWaiter_self] at h; exact Or.inl (by rw [hpc]; exact h)
  | forgotten hpc => rw [setWaiter_self] at h; exact Or.inl (by rw [hpc]; exact h)

/-- Having taken a step, it does not start again. -/
theorem Waited.ne_start {w : W} (hw : Waited P s w t) : t.waiter w ≠ .start := by
  cases hw <;> simp

/-- It commits nothing, unless it is a join task that has read an event. -/
theorem Waited.commits {w : W} (hw : Waited P s w t) : t.commits = s.commits
    ∨ ∃ event, (s.waiter w).outcome? = some (.returned (some (.commit event))) := by
  cases hw with
  | @committed lock outcome _ hpc _ =>
      rw [setWaiter_commits, hpc]
      unfold commit
      split
      · rename_i event
        exact Or.inr ⟨event, rfl⟩
      · exact Or.inl rfl
  | _ => exact Or.inl rfl

end Waiter

/-! ## Threads that handle -/

section Handler

variable [DecidableEq H]

def setHandler (s : Exchange W H) (h : H) (pc : HandlerPc) : Exchange W H :=
  { s with handler := Function.update s.handler h pc }

def stepHandler (P : Threads W H) (s : Exchange W H) (h : H) : Option (Exchange W H) :=
  match (P.message h).messageId with
  | none =>
      match s.handler h with
      -- no lock is looked up for a message without an id
      | .start => some (s.setHandler h .done)
      | _ => none
  | some messageId =>
      match s.handler h with
      | .start => some (s.setHandler h (.got (s.context.map messageId)))
      -- `clearKey` reads the map a second time
      | .got lock => some (s.setHandler h (.clearing lock (s.context.map messageId)))
      | .clearing lock clear =>
          some ({ s with context := s.context.free clear }.setHandler h (.freed lock))
      | .freed lock =>
          some ({ s with context := s.context.removeKey messageId }.setHandler h (.removed lock))
      | .removed none => some (s.setHandler h .done)
      | .removed (some lock) =>
          some ((s.withLock lock (·.setRes (P.message h))).setHandler h .resSet)
      | .resSet => some (s.setHandler h .done)
      | .done => none

/-- What a step of the handling thread `h` can be. -/
inductive Handles (P : Threads W H) (s : Exchange W H) (h : H) : Exchange W H → Prop where
  | ignored : (P.message h).messageId = none → s.handler h = .start →
      Handles P s h (s.setHandler h .done)
  | got {key : String} : (P.message h).messageId = some key → s.handler h = .start →
      Handles P s h (s.setHandler h (.got (s.context.map key)))
  | clearing {key : String} {lock : Option Nat} : (P.message h).messageId = some key →
      s.handler h = .got lock →
      Handles P s h (s.setHandler h (.clearing lock (s.context.map key)))
  | freed {lock clear : Option Nat} : s.handler h = .clearing lock clear →
      Handles P s h ({ s with context := s.context.free clear }.setHandler h (.freed lock))
  | removed {key : String} {lock : Option Nat} : (P.message h).messageId = some key →
      s.handler h = .freed lock →
      Handles P s h ({ s with context := s.context.removeKey key }.setHandler h (.removed lock))
  | missed : s.handler h = .removed none → Handles P s h (s.setHandler h .done)
  | resSet {key : String} {lock : Nat} : (P.message h).messageId = some key →
      s.handler h = .removed (some lock) →
      Handles P s h ((s.withLock lock (·.setRes (P.message h))).setHandler h .resSet)
  | signalled : s.handler h = .resSet → Handles P s h (s.setHandler h .done)

theorem stepHandler_handles {h : H} (hs : s.stepHandler P h = some t) : Handles P s h t := by
  unfold stepHandler at hs
  split at hs
  · rename_i hid
    split at hs
    · rename_i hpc
      cases hs
      exact .ignored hid hpc
    · exact absurd hs (by simp)
  · rename_i key hid
    split at hs
    · rename_i hpc; cases hs; exact .got hid hpc
    · rename_i hpc; cases hs; exact .clearing hid hpc
    · rename_i hpc; cases hs; exact .freed hpc
    · rename_i hpc; cases hs; exact .removed hid hpc
    · rename_i hpc; cases hs; exact .missed hpc
    · rename_i hpc; cases hs; exact .resSet hid hpc
    · rename_i hpc; cases hs; exact .signalled hpc
    · exact absurd hs (by simp)

@[simp] theorem setHandler_waiter (h : H) (pc : HandlerPc) :
    (s.setHandler h pc).waiter = s.waiter := rfl

@[simp] theorem setHandler_commits (h : H) (pc : HandlerPc) :
    (s.setHandler h pc).commits = s.commits := rfl

@[simp] theorem setHandler_resAt (h : H) (pc : HandlerPc) (l : Nat) :
    (s.setHandler h pc).resAt l = s.resAt l := rfl

@[simp] theorem setHandler_self (h : H) (pc : HandlerPc) : (s.setHandler h pc).handler h = pc :=
  Function.update_self ..

theorem setHandler_of_ne {h h' : H} (hne : h' ≠ h) (pc : HandlerPc) :
    (s.setHandler h pc).handler h' = s.handler h' :=
  Function.update_of_ne hne ..

/-- A handling thread moves nobody else. -/
theorem Handles.handler_of_ne {h h' : H} (hh : Handles P s h t) (hne : h' ≠ h) :
    t.handler h' = s.handler h' := by
  cases hh <;> rw [setHandler_of_ne hne]
  simp

theorem Handles.waiter {h : H} (hh : Handles P s h t) : t.waiter = s.waiter := by
  cases hh <;> simp

theorem Handles.commits {h : H} (hh : Handles P s h t) : t.commits = s.commits := by
  cases hh <;> simp

/-- It puts its own message into the lock it has got by its id, and into no other. -/
theorem Handles.resAt {h : H} (hh : Handles P s h t) (l : Nat) : t.resAt l = s.resAt l
    ∨ (P.message h).messageId ≠ none ∧ s.handler h = .removed (some l)
      ∧ t.resAt l = some (P.message h) := by
  cases hh with
  | ignored _ _ => exact Or.inl rfl
  | got _ _ => exact Or.inl rfl
  | clearing _ _ => exact Or.inl rfl
  | @freed _ clear _ => exact Or.inl (congrArg (fun f => (f l).res) (LockContext.heap_free _ clear))
  | removed _ _ => exact Or.inl rfl
  | missed _ => exact Or.inl rfl
  | @resSet _ lock hid hpc =>
      rw [setHandler_resAt, withLock_resAt]
      split
      · rename_i hl
        exact Or.inr ⟨by rw [hid]; simp, by rw [hl]; exact hpc, rfl⟩
      · exact Or.inl rfl
  | signalled _ => exact Or.inl rfl

end Handler

variable [DecidableEq W] [DecidableEq H]

def step (P : Threads W H) (s : Exchange W H) : Thread W H → Option (Exchange W H)
  | .waiter w => s.stepWaiter P w
  | .handler h => s.stepHandler P h

/-- A thread moves nobody but itself. -/
theorem waiter_of_step_ne {e : Thread W H} {w : W} (hs : s.step P e = some t)
    (hne : e ≠ .waiter w) : t.waiter w = s.waiter w := by
  cases e with
  | waiter w' =>
      exact (stepWaiter_waited hs).waiter_of_ne fun heq => hne (congrArg Thread.waiter heq.symm)
  | handler h => rw [(stepHandler_handles hs).waiter]

theorem handler_of_step_ne {e : Thread W H} {h : H} (hs : s.step P e = some t)
    (hne : e ≠ .handler h) : t.handler h = s.handler h := by
  cases e with
  | waiter w => rw [(stepWaiter_waited hs).handler]
  | handler h' =>
      exact (stepHandler_handles hs).handler_of_ne fun heq => hne (congrArg Thread.handler heq.symm)

end Exchange

end TxLcn.Protocol
