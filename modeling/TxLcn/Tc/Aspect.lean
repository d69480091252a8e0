import TxLcn.Tc.Jdbc

/-!
# What runs on a thread of a TC

An annotated method runs inside `runWithTransaction`, which begins a transaction
before the business and ends it after. What it does depends on the one
`TransactionInfo` the thread refers to, an object that is shared with every other
annotated method running on the thread, is changed by them, and is taken away
from the thread when one of them has ended.

`Business` is the code of a thread, as far as it is seen from here: a tree of
method invocations, with the database work and the outbound calls in between.
How the world answers an invocation is part of the tree.
-/

namespace TxLcn.Tc

open TxLcn.Protocol

/-- How code ends. An `Exception` that is no `TxException` is told by `none`. -/
inductive Exit where
  | returned
  | exception (thrown : Option TxException)
  | error
  deriving Repr, DecidableEq

def Exit.ofExcept : Except (Option TxException) Unit → Exit
  | .ok _ => .returned
  | .error thrown => .exception thrown

/-- How a call of `requestMsg` ends. -/
inductive Reply (α : Type) where
  /-- With an exception, before or after the request has been written. -/
  | threw (written : Bool)
  /-- With null. -/
  | lost
  | answered (res : α)
  deriving Repr, DecidableEq

/-- How the world answers one invocation of an annotated method. -/
structure World where
  /-- What the cache gives, should a transaction begin. -/
  groupId : Option String
  create : Reply TransactionCreateEvent
  /-- One answer for the notification and one for each time it is repeated. -/
  notify : List (Reply TransactionNotifyEvent)
  join : Reply TransactionJoinEvent
  succeeds : RawCall → Bool

/-- What can be seen of a thread. -/
inductive Mark where
  /-- Some code of the business, or its database work. -/
  | code
  /-- A request has been written. -/
  | sent (message : Message)
  /-- A call on a raw connection. -/
  | raw (connection : Nat) (call : RawCall) (succeeded : Bool)
  /-- An outbound call, with what was set as its header or thrown instead. -/
  | outbound (header : Except (Option TxException) (Option String))
  /-- The task of `executeJoin` has been handed over. -/
  | executeJoin (transactionInfo : TransactionInfo) (jdbcTransaction : Option JdbcTransaction)
  /-- An annotated method has ended. -/
  | ended
  deriving DecidableEq

/-- A thread, the objects it refers to, and the `JdbcContext`. -/
structure TcThread where
  /-- The `TransactionInfo` objects, and how many there are. -/
  infos : Nat → TransactionInfo := fun _ => .ofGroup none
  allocated : Nat := 0
  /-- `TransactionInfo.current()`. -/
  current : Option Nat := none
  /-- `JdbcTransaction.current()`. -/
  jdbcTransaction : Option JdbcTransaction := none
  context : JdbcContext := fun _ => none
  marks : List Mark := []

namespace TcThread

def marked (t : TcThread) (ms : List Mark) : TcThread := { t with marks := t.marks ++ ms }

/-- Change one of the objects. -/
def update (t : TcThread) (i : Nat) (f : TransactionInfo → TransactionInfo) : TcThread :=
  { t with infos := Function.update t.infos i (f (t.infos i)) }

def setTransactionType (t : TcThread) (i : Nat) (type : String) : TcThread :=
  t.update i fun info => { info with transactionType := some type }

def setTransactionState (t : TcThread) (i : Nat) (state : TransactionState) : TcThread :=
  t.update i fun info => { info with transactionState := state }

def setSuccessReturn (t : TcThread) (i : Nat) (success : Bool) : TcThread :=
  t.update i fun info => { info with successReturn := some success }

/-- `TransactionInfo.current()`, the object. -/
def currentInfo (t : TcThread) : Option TransactionInfo := t.current.map t.infos

/-- A constructor of `TransactionInfo`: the thread refers to the new object from now on. -/
def push (t : TcThread) (info : TransactionInfo) : TcThread :=
  { t with
    infos := Function.update t.infos t.allocated info
    allocated := t.allocated + 1
    current := some t.allocated }

def clearTransaction (t : TcThread) : TcThread :=
  { t with current := none, jdbcTransaction := none }

/-- `requestMsg`. Without a group the lock of the request cannot be registered. -/
def requestMsg {α : Type} (t : TcThread) (message : Message) (reply : Reply α) :
    TcThread × Except (Option TxException) (Option α) :=
  match message.groupId, reply with
  | none, _ => (t, .error none)
  | some _, .threw written => (if written then t.marked [.sent message] else t, .error none)
  | some _, .lost => (t.marked [.sent message], .ok none)
  | some _, .answered res => (t.marked [.sent message], .ok (some res))

/-- `TransactionCommitorStrategy.commit` on this thread. -/
def commit (t : TcThread) (succeeds : RawCall → Bool) (state : Bool) : TcThread × Exit :=
  match TransactionCommitorStrategy.commit succeeds (fun _ => {}) t.context t.currentInfo
      t.jdbcTransaction state with
  | .error thrown => (t, .exception thrown)
  | .ok none => (t, .returned)
  | .ok (some (c, connection)) =>
      (t.marked (connection.calls.map fun call => .raw c call.1 call.2), .returned)

end TcThread

/-! ## The steps -/

def TransactionStepCreate.run (w : World) (i : Nat) (t : TcThread) : TcThread × Exit :=
  match t.requestMsg (.create (.new (t.infos i).groupId)) w.create with
  | (t, .error thrown) => (t, .exception thrown)
  | (t, .ok none) => (t, .exception (some ⟨"create transaction fail."⟩))
  | (t, .ok (some _)) => (t, .returned)

namespace TransactionStepNotify

/-- The notification and its repetitions; without a result the thread is still waiting. -/
def request (t : TcThread) (message : Message) (successReturn : Bool) :
    List (Reply TransactionNotifyEvent) →
      TcThread × Option (Except (Option TxException) (Option TransactionNotifyEvent))
  | [] =>
      match message.groupId with
      | none => (t, some (.error none))
      | some _ => (t.marked [.sent message], none)
  | reply :: replies =>
      match t.requestMsg message reply with
      | (t, .ok none) =>
          if successReturn then request t message successReturn replies else (t, some (.ok none))
      | (t, res) => (t, some res)

def needCommit (res : Option TransactionNotifyEvent) (successReturn : Bool) : Bool :=
  match res with
  | some res => res.success && successReturn
  | none => false

/-- Without an outcome the notification cannot be constructed: unboxing it throws. -/
def run (w : World) (i : Nat) (t : TcThread) : TcThread × Option Exit :=
  match (t.infos i).successReturn with
  | none => (t, some (.exception none))
  | some successReturn =>
      let message := .notify (.new (t.infos i).groupId successReturn)
      match request t message successReturn w.notify with
      | (t, none) => (t, none)
      | (t, some (.error thrown)) => (t, some (.exception thrown))
      | (t, some (.ok res)) =>
          let (t, exit) := t.commit w.succeeds (needCommit res successReturn)
          (t, some exit)

end TransactionStepNotify

/-- The task of `executeJoin` runs on another thread; here it is only handed over. -/
def TransactionStepJoin.run (w : World) (i : Nat) (t : TcThread) : TcThread × Exit :=
  match t.requestMsg (.join (.new (t.infos i).groupId)) w.join with
  | (t, .error thrown) => (t, .exception thrown)
  | (t, .ok none) =>
      match t.commit w.succeeds false with
      | (t, .returned) => (t, .exception (some ⟨"notify transaction fail."⟩))
      | (t, exit) => (t, exit)
  | (t, .ok (some _)) => (t.marked [.executeJoin (t.infos i) t.jdbcTransaction], .returned)

/--
The task, on a thread of its own. Its lock is registered under the group; of the
events that arrive while it waits, the first whose `messageId` is the group gets
into the lock. The `JdbcContext` is the one there is then.
-/
def TransactionStepJoin.executeJoin (succeeds : RawCall → Bool) (transactionInfo : TransactionInfo)
    (jdbcTransaction : Option JdbcTransaction) (context : JdbcContext)
    (arrivals : List TransactionCommitEvent) : TcThread :=
  match jdbcTransaction, transactionInfo.groupId with
  | some jdbcTransaction, some groupId =>
      let t : TcThread := { jdbcTransaction := some jdbcTransaction, context }
      let t := t.push transactionInfo
      match arrivals.find? fun event => event.messageId = some groupId with
      | some event => (t.commit succeeds event.commit).1.clearTransaction
      | none => t.clearTransaction
  -- to bind null to the thread throws, and so does the lock without a key
  | _, _ => {}

namespace TransactionContext

def tryBeginTransaction (w : World) (i : Nat) (t : TcThread) : TcThread × Exit :=
  if (t.infos i).transactionState = .CREATE then TransactionStepCreate.run w i t
  else (t, .returned)

/-- A state without a step is `NO_TRANSACTION`. -/
def tryEndTransaction (w : World) (i : Nat) (t : TcThread) : TcThread × Option Exit :=
  let t := if (t.infos i).transactionState = .CREATE then t.setTransactionState i .NOTIFY else t
  match (t.infos i).transactionState with
  | .NOTIFY => TransactionStepNotify.run w i t
  | .JOIN =>
      let (t, exit) := TransactionStepJoin.run w i t
      (t, some exit)
  | _ => (t, some .returned)

end TransactionContext

namespace TransactionAspectContext

/-- The `TransactionInfo` of the thread or, if it has none, a new one, and its type. -/
def enter (w : World) (t : TcThread) : Nat × TcThread :=
  match t.current with
  | some i => (i, t.setTransactionType i TransactionConstant.LCN)
  | none =>
      (t.allocated,
        (t.push { groupId := w.groupId, transactionState := .CREATE }).setTransactionType
          t.allocated TransactionConstant.LCN)

/-- The `catch` block and the statement before it. An `Error` is not caught. -/
def note (i : Nat) (exit : Exit) (t : TcThread) : TcThread :=
  match exit with
  | .returned => t.setSuccessReturn i true
  | .exception _ => t.setSuccessReturn i false
  | .error => t

/-- The `finally` block. What it throws takes the place of what was thrown before. -/
def finish (w : World) (i : Nat) (exit : Exit) (t : TcThread) : TcThread × Option Exit :=
  match TransactionContext.tryEndTransaction w i t with
  | (t, none) => (t, none)
  | (t, some .returned) => (t.clearTransaction.marked [.ended], some exit)
  | (t, some thrown) => (t.marked [.ended], some thrown)

/-- The `try` block. -/
def attempt (w : World) (i : Nat) (proceed : TcThread → TcThread × Option Exit) (t : TcThread) :
    TcThread × Option Exit :=
  match TransactionContext.tryBeginTransaction w i t with
  | (t, .returned) => proceed t
  | (t, thrown) => (t, some thrown)

/--
An invocation of a method, annotated or not. `proceed` is its business. Without
an exit the thread is still waiting.
-/
def runWithTransaction (annotated : Bool) (w : World) (proceed : TcThread → TcThread × Option Exit)
    (t : TcThread) : TcThread × Option Exit :=
  if annotated then
    let (i, t) := enter w t
    match attempt w i proceed t with
    | (t, none) => (t, none)
    | (t, some exit) => finish w i exit (note i exit t)
  else proceed t

end TransactionAspectContext

/-! ## Calls from and to other modules -/

namespace RpcTransactionContext

/-- What is set under the header key. -/
def build (transactionInfo : Option TransactionInfo) :
    Except (Option TxException) (Option String) :=
  match transactionInfo with
  | none => .error none
  | some transactionInfo => .ok transactionInfo.groupId

/-- `groupId` is the header of the request. -/
def invoke (groupId : Option String) (t : TcThread) : TcThread :=
  match groupId, t.current with
  | some groupId, none => if groupId = "" then t else t.push (.ofGroup (some groupId))
  | _, _ => t

end RpcTransactionContext

/-! ## The code of a thread -/

/-- Database work. -/
inductive JdbcOp where
  /-- A connection is taken from the data source; its raw connection has this number. -/
  | getConnection (connection : Nat)
  /-- `commit()` on a proxy; `saved` says whether the log rows could be saved. -/
  | commit (saved : Bool)
  /-- `rollback()` on a proxy. -/
  | rollback
  deriving Repr, DecidableEq

/-- A proxy is made only in a transaction, and asking a transaction without a type for it throws. -/
def TxDataSourceInterceptor.invoke (connection : Nat) (t : TcThread) :
    Except (Option TxException) TcThread :=
  match t.currentInfo with
  | none => .ok t
  | some transactionInfo =>
      match transactionInfo.transactionType with
      | none => .error none
      | some type =>
          if type = TransactionConstant.LCN then
            .ok { t with jdbcTransaction := some { connection } }
          else .ok t

/-- The thread after it, or what has been thrown. -/
def JdbcOp.apply (t : TcThread) : JdbcOp → Except (Option TxException) TcThread
  | getConnection connection => TxDataSourceInterceptor.invoke connection t
  | commit saved =>
      (TransactionJdbcEventListener.onBeforeCommit t.currentInfo t.jdbcTransaction saved
        t.context).map fun context => { t with context }
  | rollback =>
      (TransactionJdbcEventListener.onBeforeRollback t.currentInfo t.jdbcTransaction
        t.context).map fun context => { t with context }

def JdbcOp.run (op : JdbcOp) (t : TcThread) : TcThread × Exit :=
  match op.apply t with
  | .ok t => (t, .returned)
  | .error thrown => (t, .exception thrown)

/-- The code of a thread. What follows may depend on how what came before has ended. -/
inductive Business where
  | ends (how : Exit)
  | code (next : Business)
  | jdbc (op : JdbcOp) (next : Exit → Business)
  /-- An outbound call; `how` is how it ends once it has been sent. -/
  | outbound (how : Exit) (next : Exit → Business)
  | call (annotated : Bool) (w : World) (body : Business) (next : Exit → Business)

def TcThread.outbound (t : TcThread) (how : Exit) : TcThread × Exit :=
  let header := RpcTransactionContext.build t.currentInfo
  match header with
  | .ok _ => (t.marked [.outbound header], how)
  | .error thrown => (t.marked [.outbound header], .exception thrown)

def Business.run : Business → TcThread → TcThread × Option Exit
  | ends how, t => (t, some how)
  | code next, t => next.run (t.marked [.code])
  | jdbc op next, t =>
      let (t, exit) := op.run (t.marked [.code])
      (next exit).run t
  | outbound how next, t =>
      let (t, exit) := t.outbound how
      (next exit).run t
  | call annotated w body next, t =>
      match TransactionAspectContext.runWithTransaction annotated w (fun t => body.run t) t with
      | (t, none) => (t, none)
      | (t, some exit) => (next exit).run t

end TxLcn.Tc
