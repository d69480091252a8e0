import TxLcn.Lib.Exec
import TxLcn.Tc.Invocation
import TxLcn.Tc.SqlAnalyse

/-!
# Database access on a thread

A worker serves one request after the other. A request may bring a group along,
and runs methods, annotated or not, which take connections, and use the proxies
among them for as long as they like.

Whether a connection becomes a proxy, and what a proxy does, depends on the
`TransactionInfo` that the thread refers to at that time. It may be null, and so
may its type, and neither is checked everywhere. What a database access fails
for is told here by what has been null.
-/

namespace TxLcn.Tc

open TxLcn.Lib

/-- What a database access fails for. -/
inductive Fault where
  /-- `TransactionInfo.current()` is null. -/
  | noTransactionInfo
  /-- The type of it is null. -/
  | noTransactionType
  /-- Anything else. -/
  | other (thrown : Option TxException)
  deriving Repr, DecidableEq

/-- A `NullPointerException` is no `TxException`. -/
def Fault.thrown : Fault → Option TxException
  | noTransactionInfo => none
  | noTransactionType => none
  | other thrown => thrown

/-! ## A connection is taken -/

def TransactionInfo.hasSqlProxy (transactionInfo : TransactionInfo) : Except Fault Bool :=
  match transactionInfo.transactionType with
  | none => .error .noTransactionType
  | some type => .ok (type = TransactionConstant.LCN || type = TransactionConstant.TXC)

/-- How the data source answers. -/
structure Source where
  /-- The connection, unless `proceed` or the analysis of the tables throws. -/
  connection : Option Nat
  /-- Whether there is no connection for the log, unless that throws. -/
  noConnection : Option Bool
  /-- The connection that is asked for then, unless it or `setConnection` throws. -/
  another : Option Nat
  deriving Repr, DecidableEq

inductive Handed where
  | raw (connection : Nat)
  | proxy (connection : Nat)
  deriving Repr, DecidableEq

/-- `TxDataSourceInterceptor.invoke`, with all that it asks of the data source. -/
def TxDataSourceInterceptor.invokeOn (source : Source) (transactionInfo : Option TransactionInfo) :
    Except Fault Handed :=
  match source.connection with
  | none => .error (.other none)
  | some connection =>
      match transactionInfo with
      | none => .ok (.raw connection)
      | some transactionInfo =>
          match transactionInfo.hasSqlProxy with
          | .error fault => .error fault
          | .ok false => .ok (.raw connection)
          | .ok true =>
              -- the first connection is kept for the log, if that has none
              match source.noConnection, source.another with
              | some false, _ => .ok (.proxy connection)
              | some true, some connection => .ok (.proxy connection)
              | _, _ => .error (.other none)

/-! ## A proxy is used -/

inductive TransactionJdbcState where
  | EXECUTE
  | COMMIT
  | ROLLBACK
  | AFTER
  deriving Repr, DecidableEq

structure TransactionJdbcEvent where
  type : String
  state : TransactionJdbcState
  deriving Repr, DecidableEq

/-- The events there are. None of them is for the time before a statement is executed. -/
def JdbcEventConfiguration.transactionJdbcEvents : List TransactionJdbcEvent :=
  [⟨TransactionConstant.LCN, .COMMIT⟩, ⟨TransactionConstant.LCN, .ROLLBACK⟩,
    ⟨TransactionConstant.LCN, .AFTER⟩]

namespace TransactionJdbcEventListener

open JdbcEventConfiguration

/-- The `TransactionInfo` is looked at for each event. -/
def getTransactionJdbcEvent (transactionInfo : Option TransactionInfo)
    (state : TransactionJdbcState) :
    List TransactionJdbcEvent → Except Fault (Option TransactionJdbcEvent)
  | [] => .ok none
  | event :: transactionJdbcEvents =>
      match transactionInfo with
      | none => .error .noTransactionInfo
      | some info =>
          match info.transactionType with
          | none => .error .noTransactionType
          | some type =>
              if type = event.type ∧ state = event.state then .ok (some event)
              else getTransactionJdbcEvent transactionInfo state transactionJdbcEvents

def onBeforeAnyExecute (transactionInfo : Option TransactionInfo) (sql : String) :
    Except Fault String :=
  (getTransactionJdbcEvent transactionInfo .EXECUTE transactionJdbcEvents).map fun _ => sql

/--
What the thread's `JdbcTransaction` is after a statement; `analyse` is what
`LcnAfterTransactionJdbcEvent` makes of it.
-/
def after (transactionInfo : Option TransactionInfo) (jdbcTransaction : Option JdbcTransaction)
    (analyse : Option JdbcTransaction → Except (Option TxException) (Option JdbcTransaction)) :
    Except Fault (Option JdbcTransaction) :=
  match getTransactionJdbcEvent transactionInfo .AFTER transactionJdbcEvents with
  | .error fault => .error fault
  | .ok none => .ok jdbcTransaction
  | .ok (some _) => (analyse jdbcTransaction).mapError .other

/-- Without an event the raw connection is called, and then `get` throws. -/
def callEvent {β : Type} (transactionInfo : Option TransactionInfo)
    (state : TransactionJdbcState)
    (execute : TransactionInfo → Except (Option TxException) β) : Except Fault β :=
  match getTransactionJdbcEvent transactionInfo state transactionJdbcEvents, transactionInfo with
  | .error fault, _ => .error fault
  | .ok (some _), some info => (execute info).mapError .other
  | .ok _, _ => .error (.other none)

def commit (transactionInfo : Option TransactionInfo) (jdbcTransaction : Option JdbcTransaction)
    (saved : Bool) (context : JdbcContext) : Except Fault JdbcContext :=
  callEvent transactionInfo .COMMIT fun info =>
    LcnCommitTransactionJdbcEvent.execute info jdbcTransaction saved context

def rollback (transactionInfo : Option TransactionInfo) (jdbcTransaction : Option JdbcTransaction)
    (context : JdbcContext) : Except Fault JdbcContext :=
  callEvent transactionInfo .ROLLBACK fun info =>
    LcnRollbackTransactionJdbcEvent.execute info jdbcTransaction context

variable {transactionInfo : Option TransactionInfo} {info : TransactionInfo}
  {state : TransactionJdbcState} {jdbcTransaction : Option JdbcTransaction} {saved : Bool}
  {context : JdbcContext}

/-- How the search for an event ends, after the beginning of a statement. -/
inductive Found (state : TransactionJdbcState) :
    Option TransactionInfo → Except Fault (Option TransactionJdbcEvent) → Prop where
  | noTransactionInfo : Found state none (.error .noTransactionInfo)
  | noTransactionType {info : TransactionInfo} (h : info.transactionType = none) :
      Found state (some info) (.error .noTransactionType)
  | event {info : TransactionInfo} (h : info.transactionType = some TransactionConstant.LCN) :
      Found state (some info) (.ok (some ⟨TransactionConstant.LCN, state⟩))
  | absent {info : TransactionInfo} {type : String} (h : info.transactionType = some type)
      (hne : type ≠ TransactionConstant.LCN) : Found state (some info) (.ok none)

theorem found (hstate : state ≠ .EXECUTE) (transactionInfo : Option TransactionInfo) :
    Found state transactionInfo
      (getTransactionJdbcEvent transactionInfo state transactionJdbcEvents) := by
  cases transactionInfo with
  | none => exact Found.noTransactionInfo
  | some info =>
      cases htype : info.transactionType with
      | none =>
          simp only [transactionJdbcEvents, getTransactionJdbcEvent, htype]
          exact Found.noTransactionType htype
      | some type =>
          by_cases hlcn : type = TransactionConstant.LCN
          · subst hlcn
            have hget : getTransactionJdbcEvent (some info) state transactionJdbcEvents
                = .ok (some ⟨TransactionConstant.LCN, state⟩) := by
              cases state with
              | EXECUTE => exact absurd rfl hstate
              | _ => simp [transactionJdbcEvents, getTransactionJdbcEvent, htype]
            rw [hget]
            exact Found.event htype
          · have hget : getTransactionJdbcEvent (some info) state transactionJdbcEvents
                = .ok none := by
              simp [transactionJdbcEvents, getTransactionJdbcEvent, htype, hlcn]
            rw [hget]
            exact Found.absent htype hlcn

theorem hasEvent_of_ne {type : String} (h : info.transactionType = some type)
    (hne : type ≠ TransactionConstant.LCN) : hasEvent info = false := by
  simp [hasEvent, h, hne]

theorem hasEvent_of_no_type (h : info.transactionType = none) : hasEvent info = false := by
  simp [hasEvent, h]

theorem hasEvent_lcn (h : info.transactionType = some TransactionConstant.LCN) :
    hasEvent info = true := by
  simp [hasEvent, h]

/-- What is thrown, if what it fails for is forgotten. -/
theorem callEvent_thrown {β : Type} (hstate : state ≠ .EXECUTE)
    {execute : TransactionInfo → Except (Option TxException) β} :
    (callEvent transactionInfo state execute).mapError Fault.thrown
      = match transactionInfo with
        | none => .error none
        | some info => if hasEvent info then execute info else .error none := by
  have hfound := found hstate transactionInfo
  unfold callEvent
  revert hfound
  generalize getTransactionJdbcEvent transactionInfo state transactionJdbcEvents = result
  intro hfound
  cases hfound with
  | noTransactionInfo => rfl
  | noTransactionType h => simp [hasEvent_of_no_type h, Except.mapError, Fault.thrown]
  | @event info h =>
      simp only [hasEvent_lcn h, if_true]
      cases execute info <;> rfl
  | absent h hne => simp [hasEvent_of_ne h hne, Except.mapError, Fault.thrown]

theorem commit_thrown : (commit transactionInfo jdbcTransaction saved context).mapError Fault.thrown
    = onBeforeCommit transactionInfo jdbcTransaction saved context := by
  have hstate : TransactionJdbcState.COMMIT ≠ .EXECUTE := by decide
  exact callEvent_thrown hstate

theorem rollback_thrown : (rollback transactionInfo jdbcTransaction context).mapError Fault.thrown
    = onBeforeRollback transactionInfo jdbcTransaction context := by
  have hstate : TransactionJdbcState.ROLLBACK ≠ .EXECUTE := by decide
  exact callEvent_thrown hstate

/-- The analysis of a statement is reached if there is an event for the time after it. -/
theorem onAfterAnyExecute_eq {α : Type} (p : Platform) (db : Database α) (sqlType : String)
    (analyseHandlers : List SqlSqlAnalyseHandler) (tableList : TableList)
    (newLog : String → Option TransactionLog) (sql : String) :
    onAfterAnyExecute p db sqlType analyseHandlers tableList newLog transactionInfo
        jdbcTransaction sql
      = match getTransactionJdbcEvent transactionInfo .AFTER transactionJdbcEvents with
        | .error _ => throw .nullPointerException
        | .ok none => pure jdbcTransaction
        | .ok (some _) => LcnAfterTransactionJdbcEvent.execute p db sqlType analyseHandlers
            tableList newLog jdbcTransaction sql := by
  have hstate : TransactionJdbcState.AFTER ≠ .EXECUTE := by decide
  have hfound := found hstate transactionInfo
  unfold onAfterAnyExecute
  revert hfound
  generalize getTransactionJdbcEvent transactionInfo .AFTER transactionJdbcEvents = result
  intro hfound
  cases hfound with
  | noTransactionInfo => rfl
  | noTransactionType h =>
      simp only [Analysis.orThrow, pure_bind, h]
      rfl
  | event h => simp only [Analysis.orThrow, pure_bind, h, hasEvent_lcn h, if_true]
  | absent h hne =>
      simp only [Analysis.orThrow, pure_bind, h, hasEvent_of_ne h hne, Bool.false_eq_true, if_false]

end TransactionJdbcEventListener

open TransactionJdbcEventListener

/-- A call on a proxy. -/
inductive ProxyCall where
  /-- A statement is executed, which may throw; `analyse` is what is made of it after that. -/
  | execute (sql : String) (throws : Bool)
      (analyse : Option JdbcTransaction → Except (Option TxException) (Option JdbcTransaction))
  /-- `saved` says whether the log rows could be saved. -/
  | commit (saved : Bool)
  | rollback

/-- The listener is told in a `finally` block, and what it throws takes precedence. -/
def TcThread.execute (t : TcThread) (sql : String) (throws : Bool)
    (analyse : Option JdbcTransaction → Except (Option TxException) (Option JdbcTransaction)) :
    TcThread × Option Fault :=
  let tried := match onBeforeAnyExecute t.currentInfo sql with
    | .error fault => some fault
    | .ok _ => if throws then some (.other none) else none
  match after t.currentInfo t.jdbcTransaction analyse with
  | .error fault => (t, some fault)
  | .ok jdbcTransaction => ({ t with jdbcTransaction }, tried)

/-- The new `JdbcContext`, or what has been thrown. -/
def TcThread.keep (t : TcThread) : Except Fault JdbcContext → TcThread × Option Fault
  | .error fault => (t, some fault)
  | .ok context => ({ t with context }, none)

/-- The thread after it, and what it fails for. Which proxy it is makes no difference. -/
def ProxyCall.run (t : TcThread) : ProxyCall → TcThread × Option Fault
  | execute sql throws analyse => t.execute sql throws analyse
  | commit saved =>
      t.keep (TransactionJdbcEventListener.commit t.currentInfo t.jdbcTransaction saved t.context)
  | rollback =>
      t.keep (TransactionJdbcEventListener.rollback t.currentInfo t.jdbcTransaction t.context)

/-- A proxy makes a new `JdbcTransaction`. -/
def TcThread.getConnection (t : TcThread) (source : Source) : TcThread × Except Fault Handed :=
  match TxDataSourceInterceptor.invokeOn source t.currentInfo with
  | .ok (.proxy connection) =>
      ({ t with jdbcTransaction := some { connection } }, .ok (.proxy connection))
  | handed => (t, handed)

/-! ## A worker -/

/-- A database access, and what has come of it. -/
inductive Access where
  /-- A connection has been asked for, inside an annotated method or outside of all. -/
  | asked (annotated : Bool) (handed : Except Fault Handed)
  /-- A proxy has been called. -/
  | called (fault : Option Fault)

/-- What has been done to the `TransactionInfo` of a thread last. -/
inductive Standing where
  /-- It has been taken away by an end step that has returned, or there has never been one. -/
  | cleared
  /-- A request has brought a group along. -/
  | joined
  /-- An annotated method has been called, and given it a type. -/
  | typed
  deriving Repr, DecidableEq

/-- A thread that serves requests. The last two fields are for the record only. -/
structure Worker where
  thread : TcThread := {}
  /--
  The methods that have not ended, the innermost first; the annotated ones with
  their `TransactionInfo` and their world.
  -/
  methods : List (Option (Nat × World)) := []
  /-- The proxies that have been handed out. -/
  proxies : List Nat := []
  accesses : List Access := []
  standing : Standing := .cleared

namespace Worker

inductive Event where
  /-- A request comes in, with that header. -/
  | rpc (groupId : Option String)
  /-- A method is called. -/
  | call (annotated : Bool) (w : World)
  /-- The code of the innermost method has ended. -/
  | ends (how : Exit)
  | code
  | outbound (how : Exit)
  /-- Other threads have changed the `JdbcContext`. -/
  | elsewhere (context : JdbcContext)
  | getConnection (source : Source)
  | proxy (connection : Nat) (call : ProxyCall)

open TransactionAspectContext

/-- Whether an annotated method has not ended. -/
def annotated (s : Worker) : Bool := s.methods.any Option.isSome

/-- The end of an annotated method. There is no step if the end step waits for ever. -/
def leave (s : Worker) (w : World) (i : Nat) (how : Exit) (t : TcThread) : Option Worker :=
  let t := note i how t
  match finish w i how t with
  | (_, none) => none
  | (thread, some _) =>
      let returned := (TransactionContext.tryEndTransaction w i t).2 = some .returned
      some { s with thread, standing := if returned then .cleared else s.standing }

/-- A method whose transaction cannot begin ends before its code is run. -/
def enter (s : Worker) (w : World) : Option Worker :=
  let (i, t) := TransactionAspectContext.enter w s.thread
  let s := { s with standing := .typed }
  match TransactionContext.tryBeginTransaction w i t with
  | (thread, .returned) => some { s with thread, methods := some (i, w) :: s.methods }
  | (t, thrown) => s.leave w i thrown t

/-- A group is taken over if there is one, and none on the thread. -/
def rpc (s : Worker) (groupId : Option String) : Worker :=
  { s with
    thread := RpcTransactionContext.invoke groupId s.thread
    standing :=
      if s.standing = .cleared ∧ groupId ≠ none ∧ groupId ≠ some "" then .joined else s.standing }

def step (s : Worker) : Event → Option Worker
  | .rpc groupId => some (s.rpc groupId)
  | .call true w => s.enter w
  | .call false _ => some { s with methods := none :: s.methods }
  | .ends how =>
      match s.methods with
      | [] => none
      | none :: methods => some { s with methods }
      | some (i, w) :: methods => { s with methods }.leave w i how s.thread
  | .code => some { s with thread := s.thread.marked [.code] }
  | .outbound how => some { s with thread := (s.thread.outbound how).1 }
  | .elsewhere context => some { s with thread := { s.thread with context } }
  | .getConnection source =>
      let (thread, handed) := s.thread.getConnection source
      some { s with
        thread
        proxies := match handed with
          | .ok (.proxy connection) => s.proxies ++ [connection]
          | _ => s.proxies
        accesses := s.accesses ++ [.asked s.annotated handed] }
  | .proxy connection call =>
      if connection ∈ s.proxies then
        let (thread, fault) := call.run s.thread
        some { s with thread, accesses := s.accesses ++ [.called fault] }
      else none

end Worker

end TxLcn.Tc
