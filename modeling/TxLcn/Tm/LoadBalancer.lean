import TxLcn.Tm.Deployment
import TxLcn.Tm.TmNode

/-!
# The load balancer

`SnowflakeCreateEvent`, `TransactionCreateEvent`, `TransactionJoinEvent` and
`TransactionNotifyEvent` hand themselves, and their business as a callback, to
`LoadBalancerInterceptor.handle`. A TM with one connection executes the
business. Any other TM that gets the message as the first one makes a new event
of the same class, requests that of the leader, copies what comes back into the
message and answers it, if it may; a TM that gets a message from another one
executes it, unless that has been done.

A call is cut in two where it waits for the other TM: `handle` leads there and
`resume` goes on with what came back.
-/

namespace TxLcn.Protocol

open TxLcn.Lib

namespace Message

/-- Set the fields that every message has. -/
def updateAbs (f : AbsMessage → AbsMessage) : Message → Message
  | create e => create { e with toAbsMessage := f e.toAbsMessage }
  | join e => join { e with toAbsMessage := f e.toAbsMessage }
  | notify e => notify { e with toAbsMessage := f e.toAbsMessage }
  | commit e => commit { e with toAbsMessage := f e.toAbsMessage }
  | otherTmNode e => otherTmNode { e with toAbsMessage := f e.toAbsMessage }
  | snowflake e => snowflake { e with toAbsMessage := f e.toAbsMessage }

@[simp] theorem absMessage_updateAbs (f : AbsMessage → AbsMessage) (m : Message) :
    (m.updateAbs f).absMessage = f m.absMessage := by
  cases m <;> rfl

/-- The events that hand themselves to the load balancer. -/
def balanced : Message → Bool
  | create _ => true
  | join _ => true
  | notify _ => true
  | snowflake _ => true
  | commit _ => false
  | otherTmNode _ => false

/-! The properties of the classes as a TM has them; the inner `none` is a null. -/

def getGroupId : Message → Option (Option String)
  | snowflake e => some e.groupId
  | m => m.transactionMessage?.map (·.groupId)

def getModuleName (m : Message) : Option (Option String) :=
  m.transactionMessage?.map (·.moduleName)

/-- `TransactionNotifyEvent` has no accessors of its own. -/
def getResult : Message → Option (Option String)
  | create e => some e.result
  | join e => some e.result
  | commit e => some e.result
  | _ => none

def getLogId : Message → Option Long
  | snowflake e => some e.logId
  | _ => none

end Message

/-- Copy what the source can be asked for and the target can be told. -/
def BeanUtils.copyProperties (source target : Message) : Message :=
  match target.updateAbs fun _ => source.absMessage with
  | .create e => .create { e with
      groupId := source.getGroupId.getD e.groupId
      moduleName := source.getModuleName.getD e.moduleName
      result := source.getResult.getD e.result }
  | .join e => .join { e with
      groupId := source.getGroupId.getD e.groupId
      moduleName := source.getModuleName.getD e.moduleName
      result := source.getResult.getD e.result }
  | .notify e => .notify { e with
      groupId := source.getGroupId.getD e.groupId
      moduleName := source.getModuleName.getD e.moduleName }
  | .snowflake e => .snowflake { e with
      groupId := source.getGroupId.getD e.groupId
      logId := source.getLogId.getD e.logId }
  -- never a target
  | m => m

end TxLcn.Protocol

namespace TxLcn.Tm

open TxLcn.Lib TxLcn.Protocol

/-! ## The business of the events -/

/-- What the beans of a TM answer to the events; `none` and `false` are exceptions. -/
structure Services where
  generateIds : Option (String × Long)
  create : Option String → String → Option String → Bool
  join : Option String → String → Option String → Bool
  notify : Option String → Bool → Option (Option TransactionGroup)

/--
The business of a message that came in on the connection with this key: the
message as it is then, and what is handed to `sendMsg`. `none` if it throws.
-/
def EventService.execute (services : Services) (uniqueKey : String) :
    Message → Option (Message × Outbox)
  | .snowflake e => do
      let (groupId, logId) ← services.generateIds
      let m := Message.snowflake { e with
        groupId := some groupId, logId, isBusinessExecuted := true, isReadyCallBack := true }
      pure (m, [(uniqueKey, m)])
  | .create e => do
      guard (services.create e.groupId uniqueKey e.moduleName)
      let m := Message.create { e with result := some "ok" }
      pure (m, [(uniqueKey, m)])
  | .join e => do
      guard (services.join e.groupId uniqueKey e.moduleName)
      let m := Message.join { e with result := some "ok" }
      pure (m, [(uniqueKey, m)])
  | .notify e => do
      match ← services.notify e.groupId e.success with
      | some transactionGroup =>
          let transactionCommitEvent :=
            TransactionCommitEvent.new e.groupId transactionGroup.hasCommit
          let m := Message.notify { e with result := some "ok" }
          pure (m, transactionGroup.listTransaction.map
            (fun transactionInfo => (transactionInfo.uniqueKey, .commit transactionCommitEvent))
            ++ [(uniqueKey, m)])
      | none =>
          let m := Message.notify { e with result := some "error" }
          pure (m, [(uniqueKey, m)])
  | .commit _ => none
  | .otherTmNode _ => none

/-- The beans on the common store. -/
def Services.ofStore (store : String → Option TransactionGroup)
    (generateIds : Option (String × Long)) : Services where
  generateIds
  create groupId _ _ := groupId.isSome
  join groupId _ _ := groupId.isSome
  notify groupId success := groupId.map fun groupId =>
    ((RedisTransactionGroupRepository.notify groupId success).eval store).1

/-- Beans that never throw, and know of no group. -/
def Services.willing : Services where
  generateIds := some ("g", 7)
  create _ _ _ := true
  join _ _ _ := true
  notify _ _ := some none

/-- The message of an event. -/
def Event.message : Event → Message
  | create event _ _ => .create event
  | join event _ _ => .join event
  | notify event _ => .notify event

/-! ## One call of the interceptor -/

/-- What a TM looks at while it handles a message. -/
structure TmContext (Ch : Type) where
  table : ConnectionService Ch
  node : TmNode
  services : Services
  randomUUID : String

/-- What it does: execute a business on a message, put a message on a connection. -/
inductive Act (Ch : Type) where
  | executed (message : Message)
  | sent (connection : Connection Ch) (message : Message)
  deriving Repr, DecidableEq

/-- How far a call has come. -/
inductive Handling (Ch : Type) where
  | returned (acts : List (Act Ch))
  | threw (acts : List (Act Ch))
  /-- It waits for the answer to `tmMessage`. -/
  | requesting (leader : Connection Ch) (tmMessage absMessage : Message)
  deriving Repr, DecidableEq

def Handling.acts {Ch : Type} : Handling Ch → List (Act Ch)
  | returned acts => acts
  | threw acts => acts
  | requesting leader tmMessage _ => [.sent leader tmMessage]

/-- What is sent in the call asks for something. -/
def Handling.isRequesting {Ch : Type} : Handling Ch → Bool
  | requesting _ _ _ => true
  | _ => false

variable {Ch : Type} (ctx : TmContext Ch) (connection : Connection Ch)

/-- `Protocoler.sendMsg`. -/
def TmContext.sendMsg (uniqueKey : String) (message : Message) : List (Act Ch) :=
  match ctx.table.getConnection uniqueKey with
  | some connection => [.sent connection message]
  | none => []

/-- `event.execute()`; the message is null if it throws. -/
def TmContext.execute (m : Message) : List (Act Ch) × Option Message :=
  match EventService.execute ctx.services connection.uniqueKey m with
  | none => ([.executed m], none)
  | some (m', out) => (.executed m :: out.flatMap fun msg => ctx.sendMsg msg.1 msg.2, some m')

namespace EventStatusHandler

def onOneConnection (m : Message) : Handling Ch :=
  match ctx.execute connection m with
  | (acts, none) => .threw acts
  | (acts, some _) => .returned acts

def onBusinessExecuted (m : Message) : List (Act Ch) × Option Message :=
  if !m.absMessage.isFirstNode && !m.absMessage.isBusinessExecuted then ctx.execute connection m
  else ([], some m)

def onReadyCallBack (m : Message) : List (Act Ch) :=
  if m.absMessage.isFirstNode && m.absMessage.isReadyCallBack then
    ctx.sendMsg connection.uniqueKey m
  else []

def getAbsMessage : Message → Option Message
  | .snowflake _ => some (.snowflake {})
  | .create _ => some (.create {})
  | .join _ => some (.join {})
  | .notify _ => some (.notify {})
  | _ => none

end EventStatusHandler

/--
`TmManagerReporter.requestMsg`: the leader afterwards, and the connection and the
message of the request, unless an exception is thrown.
-/
def TmManagerReporter.requestMsg (leader : Option (Connection Ch)) (absMessage : Message)
    (otherNodeList : List (String × Nat)) :
    Option (Connection Ch) × Option (Connection Ch × Message) :=
  let absMessage := absMessage.updateAbs fun a =>
    { a with messageId := some ctx.randomUUID, isFirstNode := false }
  match selectLeaderWithoutTc ctx.node ctx.table.connections connection otherNodeList leader with
  | none => (leader, none)
  | some leader =>
      let leader := selectLeader ctx.table.connections leader
      -- `checkLeader` refuses a null
      (leader, leader.map fun leader => (leader, absMessage))

namespace LoadBalancerInterceptor

open EventStatusHandler

def requestMsgToOtherTm (leader : Option (Connection Ch)) (absMessage : Message) :
    Option (Connection Ch) × Option (Connection Ch × Message) :=
  match ctx.node.getOtherNodeList with
  | none => (leader, none)
  | some otherNodeList =>
      TmManagerReporter.requestMsg ctx connection leader absMessage otherNodeList

/-- What follows `onFirstNode`. -/
def afterFirstNode (m : Message) : Handling Ch :=
  match onBusinessExecuted ctx connection m with
  | (acts, none) => .threw acts
  | (acts, some m) => .returned (acts ++ onReadyCallBack ctx connection m)

/-- The message came in on `connection`; the leader of the reporter comes back too. -/
def handle (leader : Option (Connection Ch)) (m : Message) :
    Option (Connection Ch) × Handling Ch :=
  if ctx.table.getNumberOfConnections = 1 then (leader, onOneConnection ctx connection m)
  else if m.absMessage.isFirstNode then
    let absMessage := m.updateAbs fun a => { a with firstMessageId := a.messageId }
    match getAbsMessage absMessage with
    -- a null is dereferenced
    | none => (leader, .threw [])
    | some tmMessage =>
        match requestMsgToOtherTm ctx connection leader tmMessage with
        | (leader, none) => (leader, .threw [])
        | (leader, some (target, tmMessage)) => (leader, .requesting target tmMessage absMessage)
  else (leader, afterFirstNode ctx connection m)

/-- The rest of a call that has waited; `copyProperties` refuses a null. -/
def resume (absMessage : Message) (message : Option Message) : Handling Ch :=
  match message with
  | none => .threw []
  | some message =>
      let copied := BeanUtils.copyProperties message absMessage
      afterFirstNode ctx connection (copied.updateAbs fun a =>
        { a with messageId := absMessage.messageId, isFirstNode := true })

end LoadBalancerInterceptor

/-! ## What a business does -/

section Execute

variable {services : Services} {k : String} {m m' : Message} {out : Outbox}

/-- On the common store the events do what their business is. -/
theorem execute_ofStore (ev : Event) (store : String → Option TransactionGroup)
    (ids : Option (String × Long)) :
    (((EventService.execute (.ofStore store ids) ev.uniqueKey ev.message).map Prod.snd).getD [])
      = (ev.business.eval store).1 := by
  cases ev with
  | create event k now =>
      cases hg : event.groupId with
      | none => simp [EventService.execute, Event.message, Services.ofStore, hg, Event.business,
          TransactionCreateEvent.business, refuseNullKey]
      | some g => simp [EventService.execute, Event.message, Event.uniqueKey, Services.ofStore, hg,
          Event.business, TransactionCreateEvent.business]
  | join event k now =>
      cases hg : event.groupId with
      | none => simp [EventService.execute, Event.message, Services.ofStore, hg, Event.business,
          TransactionJoinEvent.business, refuseNullKey]
      | some g => simp [EventService.execute, Event.message, Event.uniqueKey, Services.ofStore, hg,
          Event.business, TransactionJoinEvent.business]
  | notify event k =>
      cases hg : event.groupId with
      | none => simp [EventService.execute, Event.message, Services.ofStore, hg, Event.business,
          TransactionNotifyEvent.business, refuseNullKey]
      | some g =>
          simp only [EventService.execute, Event.message, Event.uniqueKey, Services.ofStore, hg,
            Event.business, TransactionNotifyEvent.business, Option.map_some, Prog.eval_bind,
            Option.bind_eq_bind, Option.bind_some]
          cases ((RedisTransactionGroupRepository.notify g event.success).eval store).1 <;> rfl

/-- The message itself is handed over last, to where it came from, and before it announcements. -/
theorem execute_some (h : EventService.execute services k m = some (m', out)) :
    ∃ announced, out = announced ++ [(k, m')]
      ∧ (∀ msg ∈ announced, msg.2.balanced = false ∧ msg.2.messageId = none)
      ∧ m'.balanced = true
      ∧ m'.absMessage.isFirstNode = m.absMessage.isFirstNode
      ∧ m'.messageId = m.messageId := by
  cases m with
  | snowflake e =>
      simp only [EventService.execute, Option.bind_eq_bind, Option.bind_eq_some_iff] at h
      obtain ⟨ids, _, heq⟩ := h
      cases heq
      exact ⟨[], rfl, by simp, rfl, rfl, rfl⟩
  | create e =>
      simp only [EventService.execute, Option.bind_eq_bind, Option.bind_eq_some_iff] at h
      obtain ⟨_, _, heq⟩ := h
      cases heq
      exact ⟨[], rfl, by simp, rfl, rfl, rfl⟩
  | join e =>
      simp only [EventService.execute, Option.bind_eq_bind, Option.bind_eq_some_iff] at h
      obtain ⟨_, _, heq⟩ := h
      cases heq
      exact ⟨[], rfl, by simp, rfl, rfl, rfl⟩
  | notify e =>
      simp only [EventService.execute, Option.bind_eq_bind, Option.bind_eq_some_iff] at h
      obtain ⟨group, _, heq⟩ := h
      cases group with
      | none =>
          cases heq
          exact ⟨[], rfl, by simp, rfl, rfl, rfl⟩
      | some transactionGroup =>
          cases heq
          refine ⟨_, rfl, ?_, rfl, rfl, rfl⟩
          intro msg hmsg
          obtain ⟨info, _, rfl⟩ := List.mem_map.mp hmsg
          exact ⟨rfl, rfl⟩
  | commit e => cases h
  | otherTmNode e => cases h

end Execute

/-! ## What is seen of it -/

/-- The messages on which a business was executed. -/
def executions (acts : List (Act Ch)) : List Message :=
  acts.filterMap fun
    | .executed m => some m
    | .sent _ _ => none

/-- The events put on a connection, requests and answers; announcements are not among them. -/
def eventsOn [DecidableEq Ch] (connection : Connection Ch) (acts : List (Act Ch)) :
    List Message :=
  acts.filterMap fun
    | .sent c m => if c = connection ∧ m.balanced = true then some m else none
    | .executed _ => none

section Seen

variable {ctx : TmContext Ch} {connection c : Connection Ch} {k : String} {m m' : Message}
  {acts acts' : List (Act Ch)} {out : Outbox}

@[simp] theorem executions_nil : executions ([] : List (Act Ch)) = [] := rfl

@[simp] theorem executions_append :
    executions (acts ++ acts') = executions acts ++ executions acts' := List.filterMap_append

@[simp] theorem executions_executed :
    executions (.executed m :: acts) = m :: executions acts := rfl

@[simp] theorem executions_sent : executions (.sent c m :: acts) = executions acts := rfl

@[simp] theorem executions_sendMsg : executions (ctx.sendMsg k m) = [] := by
  unfold TmContext.sendMsg
  split <;> rfl

/-- Handing over messages executes nothing. -/
@[simp] theorem executions_flatMap :
    executions (out.flatMap fun msg => ctx.sendMsg msg.1 msg.2) = [] := by
  induction out with
  | nil => rfl
  | cons msg out ih => rw [List.flatMap_cons, executions_append, executions_sendMsg, ih]; rfl

/-- Whether it completes or throws, a business is executed once. -/
theorem executions_execute : executions (ctx.execute connection m).1 = [m] := by
  unfold TmContext.execute
  split <;> simp

theorem mem_sendMsg_iff :
    .sent c m' ∈ ctx.sendMsg k m ↔ ctx.table.getConnection k = some c ∧ m' = m := by
  unfold TmContext.sendMsg
  split
  · rename_i c' h
    simp [h, eq_comm]
  · rename_i h
    simp [h]

variable [DecidableEq Ch]

@[simp] theorem eventsOn_append :
    eventsOn c (acts ++ acts') = eventsOn c acts ++ eventsOn c acts' := List.filterMap_append

@[simp] theorem eventsOn_executed : eventsOn c (.executed m :: acts) = eventsOn c acts := rfl

theorem eventsOn_sendMsg_self (hc : c ∈ ctx.table.connections) (hm : m.balanced = true) :
    eventsOn c (ctx.sendMsg c.uniqueKey m) = [m] := by
  rw [TmContext.sendMsg, ConnectionService.getConnection_eq_some_iff.mpr hc]
  simp [eventsOn, hm]

theorem eventsOn_sendMsg_of_not_balanced (hm : m.balanced = false) :
    eventsOn c (ctx.sendMsg k m) = [] := by
  unfold TmContext.sendMsg
  split <;> simp [eventsOn, hm]

/-- Announcements are no events of the load balancer. -/
theorem eventsOn_announced (h : ∀ msg ∈ out, msg.2.balanced = false) :
    eventsOn c (out.flatMap fun msg => ctx.sendMsg msg.1 msg.2) = [] := by
  induction out with
  | nil => rfl
  | cons msg out ih =>
      have hmsg := h msg List.mem_cons_self
      rw [List.flatMap_cons, eventsOn_append, eventsOn_sendMsg_of_not_balanced hmsg]
      exact ih fun msg' hmem => h msg' (List.mem_cons_of_mem msg hmem)

/-- A business that completes answers once, over the connection of the message. -/
theorem eventsOn_execute (hc : connection ∈ ctx.table.connections)
    (h : EventService.execute ctx.services connection.uniqueKey m = some (m', out)) :
    eventsOn connection (ctx.execute connection m).1 = [m'] := by
  obtain ⟨announced, rfl, hann, hbal, _⟩ := execute_some h
  unfold TmContext.execute
  rw [h]
  dsimp only
  rw [eventsOn_executed, List.flatMap_append, eventsOn_append,
    eventsOn_announced fun msg hmem => (hann msg hmem).1]
  simpa using eventsOn_sendMsg_self hc hbal

end Seen

end TxLcn.Tm
