import TxLcn.Tm.LoadBalancer

/-!
# Handling a message on another TM

A TM that has several connections does not execute what a TC asks of it. It asks
somebody else for a new event of the same class, onto which nothing of the message
is copied, and what the TC gets is made of the answer. `forwarded_iff` compares that
with what the TC gets from a TM that executes the event itself. They agree for a
`SnowflakeCreateEvent` that says nothing, if it happens to be a TM that was asked.
-/

namespace TxLcn.Proof

open TxLcn.Lib TxLcn.Protocol TxLcn.Tm LoadBalancerInterceptor EventStatusHandler

variable {Ch : Type} [DecidableEq Ch]

/-! ## A message, from the TC and back -/

/-- Where a connection leads: to a TC, or to a TM and its end of the connection. -/
inductive FarEnd (Ch : Type) where
  | tc
  | tm (ctx : TmContext Ch) (back : Connection Ch) (leader : Option (Connection Ch))

/--
The business executed at the far end, and what comes back to the one who waits
for the message's id. A TC does nothing with such a message, and the wait ends
without an answer.
-/
def FarEnd.answer : FarEnd Ch → Message → List (TmContext Ch × Message) × Option Message
  | tc, _ => ([], none)
  | tm ctx back leader, m =>
      let acts := (handle ctx back leader m).2.acts
      ((executions acts).map fun seen => (ctx, seen),
        (eventsOn back acts).find? fun reply => reply.messageId = m.messageId)

/-- Which TM has executed a business on what, and the events the TC has got. -/
structure Course (Ch : Type) where
  executed : List (TmContext Ch × Message)
  replies : List Message

/-- A message of the TC at the end of `connection`; nothing is lost on the way. -/
def course (far : Connection Ch → FarEnd Ch) (ctx : TmContext Ch) (connection : Connection Ch)
    (leader : Option (Connection Ch)) (m : Message) : Course Ch :=
  match (handle ctx connection leader m).2 with
  | .requesting target tmMessage absMessage =>
      let (executed, message) := (far target).answer tmMessage
      { executed, replies := eventsOn connection (resume ctx connection absMessage message).acts }
  | handled =>
      { executed := (executions handled.acts).map fun seen => (ctx, seen)
        replies := eventsOn connection handled.acts }

/-- What a message says, apart from the flags and the note of its first id. -/
def content (m : Message) : Message := m.updateAbs fun a => { messageId := a.messageId }

/-- The success flag, if there is one. -/
def getSuccess : Message → Option Bool
  | .notify e => some e.success
  | _ => none

/--
The business has seen what the TC said, and the TC gets one reply, which says
what it would have got from a TM that executes the event itself.
-/
def SameAsLocal (far : Connection Ch → FarEnd Ch) (ctx : TmContext Ch)
    (connection : Connection Ch) (leader : Option (Connection Ch)) (m : Message) : Prop :=
  ∃ tm seen reply locally, course far ctx connection leader m = ⟨[(tm, seen)], [reply]⟩
    ∧ seen.getGroupId = m.getGroupId ∧ seen.getModuleName = m.getModuleName
    ∧ getSuccess seen = getSuccess m
    ∧ eventsOn connection
        (onOneConnection { ctx with services := tm.services } connection m).acts = [locally]
    ∧ content reply = content locally

/--
A message of a TC at a TM with several connections, one of them to a TM. The
business that is executed on the way does not fail.
-/
structure Arrives (far : Connection Ch → FarEnd Ch) (ctx : TmContext Ch)
    (connection : Connection Ch) (leader : Option (Connection Ch)) (m : Message) : Prop where
  balanced : m.balanced = true
  first : m.absMessage.isFirstNode = true
  inTable : connection ∈ ctx.table.connections
  several : 2 ≤ ctx.table.getNumberOfConnections
  otherTm : ∃ c ∈ ctx.table.connections, far c ≠ .tc
  /-- The other TMs have their ends of the connections. -/
  connected : ∀ c ctx' back leader, far c = .tm ctx' back leader → back ∈ ctx'.table.connections
  /-- If it is a TM that is asked, it can do what it is asked for. -/
  succeeds : ∀ c tmMessage absMessage ctx' back leader',
    (handle ctx connection leader m).2 = .requesting c tmMessage absMessage →
    far c = .tm ctx' back leader' →
    (EventService.execute ctx'.services back.uniqueKey tmMessage).isSome = true

/-- The search for the TM with the fewest connections throws no exception. -/
def LookupReturns (ctx : TmContext Ch) (connection : Connection Ch)
    (leader : Option (Connection Ch)) : Prop :=
  ∃ others, ctx.node.getOtherNodeList = some others
    ∧ (TmManagerReporter.selectLeaderWithoutTc ctx.node ctx.table.connections connection others
        leader).isSome = true

/-! ## The three handlers -/

variable {far : Connection Ch → FarEnd Ch} {ctx : TmContext Ch} {connection c : Connection Ch}
  {leader : Option (Connection Ch)} {m m' : Message} {out : Outbox}

omit [DecidableEq Ch] in
/-- Whoever is first in the table is asked, if the search returns. -/
theorem requestMsgToOtherTm_some (hfirst : ctx.table.connections.head? = some c)
    (hl : LookupReturns ctx connection leader) :
    (requestMsgToOtherTm ctx connection leader m).2 = some (c, m.updateAbs fun a =>
      { a with messageId := some ctx.randomUUID, isFirstNode := false }) := by
  obtain ⟨others, hothers, hsome⟩ := hl
  obtain ⟨leader', hleader⟩ := Option.isSome_iff_exists.mp hsome
  obtain ⟨rest, hrest⟩ := List.head?_eq_some_iff.mp hfirst
  have hselect : TmManagerReporter.selectLeader ctx.table.connections leader' = some c := by
    rw [hrest]
    rfl
  simp only [requestMsgToOtherTm, hothers, TmManagerReporter.requestMsg, hleader, hselect,
    Option.map_some]

omit [DecidableEq Ch] in
theorem requestMsgToOtherTm_none (hl : ¬ LookupReturns ctx connection leader) :
    (requestMsgToOtherTm ctx connection leader m).2 = none := by
  unfold requestMsgToOtherTm
  cases hothers : ctx.node.getOtherNodeList with
  | none => rfl
  | some others =>
      cases hleader : TmManagerReporter.selectLeaderWithoutTc ctx.node ctx.table.connections
          connection others leader with
      | none => simp [TmManagerReporter.requestMsg, hleader]
      | some leader' => exact absurd ⟨others, hothers, by rw [hleader]; rfl⟩ hl

/-- The new event is of the same class, and says nothing. -/
theorem getAbsMessage_some (hm : m.balanced = true) : ∃ new, getAbsMessage m = some new
    ∧ new.balanced = true ∧ new.absMessage = {}
    ∧ ∀ f e, new.updateAbs f = .snowflake e → ∃ e', m = .snowflake e' := by
  cases m with
  | snowflake e => exact ⟨_, rfl, rfl, rfl, fun _ _ _ => ⟨e, rfl⟩⟩
  | create e => exact ⟨_, rfl, rfl, rfl, by simp [Message.updateAbs]⟩
  | join e => exact ⟨_, rfl, rfl, rfl, by simp [Message.updateAbs]⟩
  | notify e => exact ⟨_, rfl, rfl, rfl, by simp [Message.updateAbs]⟩
  | commit e => cases hm
  | otherTmNode e => cases hm

@[simp] theorem balanced_updateAbs (f : AbsMessage → AbsMessage) (m : Message) :
    (m.updateAbs f).balanced = m.balanced := by
  cases m <;> rfl

@[simp] theorem getAbsMessage_updateAbs (f : AbsMessage → AbsMessage) (m : Message) :
    getAbsMessage (m.updateAbs f) = getAbsMessage m := by
  cases m <;> rfl

omit [DecidableEq Ch] in
/-- A TM that gets a message from another one executes it, with one connection or more. -/
theorem acts_handle_forwarded (hfirst : m.absMessage.isFirstNode = false)
    (hnew : m.absMessage.isBusinessExecuted = false)
    (hexec : EventService.execute ctx.services connection.uniqueKey m = some (m', out)) :
    (handle ctx connection leader m).2.acts = (ctx.execute connection m).1 := by
  have hacts : ctx.execute connection m = ((ctx.execute connection m).1, some m') := by
    simp [TmContext.execute, hexec]
  obtain ⟨_, _, _, _, hkeep, _⟩ := execute_some hexec
  unfold handle
  split
  · dsimp only
    rw [onOneConnection, hacts]
    rfl
  · rw [if_neg (by simp [hfirst])]
    dsimp only
    rw [afterFirstNode, onBusinessExecuted, if_pos (by simp [hfirst, hnew]), hacts]
    have hquiet : onReadyCallBack ctx connection m' = [] := by
      simp [onReadyCallBack, hkeep, hfirst]
    simp [Handling.acts, hquiet]

/-- What comes back from a TM is the event it has executed. -/
theorem answer_tm {ctx' : TmContext Ch} {back : Connection Ch} (leader : Option (Connection Ch))
    (hback : back ∈ ctx'.table.connections) (hfirst : m.absMessage.isFirstNode = false)
    (hnew : m.absMessage.isBusinessExecuted = false)
    (hexec : EventService.execute ctx'.services back.uniqueKey m = some (m', out)) :
    (FarEnd.tm ctx' back leader).answer m = ([(ctx', m)], some m') := by
  obtain ⟨_, _, _, _, _, hid⟩ := execute_some hexec
  simp only [FarEnd.answer, acts_handle_forwarded hfirst hnew hexec, executions_execute,
    eventsOn_execute hback hexec]
  simp [hid]

theorem absMessage_copyProperties (source target : Message) :
    (BeanUtils.copyProperties source target).absMessage = source.absMessage := by
  cases target <;> rfl

theorem balanced_copyProperties (source target : Message) :
    (BeanUtils.copyProperties source target).balanced = target.balanced := by
  cases target <;> rfl

/-- The answer is passed on to the TC if it says that it may be. -/
theorem eventsOn_resume (hc : connection ∈ ctx.table.connections) {absMessage : Message}
    (hbal : absMessage.balanced = true) :
    eventsOn connection (resume ctx connection absMessage (some m')).acts
      = if m'.absMessage.isReadyCallBack then
          [(BeanUtils.copyProperties m' absMessage).updateAbs fun a =>
            { a with messageId := absMessage.messageId, isFirstNode := true }]
        else [] := by
  have hreply : ((BeanUtils.copyProperties m' absMessage).updateAbs fun a =>
      { a with messageId := absMessage.messageId, isFirstNode := true }).balanced = true := by
    rw [balanced_updateAbs, balanced_copyProperties, hbal]
  -- the message counts as the first TM's again, so that its business is left alone
  have hskip : ∀ m : Message, m.absMessage.isFirstNode = true →
      afterFirstNode ctx connection m = .returned (onReadyCallBack ctx connection m) := by
    intro m hfirst
    simp [afterFirstNode, onBusinessExecuted, hfirst]
  dsimp only [resume]
  rw [hskip _ (by simp)]
  simp only [Handling.acts, onReadyCallBack, Message.absMessage_updateAbs,
    absMessage_copyProperties, Bool.true_and]
  by_cases hready : m'.absMessage.isReadyCallBack = true
  · rw [if_pos hready, if_pos hready]
    exact eventsOn_sendMsg_self hc hreply
  · rw [if_neg hready, if_neg hready]
    rfl

/-! ## The comparison -/

/-- Where the search throws, nothing happens at all. -/
theorem course_threw (h : Arrives far ctx connection leader m)
    (hl : ¬ LookupReturns ctx connection leader) :
    course far ctx connection leader m = ⟨[], []⟩ := by
  obtain ⟨new, hnew, _⟩ := getAbsMessage_some h.balanced
  have hn : ctx.table.getNumberOfConnections ≠ 1 := Nat.ne_of_gt h.several
  have hnone := requestMsgToOtherTm_none (m := new) hl
  have hthrew : (handle ctx connection leader m).2 = .threw [] := by
    unfold handle
    rw [if_neg hn, if_pos h.first]
    simp only [getAbsMessage_updateAbs, hnew]
    split
    · rfl
    · rename_i heq
      rw [heq] at hnone
      cases hnone
  unfold course
  rw [hthrew]
  rfl

omit [DecidableEq Ch] in
/-- Otherwise an empty event is requested of whoever is first in the table. -/
theorem handle_requesting (h : Arrives far ctx connection leader m)
    (hfirst : ctx.table.connections.head? = some c) (hl : LookupReturns ctx connection leader) :
    ∃ new, getAbsMessage m = some new ∧ (handle ctx connection leader m).2 = .requesting c
      (new.updateAbs fun a => { a with messageId := some ctx.randomUUID, isFirstNode := false })
      (m.updateAbs fun a => { a with firstMessageId := a.messageId }) := by
  obtain ⟨new, hnew, _⟩ := getAbsMessage_some h.balanced
  have hn : ctx.table.getNumberOfConnections ≠ 1 := Nat.ne_of_gt h.several
  have hsome := requestMsgToOtherTm_some (m := new) hfirst hl
  refine ⟨new, hnew, ?_⟩
  unfold handle
  rw [if_neg hn, if_pos h.first]
  simp only [getAbsMessage_updateAbs, hnew]
  split
  · rename_i heq
    rw [heq] at hsome
    cases hsome
  · rename_i heq
    rw [heq] at hsome
    cases hsome
    rfl

theorem course_of_requesting {tmMessage absMessage : Message}
    (hrequest : (handle ctx connection leader m).2 = .requesting c tmMessage absMessage) :
    course far ctx connection leader m = ⟨((far c).answer tmMessage).1,
      eventsOn connection
        (resume ctx connection absMessage ((far c).answer tmMessage).2).acts⟩ := by
  unfold course
  rw [hrequest]

/-- A TC at the first connection leaves the TM without an answer. -/
theorem not_sameAsLocal_of_tc (h : Arrives far ctx connection leader m)
    (hfirst : ctx.table.connections.head? = some c) (htc : far c = .tc)
    (hl : LookupReturns ctx connection leader) : ¬ SameAsLocal far ctx connection leader m := by
  obtain ⟨_, _, hrequest⟩ := handle_requesting h hfirst hl
  rintro ⟨tm, seen, reply, locally, heq, _⟩
  rw [course_of_requesting hrequest, htc] at heq
  cases heq

/-- A TM there executes the empty event, and its answer is passed on if it says so. -/
theorem course_tm (h : Arrives far ctx connection leader m) {ctx' : TmContext Ch}
    {back : Connection Ch} {leader' : Option (Connection Ch)} (hfirst : ctx.table.connections.head? = some c)
    (hfar : far c = .tm ctx' back leader') (hl : LookupReturns ctx connection leader) :
    ∃ new tmMessage m' out, getAbsMessage m = some new
      ∧ tmMessage = new.updateAbs (fun a =>
        { a with messageId := some ctx.randomUUID, isFirstNode := false })
      ∧ EventService.execute ctx'.services back.uniqueKey tmMessage = some (m', out)
      ∧ course far ctx connection leader m = ⟨[(ctx', tmMessage)],
        if m'.absMessage.isReadyCallBack then
          [(BeanUtils.copyProperties m' (m.updateAbs fun a =>
            { a with firstMessageId := a.messageId })).updateAbs fun a =>
              { a with messageId := m.messageId, isFirstNode := true }]
        else []⟩ := by
  obtain ⟨new, hnew, hrequest⟩ := handle_requesting h hfirst hl
  obtain ⟨_, hnew', _, habs, _⟩ := getAbsMessage_some h.balanced
  cases hnew.symm.trans hnew'
  obtain ⟨⟨m', out⟩, hexec⟩ := Option.isSome_iff_exists.mp
    (h.succeeds c _ _ ctx' back leader' hrequest hfar)
  have hanswer := answer_tm leader' (h.connected c ctx' back leader' hfar)
    (by simp) (by simp [habs]) hexec
  refine ⟨new, _, m', out, hnew, rfl, hexec, ?_⟩
  rw [course_of_requesting hrequest, hfar, hanswer]
  dsimp only
  rw [eventsOn_resume h.inTable ((balanced_updateAbs _ m).trans h.balanced)]
  simp only [Message.messageId, Message.absMessage_updateAbs]

omit [DecidableEq Ch] in
/-- What a TM with one connection does is to execute the event. -/
theorem acts_onOneConnection : (onOneConnection ctx connection m).acts
    = (ctx.execute connection m).1 := by
  unfold onOneConnection
  split <;> rename_i heq <;> rw [heq] <;> rfl

/-- Only the business of a `SnowflakeCreateEvent` lets its answer through. -/
theorem isReadyCallBack_execute {services : Services} {k : String}
    (hexec : EventService.execute services k m = some (m', out))
    (hm : m.absMessage.isReadyCallBack = false) (hother : ∀ e, m ≠ .snowflake e) :
    m'.absMessage.isReadyCallBack = false := by
  cases m with
  | snowflake e => exact absurd rfl (hother e)
  | create e =>
      simp only [EventService.execute, Option.bind_eq_bind, Option.bind_eq_some_iff] at hexec
      obtain ⟨_, _, heq⟩ := hexec
      cases heq
      exact hm
  | join e =>
      simp only [EventService.execute, Option.bind_eq_bind, Option.bind_eq_some_iff] at hexec
      obtain ⟨_, _, heq⟩ := hexec
      cases heq
      exact hm
  | notify e =>
      simp only [EventService.execute, Option.bind_eq_bind, Option.bind_eq_some_iff] at hexec
      obtain ⟨group, _, heq⟩ := hexec
      cases group <;> cases heq <;> exact hm
  | commit e => cases hexec
  | otherTmNode e => cases hexec

/-- Two ids are generated, and only the note of the first message id is lost. -/
theorem sameAsLocal_snowflake {e : SnowflakeCreateEvent} (hc : connection ∈ ctx.table.connections)
    {ctx' : TmContext Ch} {seen reply : SnowflakeCreateEvent} {k : String}
    (hexec : EventService.execute ctx'.services k (.snowflake seen) = some (.snowflake reply, out))
    (hseen : seen.groupId = none)
    (hcourse : course far ctx connection leader (.snowflake e) = ⟨[(ctx', .snowflake seen)],
      [.snowflake { reply with messageId := e.messageId, isFirstNode := true }]⟩) :
    SameAsLocal far ctx connection leader (.snowflake e) ↔ e.groupId = none := by
  simp only [EventService.execute, Option.bind_eq_bind, Option.bind_eq_some_iff] at hexec
  obtain ⟨⟨groupId, logId⟩, hids, heq⟩ := hexec
  cases heq
  let locally : Message := .snowflake { e with
    groupId := some groupId, logId, isBusinessExecuted := true, isReadyCallBack := true }
  have hlocal : EventService.execute ctx'.services connection.uniqueKey (.snowflake e)
      = some (locally, [(connection.uniqueKey, locally)]) := by
    simp [EventService.execute, hids, locally]
  have hevents : eventsOn connection
      (onOneConnection { ctx with services := ctx'.services } connection (.snowflake e)).acts
        = [locally] := by
    rw [acts_onOneConnection]
    exact eventsOn_execute hc hlocal
  refine ⟨?_, ?_⟩
  · rintro ⟨tm, seen', reply, locally, heq, hgroup, _⟩
    rw [hcourse] at heq
    cases heq
    have hsame : seen.groupId = e.groupId := Option.some.inj hgroup
    exact hsame.symm.trans hseen
  · intro hnone
    exact ⟨ctx', _, _, locally, hcourse, congrArg some (hseen.trans hnone.symm), rfl, rfl,
      hevents, rfl⟩

/-- On the common store a TM can do what it is asked for only if ids are asked for. -/
theorem execute_fresh_ofStore {store : String → Option TransactionGroup}
    {ids : Option (String × Long)} {new : Message} (f : AbsMessage → AbsMessage) (k : String)
    (hnew : getAbsMessage m = some new) (hother : ∀ e, m ≠ .snowflake e) :
    EventService.execute (.ofStore store ids) k (new.updateAbs f) = none := by
  cases m with
  | snowflake e => exact absurd rfl (hother e)
  | create e | join e | notify e =>
      -- the group of the new event is null, and the store refuses a null key
      cases hnew
      rfl
  | commit e | otherTmNode e => cases hnew

omit [DecidableEq Ch] in
/-- So the business of the other events fails wherever it is a TM that is asked. -/
theorem not_arrives_ofStore {ctx' : TmContext Ch} {back : Connection Ch}
    {leader' : Option (Connection Ch)} {store : String → Option TransactionGroup}
    {ids : Option (String × Long)} (hother : ∀ e, m ≠ .snowflake e)
    (hfirst : ctx.table.connections.head? = some c) (hfar : far c = .tm ctx' back leader')
    (hstore : ctx'.services = .ofStore store ids) (hl : LookupReturns ctx connection leader) :
    ¬ Arrives far ctx connection leader m := by
  intro h
  obtain ⟨new, hnew, hrequest⟩ := handle_requesting h hfirst hl
  have hexec := h.succeeds c _ _ ctx' back leader' hrequest hfar
  rw [hstore, execute_fresh_ofStore _ _ hnew hother] at hexec
  cases hexec

/-- **A forwarded event is handled like a local one just in three conditions together.** -/
theorem forwarded_iff (h : Arrives far ctx connection leader m) :
    SameAsLocal far ctx connection leader m ↔
      (∃ e, m = .snowflake e ∧ e.groupId = none)
        ∧ (∃ c, ctx.table.connections.head? = some c ∧ far c ≠ .tc)
        ∧ LookupReturns ctx connection leader := by
  have hne : ctx.table.connections ≠ [] := List.ne_nil_of_mem h.inTable
  obtain ⟨c, hfirst⟩ : ∃ c, ctx.table.connections.head? = some c :=
    ⟨_, List.head?_eq_some_head hne⟩
  by_cases hl : LookupReturns ctx connection leader
  · cases hfar : far c with
    | tc =>
        refine ⟨fun hsame => absurd hsame (not_sameAsLocal_of_tc h hfirst hfar hl), ?_⟩
        rintro ⟨_, ⟨c', hfirst', hother⟩, _⟩
        cases hfirst.symm.trans hfirst'
        exact absurd hfar hother
    | tm ctx' back leader' =>
        have hthere : ∃ c, ctx.table.connections.head? = some c ∧ far c ≠ .tc :=
          ⟨c, hfirst, by simp [hfar]⟩
        obtain ⟨new, tmMessage, m', out, hnew, rfl, hexec, hcourse⟩ :=
          course_tm h hfirst hfar hl
        by_cases hkind : ∃ e, m = .snowflake e
        · obtain ⟨e, rfl⟩ := hkind
          cases hnew
          have hreply := hexec
          simp only [EventService.execute, Message.updateAbs, Option.bind_eq_bind,
            Option.bind_eq_some_iff] at hreply
          obtain ⟨ids, _, heq⟩ := hreply
          cases heq
          rw [sameAsLocal_snowflake h.inTable hexec rfl hcourse]
          refine ⟨fun hnone => ⟨⟨e, rfl, hnone⟩, hthere, hl⟩, ?_⟩
          rintro ⟨⟨e', heq, hnone⟩, _⟩
          cases heq
          exact hnone
        · refine ⟨?_, fun hcond => absurd ⟨_, hcond.1.choose_spec.1⟩ hkind⟩
          rintro ⟨tm, seen, reply, locally, heq, _⟩
          obtain ⟨_, hnew', _, habs, hsnow⟩ := getAbsMessage_some h.balanced
          cases hnew.symm.trans hnew'
          have hquiet := isReadyCallBack_execute hexec (by simp [habs])
            fun e heq => hkind (hsnow _ e heq)
          rw [hcourse, if_neg (by simp [hquiet])] at heq
          cases heq
  · have hthrew := course_threw h hl
    refine ⟨?_, fun hcond => absurd hcond.2.2 hl⟩
    rintro ⟨tm, seen, reply, locally, heq, _⟩
    rw [hthrew] at heq
    cases heq

/-! ## Two TMs and a TC -/

/-- A TM that finds the record of another one in the registry; nothing is stored. -/
def forwardingTm (table : ConnectionService Ch) : TmContext Ch where
  table
  node :=
    { id := "10.0.0.1:8070"
      registry := [some ⟨"TX_MANAGER_1_2", "10.0.0.4:8070", 2⟩]
      addressFormat := fun _ => some ("10.0.0.4", 8070) }
  services := .ofStore (fun _ => none) (some ("g", 7))
  randomUUID := "uuid"

/-- The other TM first, the TC second. -/
def tmAndTc : ConnectionService Bool where
  connections := [⟨false, "10.0.0.4", 8070⟩, ⟨true, "10.0.0.2", 50001⟩]
  distinct := by decide

/-- The same connections, the TC first. -/
def tcAndTm : ConnectionService Bool where
  connections := [⟨true, "10.0.0.2", 50001⟩, ⟨false, "10.0.0.4", 8070⟩]
  distinct := by decide

/-- The other TM has a connection to the first one. -/
def farEnd (c : Connection Bool) : FarEnd Bool :=
  if c.channel then .tc
  else .tm (forwardingTm { connections := [⟨true, "10.0.0.1", 40001⟩] }) ⟨true, "10.0.0.1", 40001⟩
    none

theorem connected_farEnd (c : Connection Bool) (ctx' : TmContext Bool) (back : Connection Bool)
    (leader : Option (Connection Bool)) (hfar : farEnd c = .tm ctx' back leader) :
    back ∈ ctx'.table.connections := by
  unfold farEnd at hfar
  split at hfar
  · cases hfar
  · cases hfar
    simp [forwardingTm]

/-- The other TM can make ids. -/
theorem arrives_snowflake : Arrives farEnd (forwardingTm tmAndTc) ⟨true, "10.0.0.2", 50001⟩ none
    (.snowflake { messageId := some "id", isFirstNode := true }) where
  balanced := rfl
  first := rfl
  inTable := by simp [forwardingTm, tmAndTc]
  several := by decide
  otherTm := ⟨⟨false, "10.0.0.4", 8070⟩, by simp [forwardingTm, tmAndTc], by simp [farEnd]⟩
  connected := connected_farEnd
  succeeds := by
    intro c tmMessage absMessage ctx' back leader' hrequest hfar
    cases hrequest
    cases hfar
    rfl

theorem forwarded_snowflake : SameAsLocal farEnd (forwardingTm tmAndTc)
    ⟨true, "10.0.0.2", 50001⟩ none (.snowflake { messageId := some "id", isFirstNode := true }) :=
  (forwarded_iff arrives_snowflake).mpr
    ⟨⟨_, rfl, rfl⟩, ⟨⟨false, "10.0.0.4", 8070⟩, rfl, by simp [farEnd]⟩, _, rfl, rfl⟩

/-- It is the TC itself that is asked, and no business is executed. -/
theorem arrives_create : Arrives farEnd (forwardingTm tcAndTm) ⟨true, "10.0.0.2", 50001⟩ none
    (.create { groupId := some "g", moduleName := some "order", isFirstNode := true }) where
  balanced := rfl
  first := rfl
  inTable := by simp [forwardingTm, tcAndTm]
  several := by decide
  otherTm := ⟨⟨false, "10.0.0.4", 8070⟩, by simp [forwardingTm, tcAndTm], by simp [farEnd]⟩
  connected := connected_farEnd
  succeeds := by
    intro c tmMessage absMessage ctx' back leader' hrequest hfar
    cases hrequest
    cases hfar

/-- The TC that creates a group is not answered, and the group is created nowhere. -/
theorem forwarded_create :
    ¬ ∀ (Ch : Type) [DecidableEq Ch] (far : Connection Ch → FarEnd Ch) (ctx : TmContext Ch)
      (connection : Connection Ch) (leader : Option (Connection Ch)) (m : Message),
      Arrives far ctx connection leader m → SameAsLocal far ctx connection leader m := by
  intro h
  refine not_sameAsLocal_of_tc arrives_create rfl rfl ⟨_, rfl, rfl⟩ ?_
  exact h Bool farEnd (forwardingTm tcAndTm) ⟨true, "10.0.0.2", 50001⟩ none _ arrives_create

end TxLcn.Proof
