import TxLcn.Proof.Forwarded
import TxLcn.Tm.Forwarding

/-!
# How often the business of a request is executed

A request and its reply are events of the same class, and a TM that gets one
decides by two flags and by the number of its connections whether to execute it.
Only the business of a `SnowflakeCreateEvent` sets the flag that keeps a reply
from being executed, and a TM with one connection does not look at it.

`single_execution_iff` says that this is all: as long as the replies that reach
a TM carry the flag, and the TM has not just one connection when they do, the
business of a request is executed at most once and no reply is sent on.
-/

namespace TxLcn.Proof

open TxLcn.Lib TxLcn.Protocol TxLcn.Tm Forwarding LoadBalancerInterceptor EventStatusHandler

variable {Tm Tc : Type} [DecidableEq Tm] [DecidableEq Tc]

/-- One execution at most, and no TM that handled a reply has sent anything to a TM. -/
def AtMostOnce (s : Forwarding Tm Tc) : Prop := s.executed ≤ 1 ∧ s.resent = false

/-- A reply that reaches a TM is marked as executed, and is not the TM's only connection's. -/
def Recognised (_ : Forwarding Tm Tc) : Delivery Tm Tc → Prop
  | .deliver parcel _ ctx => parcel.reply = true → parcel.target.isTm = true →
      parcel.message.balanced = true → ctx.table.getNumberOfConnections ≠ 1
        ∧ parcel.message.absMessage.isBusinessExecuted = true
  | .resume _ _ _ => True

/-! ## What a TM makes of a message -/

section Handle

variable {Ch : Type} {ctx : TmContext Ch} {connection c : Connection Ch}
  {leader : Option (Connection Ch)} {m m' : Message}

/-- The message is executed here. -/
def Executes (ctx : TmContext Ch) (m : Message) : Prop :=
  ctx.table.getNumberOfConnections = 1
    ∨ m.absMessage.isFirstNode = false ∧ m.absMessage.isBusinessExecuted = false

/-- A call of the interceptor executes the message, or requests it of another, or does nothing. -/
inductive Dispatched (ctx : TmContext Ch) (connection : Connection Ch) (m : Message) :
    Handling Ch → Prop where
  | executed {handling : Handling Ch} : Executes ctx m → handling.isRequesting = false →
      handling.acts = (ctx.execute connection m).1 → Dispatched ctx connection m handling
  | requested {target : Connection Ch} {tmMessage absMessage : Message} : ¬ Executes ctx m →
      m.absMessage.isFirstNode = true → tmMessage.absMessage.isFirstNode = false →
      Dispatched ctx connection m (.requesting target tmMessage absMessage)
  | idle {handling : Handling Ch} : ¬ Executes ctx m → handling.isRequesting = false →
      handling.acts = [] → Dispatched ctx connection m handling

theorem requestMsgToOtherTm_isFirstNode {target : Connection Ch} {tmMessage : Message}
    (h : (requestMsgToOtherTm ctx connection leader m).2 = some (target, tmMessage)) :
    tmMessage.absMessage.isFirstNode = false := by
  unfold requestMsgToOtherTm at h
  split at h
  · cases h
  · unfold TmManagerReporter.requestMsg at h
    dsimp only at h
    split at h
    · cases h
    · obtain ⟨_, _, heq⟩ := Option.map_eq_some_iff.mp h
      cases heq
      simp

/-- One who is not the first executes what is left to execute. -/
theorem afterFirstNode_dispatched (hn : ctx.table.getNumberOfConnections ≠ 1)
    (hfirst : m.absMessage.isFirstNode = false) :
    Dispatched ctx connection m (afterFirstNode ctx connection m) := by
  unfold afterFirstNode onBusinessExecuted
  by_cases hdone : m.absMessage.isBusinessExecuted = true
  · have hnot : ¬ Executes ctx m := by simp [Executes, hn, hdone]
    rw [if_neg (by simp [hdone])]
    refine .idle hnot rfl ?_
    simp [Handling.acts, onReadyCallBack, hfirst]
  · rw [Bool.not_eq_true] at hdone
    have hexec : Executes ctx m := Or.inr ⟨hfirst, hdone⟩
    rw [if_pos (by simp [hfirst, hdone])]
    unfold TmContext.execute
    split
    · rename_i acts heq
      split at heq
      · cases heq
        exact .executed hexec rfl (by simp [Handling.acts, TmContext.execute, *])
      · cases heq
    · rename_i acts m' heq
      split at heq
      · cases heq
      · rename_i m'' out hsome
        cases heq
        -- the answer of one who is not the first is not called back
        obtain ⟨_, _, _, _, hkeep, _⟩ := execute_some hsome
        refine .executed hexec rfl ?_
        simp [Handling.acts, onReadyCallBack, hkeep, hfirst, TmContext.execute, hsome]

theorem handle_dispatched (ctx : TmContext Ch) (connection : Connection Ch)
    (leader : Option (Connection Ch)) (m : Message) :
    Dispatched ctx connection m (handle ctx connection leader m).2 := by
  unfold handle
  by_cases hn : ctx.table.getNumberOfConnections = 1
  · rw [if_pos hn]
    dsimp only
    unfold onOneConnection
    split <;> rename_i heq
    · exact .executed (Or.inl hn) rfl (by rw [heq]; rfl)
    · exact .executed (Or.inl hn) rfl (by rw [heq]; rfl)
  · rw [if_neg hn]
    by_cases hfirst : m.absMessage.isFirstNode = true
    · have hnot : ¬ Executes ctx m := by simp [Executes, hn, hfirst]
      rw [if_pos hfirst]
      dsimp only
      split
      · exact .idle hnot rfl rfl
      · split
        · exact .idle hnot rfl rfl
        · rename_i heq
          exact .requested hnot hfirst
            (requestMsgToOtherTm_isFirstNode (congrArg Prod.snd heq))
    · rw [if_neg hfirst]
      exact afterFirstNode_dispatched hn (by simpa using hfirst)

/-- An event that an execution puts on a connection is the executed one, on its way back. -/
theorem sent_execute (h : .sent c m' ∈ (ctx.execute connection m).1) (hm' : m'.balanced = true) :
    ctx.table.getConnection connection.uniqueKey = some c
      ∧ m'.absMessage.isFirstNode = m.absMessage.isFirstNode := by
  unfold TmContext.execute at h
  split at h
  · simp at h
  · rename_i m'' out hsome
    obtain ⟨announced, rfl, hann, _, hkeep, _⟩ := execute_some hsome
    rw [List.mem_cons] at h
    rcases h with h | h
    · cases h
    · obtain ⟨msg, hmem, hsent⟩ := List.mem_flatMap.mp h
      obtain ⟨hget, rfl⟩ := mem_sendMsg_iff.mp hsent
      rcases List.mem_append.mp hmem with hmem | hmem
      · exact absurd ((hann msg hmem).1.symm.trans hm') (by simp)
      · cases List.mem_singleton.mp hmem
        exact ⟨hget, hkeep⟩

/-- The rest of a call executes nothing, and calls back at most. -/
theorem resume_acts (ctx : TmContext Ch) (connection : Connection Ch) (absMessage : Message)
    (answer : Option Message) : (resume ctx connection absMessage answer).isRequesting = false
      ∧ executions (resume ctx connection absMessage answer).acts = []
      ∧ ∀ c m', .sent c m' ∈ (resume ctx connection absMessage answer).acts →
        ctx.table.getConnection connection.uniqueKey = some c := by
  cases answer with
  | none => exact ⟨rfl, rfl, by simp [resume, Handling.acts]⟩
  | some message =>
      have hskip : ∀ m : Message, m.absMessage.isFirstNode = true →
          afterFirstNode ctx connection m = .returned (onReadyCallBack ctx connection m) := by
        intro m hfirst
        simp [afterFirstNode, onBusinessExecuted, hfirst]
      dsimp only [resume]
      rw [hskip _ (by simp)]
      refine ⟨rfl, ?_, ?_⟩
      · simp only [Handling.acts, onReadyCallBack]
        split <;> simp
      · intro c m' h
        simp only [Handling.acts, onReadyCallBack] at h
        split at h
        · exact (mem_sendMsg_iff.mp h).1
        · cases h

end Handle

/-! ## The invariant -/

/-- A request that is on its way to a TM. -/
def pending (parcel : Parcel Tm Tc) : Bool := !parcel.reply && parcel.target.isTm

/--
Either the request is on its way to a TM, or its business has been executed, or
neither. What is on its way from a TM to a TM is not the first one's.
-/
structure Tracked (peer : Tm → String → Peer Tm Tc) (s : Forwarding Tm Tc) : Prop where
  once : s.flight.countP pending + s.executed ≤ 1
  quiet : s.resent = false
  replies : ∀ parcel ∈ s.flight, parcel.reply = true → parcel.target.isTm = true →
    parcel.message.balanced = true → parcel.message.absMessage.isFirstNode = false
      ∧ s.executed = 1
  requests : ∀ parcel ∈ s.flight, parcel.reply = false → parcel.source.isTm = true →
    parcel.message.absMessage.isFirstNode = false
  waits : ∀ tm, ∀ w ∈ s.waiting tm, (peer tm w.connection.uniqueKey).isTm = false

variable {peer : Tm → String → Peer Tm Tc} {s t : Forwarding Tm Tc}

omit [DecidableEq Tm] [DecidableEq Tc] in
theorem tracked_requested (tc : Tc) (tm : Tm) (request : Message) :
    Tracked peer (requested tc tm request) where
  once := by simp [requested, pending, Peer.isTm]
  quiet := rfl
  replies := by
    intro parcel hmem hreply
    rw [requested, List.mem_singleton] at hmem
    subst hmem
    cases hreply
  requests := by
    intro parcel hmem _ hsource
    rw [requested, List.mem_singleton] at hmem
    subst hmem
    cases hsource
  waits := by
    intro tm w hw
    cases hw

omit [DecidableEq Tm] [DecidableEq Tc] in
theorem Tracked.atMostOnce (hs : Tracked peer s) : AtMostOnce s :=
  ⟨Nat.le_trans (Nat.le_add_left _ _) hs.once, hs.quiet⟩

omit [DecidableEq Tm] [DecidableEq Tc] in
theorem mem_parcels {tm : Tm} {reply : Bool} {acts : List (Act (Peer Tm Tc))}
    {parcel : Parcel Tm Tc} : parcel ∈ parcels tm reply acts ↔
      ∃ c m, .sent c m ∈ acts ∧ parcel = ⟨.tm tm, c.channel, m, reply⟩ := by
  unfold parcels
  rw [List.mem_filterMap]
  refine ⟨?_, ?_⟩
  · intro ⟨act, hmem, heq⟩
    cases act with
    | executed m => cases heq
    | sent c m =>
        cases heq
        exact ⟨c, m, hmem, rfl⟩
  · rintro ⟨c, m, hmem, rfl⟩
    exact ⟨_, hmem, rfl⟩

omit [DecidableEq Tm] [DecidableEq Tc] in
/-- A connection of a wired table leads where its key says. -/
theorem channel_of_getConnection {tm : Tm} {ctx : TmContext (Peer Tm Tc)} {k : String}
    {c : Connection (Peer Tm Tc)} (hw : Wired peer tm ctx)
    (h : ctx.table.getConnection k = some c) : c.channel = peer tm k := by
  rw [← hw c (ConnectionService.mem_of_getConnection h),
    ConnectionService.uniqueKey_of_getConnection h]

omit [DecidableEq Tm] [DecidableEq Tc] in
/-- To be woken changes nobody's connection. -/
theorem mem_wake {m : Message} {ws : List (Waiting Tm Tc)} {w : Waiting Tm Tc}
    (h : w ∈ wake m ws) : ∃ w' ∈ ws, w.connection = w'.connection := by
  induction ws with
  | nil => cases h
  | cons w₀ rest ih =>
      unfold wake at h
      split at h
      · rcases List.mem_cons.mp h with rfl | h
        · exact ⟨w₀, List.mem_cons_self, rfl⟩
        · exact ⟨w, List.mem_cons_of_mem _ h, rfl⟩
      · rcases List.mem_cons.mp h with rfl | h
        · exact ⟨w, List.mem_cons_self, rfl⟩
        · obtain ⟨w', hmem, heq⟩ := ih h
          exact ⟨w', List.mem_cons_of_mem _ hmem, heq⟩

omit [DecidableEq Tc] in
theorem waits_update {tm : Tm} {ws : List (Waiting Tm Tc)} (hs : Tracked peer s)
    (hws : ∀ w ∈ ws, (peer tm w.connection.uniqueKey).isTm = false) :
    ∀ tm', ∀ w ∈ Function.update s.waiting tm ws tm',
      (peer tm' w.connection.uniqueKey).isTm = false := by
  intro tm' w hw
  by_cases heq : tm' = tm
  · subst heq
    rw [Function.update_self] at hw
    exact hws w hw
  · rw [Function.update_of_ne heq] at hw
    exact hs.waits tm' w hw

omit [DecidableEq Tm] [DecidableEq Tc] in
theorem waits_wake {tm : Tm} (hs : Tracked peer s) (m : Message) :
    ∀ w ∈ wake m (s.waiting tm), (peer tm w.connection.uniqueKey).isTm = false := by
  intro w hw
  obtain ⟨w', hmem, heq⟩ := mem_wake hw
  rw [heq]
  exact hs.waits tm w' hmem

/-- A parcel is taken out of the flight. -/
theorem Tracked.erase {parcel : Parcel Tm Tc} (hs : Tracked peer s) (hmem : parcel ∈ s.flight) :
    Tracked peer { s with flight := s.flight.erase parcel }
      ∧ (pending parcel = true → (s.flight.erase parcel).countP pending = 0 ∧ s.executed = 0) := by
  have hcount : s.flight.countP pending
      = (s.flight.erase parcel).countP pending + if pending parcel then 1 else 0 := by
    rw [(List.perm_cons_erase hmem).countP_eq, List.countP_cons]
  have honce := hs.once
  refine ⟨⟨?_, hs.quiet, ?_, ?_, hs.waits⟩, ?_⟩
  · dsimp only
    omega
  · exact fun p hp => hs.replies p (List.mem_of_mem_erase hp)
  · exact fun p hp => hs.requests p (List.mem_of_mem_erase hp)
  · intro hpending
    rw [if_pos hpending] at hcount
    omega

omit [DecidableEq Tm] [DecidableEq Tc] in
/-- Replies are not pending. -/
theorem countP_parcels_reply (tm : Tm) (acts : List (Act (Peer Tm Tc))) :
    (parcels tm true acts).countP pending = 0 := by
  rw [List.countP_eq_zero]
  intro parcel hmem
  obtain ⟨c, m, _, rfl⟩ := mem_parcels.mp hmem
  simp [pending]

omit [DecidableEq Tm] [DecidableEq Tc] in
theorem waits_of_not_requesting (connection : Connection (Peer Tm Tc))
    {handling : Handling (Peer Tm Tc)} (h : handling.isRequesting = false) :
    waits connection handling = [] := by
  cases handling <;> first | rfl | cases h

omit [DecidableEq Tc] in
/-- A TM gets a message and does nothing, or no more than wake somebody. -/
theorem tracked_receive_idle (tm : Tm) (reply : Bool) (connection : Connection (Peer Tm Tc))
    (ctx : TmContext (Peer Tm Tc)) (m : Message) (hs : Tracked peer s)
    (hreq : (handle ctx connection (s.leader tm) m).2.isRequesting = false)
    (hacts : (handle ctx connection (s.leader tm) m).2.acts = []) :
    Tracked peer (s.receive tm reply connection ctx m) := by
  have hreceive : s.receive tm reply connection ctx m = { s with
      leader := Function.update s.leader tm (handle ctx connection (s.leader tm) m).1
      waiting := Function.update s.waiting tm (wake m (s.waiting tm)) } := by
    simp [receive, perform, hreq, hacts, parcels, waits_of_not_requesting connection hreq]
  rw [hreceive]
  exact ⟨hs.once, hs.quiet, hs.replies, hs.requests, waits_update hs (waits_wake hs m)⟩

omit [DecidableEq Tm] [DecidableEq Tc] in
/-- Replies are sent, and the business may have been executed. -/
theorem tracked_replied {tm : Tm} {acts : List (Act (Peer Tm Tc))} {executed : Nat}
    {leader : Tm → Option (Connection (Peer Tm Tc))} {waiting : Tm → List (Waiting Tm Tc)}
    (hs : Tracked peer s) (honce : s.flight.countP pending + executed ≤ 1)
    (hkept : s.executed = 1 → executed = 1)
    (hnew : ∀ c m, .sent c m ∈ acts → c.channel.isTm = true → m.balanced = true →
      m.absMessage.isFirstNode = false ∧ executed = 1)
    (hwaits : ∀ tm, ∀ w ∈ waiting tm, (peer tm w.connection.uniqueKey).isTm = false) :
    Tracked peer { s with
      flight := s.flight ++ parcels tm true acts, executed, leader, waiting } where
  once := by
    rw [List.countP_append, countP_parcels_reply]
    exact honce
  quiet := hs.quiet
  replies := by
    intro parcel hmem hreply htarget hbal
    rcases List.mem_append.mp hmem with hold | hsent
    · obtain ⟨hfirst, hone⟩ := hs.replies parcel hold hreply htarget hbal
      exact ⟨hfirst, hkept hone⟩
    · obtain ⟨c, m, hact, rfl⟩ := mem_parcels.mp hsent
      exact hnew c m hact htarget hbal
  requests := by
    intro parcel hmem hask hsource
    rcases List.mem_append.mp hmem with hold | hsent
    · exact hs.requests parcel hold hask hsource
    · obtain ⟨c, m, _, rfl⟩ := mem_parcels.mp hsent
      cases hask
  waits := hwaits

omit [DecidableEq Tm] [DecidableEq Tc] in
/-- The request is sent on, which has been on its way to nobody else. -/
theorem tracked_asked {tm : Tm} {target : Connection (Peer Tm Tc)} {tmMessage : Message}
    {leader : Tm → Option (Connection (Peer Tm Tc))} {waiting : Tm → List (Waiting Tm Tc)}
    (hs : Tracked peer s) (hnone : s.flight.countP pending = 0 ∧ s.executed = 0)
    (hfirst : tmMessage.absMessage.isFirstNode = false)
    (hwaits : ∀ tm, ∀ w ∈ waiting tm, (peer tm w.connection.uniqueKey).isTm = false) :
    Tracked peer { s with
      flight := s.flight ++ parcels tm false [.sent target tmMessage], leader, waiting } where
  once := by
    have hle : (parcels tm false [.sent target tmMessage]).countP pending ≤ 1 :=
      List.countP_le_length
    rw [List.countP_append, hnone.1, hnone.2]
    omega
  quiet := hs.quiet
  replies := by
    intro parcel hmem hreply htarget hbal
    rcases List.mem_append.mp hmem with hold | hsent
    · exact hs.replies parcel hold hreply htarget hbal
    · obtain ⟨c, m, _, rfl⟩ := mem_parcels.mp hsent
      cases hreply
  requests := by
    intro parcel hmem hask hsource
    rcases List.mem_append.mp hmem with hold | hsent
    · exact hs.requests parcel hold hask hsource
    · obtain ⟨c, m, hact, rfl⟩ := mem_parcels.mp hsent
      rw [List.mem_singleton] at hact
      cases hact
      exact hfirst
  waits := hwaits

omit [DecidableEq Tc] in
/-- A TM handles a request. -/
theorem tracked_receive_request {tm : Tm} {source : Peer Tm Tc} {m : Message}
    {connection : Connection (Peer Tm Tc)} {ctx : TmContext (Peer Tm Tc)} (hs : Tracked peer s)
    (hnone : s.flight.countP pending = 0 ∧ s.executed = 0) (hwired : Wired peer tm ctx)
    (hsource : peer tm connection.uniqueKey = source)
    (hfirst : source.isTm = true → m.absMessage.isFirstNode = false) :
    Tracked peer (s.receive tm false connection ctx m) := by
  have hdisp := handle_dispatched ctx connection (s.leader tm) m
  have hidle := tracked_receive_idle tm false connection ctx m hs
  unfold receive perform at hidle ⊢
  generalize LoadBalancerInterceptor.handle ctx connection (s.leader tm) m = result
    at hdisp hidle ⊢
  obtain ⟨leader, handling⟩ := result
  cases hdisp with
  | executed _ hreq hacts =>
      simp only [hreq, hacts, Bool.not_false, executions_execute, List.length_singleton,
        waits_of_not_requesting connection hreq, List.append_nil, Bool.false_and, Bool.or_false]
      refine tracked_replied hs ?_ ?_ ?_ (waits_update hs (waits_wake hs m))
      · rw [hnone.1, hnone.2]
      · intro hone
        exact absurd (hnone.2.symm.trans hone) (by decide)
      · intro c m' hsent htarget hbal
        obtain ⟨hget, hkeep⟩ := sent_execute hsent hbal
        rw [channel_of_getConnection hwired hget, hsource] at htarget
        exact ⟨hkeep.trans (hfirst htarget), by rw [hnone.2]⟩
  | @requested target tmMessage absMessage _ hm hnew =>
      -- the first node has the request from a TC, which the thread waits for
      have hnotTm : source.isTm = false := by
        by_contra hsrc
        exact absurd ((hfirst (by simpa using hsrc)).symm.trans hm) (by decide)
      simp only [Bool.false_and, Bool.or_false]
      refine tracked_asked hs hnone hnew (waits_update hs ?_)
      intro w hw
      rcases List.mem_append.mp hw with hold | hthere
      · exact waits_wake hs m w hold
      · rw [waits, List.mem_singleton] at hthere
        subst hthere
        dsimp only
        rw [hsource]
        exact hnotTm
  | idle _ hreq hacts => exact hidle hreq hacts

omit [DecidableEq Tm] [DecidableEq Tc] in
/-- A reply that is recognised is not executed, and is no first one's. -/
theorem not_executes_reply {s : Forwarding Tm Tc} {parcel : Parcel Tm Tc}
    {connection : Connection (Peer Tm Tc)} {ctx : TmContext (Peer Tm Tc)} (hs : Tracked peer s)
    (hmem : parcel ∈ s.flight) (hreply : parcel.reply = true) (htm : parcel.target.isTm = true)
    (hbal : parcel.message.balanced = true)
    (hc : Recognised s (.deliver parcel connection ctx)) :
    parcel.message.absMessage.isFirstNode = false ∧ ¬ Executes ctx parcel.message := by
  obtain ⟨hn, hdone⟩ := hc hreply htm hbal
  refine ⟨(hs.replies parcel hmem hreply htm hbal).1, ?_⟩
  rintro (hone | ⟨_, hleft⟩)
  · exact hn hone
  · exact absurd (hdone.symm.trans hleft) (by decide)

omit [DecidableEq Tc] in
/-- A TM handles a reply that it recognises. -/
theorem tracked_receive_reply {tm : Tm} {m : Message} {connection : Connection (Peer Tm Tc)}
    {ctx : TmContext (Peer Tm Tc)} (hs : Tracked peer s)
    (hfirst : m.absMessage.isFirstNode = false) (hnot : ¬ Executes ctx m) :
    Tracked peer (s.receive tm true connection ctx m) := by
  have hdisp := handle_dispatched ctx connection (s.leader tm) m
  have hidle := tracked_receive_idle tm true connection ctx m hs
  generalize hhandle : (handle ctx connection (s.leader tm) m).2 = handling at hdisp hidle
  cases hdisp with
  | executed hexec _ _ => exact absurd hexec hnot
  | requested _ hm _ => exact absurd (hfirst.symm.trans hm) (by decide)
  | idle _ hreq hacts => exact hidle hreq hacts

omit [DecidableEq Tc] in
/-- A thread that has waited goes on, and tells its TC at most. -/
theorem tracked_goOn {tm : Tm} {index : Nat} {w : Waiting Tm Tc}
    {ctx : TmContext (Peer Tm Tc)} (hs : Tracked peer s) (hwired : Wired peer tm ctx)
    (hw : w ∈ s.waiting tm) : Tracked peer (s.goOn tm index w ctx) := by
  obtain ⟨hreq, hnone, hsent⟩ := resume_acts ctx w.connection w.absMessage w.answer
  unfold goOn perform
  rw [hreq, hnone]
  refine tracked_replied hs hs.once id ?_ ?_
  · intro c m hact htarget _
    rw [channel_of_getConnection hwired (hsent c m hact), hs.waits tm w hw] at htarget
    cases htarget
  · exact waits_update hs fun w' hw' => hs.waits tm w' (List.mem_of_mem_eraseIdx hw')

theorem tracked_step {e : Delivery Tm Tc} (hs : Tracked peer s) (hc : Recognised s e)
    (h : s.step peer e = some t) : Tracked peer t := by
  cases step_moved h with
  | atTc hmem _ => exact (hs.erase hmem).1
  | @announced parcel _ _ tm hmem _ =>
      obtain ⟨hrest, _⟩ := hs.erase hmem
      exact ⟨hrest.once, hrest.quiet, hrest.replies, hrest.requests,
        waits_update hs (waits_wake hs parcel.message)⟩
  | @received parcel connection ctx tm hmem htarget hwired hsource hbal =>
      obtain ⟨hrest, hnone⟩ := hs.erase hmem
      have htm : parcel.target.isTm = true := by rw [htarget]; rfl
      cases hreply : parcel.reply with
      | true =>
          obtain ⟨hfirst, hnot⟩ := not_executes_reply hs hmem hreply htm hbal hc
          exact tracked_receive_reply hrest hfirst hnot
      | false =>
          have hpending : pending parcel = true := by simp [pending, hreply, htm]
          exact tracked_receive_request hrest (hnone hpending) hwired hsource
            (hs.requests parcel hmem hreply)
  | resumed hwired hw => exact tracked_goOn hs hwired hw

/-- A reply that is not recognised is executed once more. -/
theorem not_atMostOnce {e : Delivery Tm Tc} (hs : Tracked peer s) (hc : ¬ Recognised s e)
    (h : s.step peer e = some t) : ¬ AtMostOnce t := by
  cases step_moved h with
  | atTc hmem htarget =>
      refine absurd (fun _ htm => ?_) hc
      exact absurd (htm.symm.trans htarget) (by decide)
  | announced hmem hbal =>
      refine absurd (fun _ _ hbal' => ?_) hc
      exact absurd (hbal.symm.trans hbal') (by decide)
  | @received parcel connection ctx tm hmem htarget hwired hsource hbal =>
      have htm : parcel.target.isTm = true := by rw [htarget]; rfl
      have hreply : parcel.reply = true := by
        by_contra hask
        exact hc fun hreply => absurd hreply hask
      obtain ⟨hfirst, hone⟩ := hs.replies parcel hmem hreply htm hbal
      have hexec : Executes ctx parcel.message := by
        by_contra hnot
        refine hc fun _ _ _ => ⟨fun hn => hnot (Or.inl hn), ?_⟩
        by_contra hleft
        exact hnot (Or.inr ⟨hfirst, by simpa using hleft⟩)
      have hdisp := handle_dispatched ctx connection (s.leader tm) parcel.message
      intro hatMost
      have htwo : ({ s with flight := s.flight.erase parcel }.receive tm parcel.reply connection
          ctx parcel.message).executed = s.executed + 1 := by
        simp only [receive, perform]
        generalize (handle ctx connection (s.leader tm) parcel.message).2 = handling at hdisp ⊢
        cases hdisp with
        | executed _ _ hacts => rw [hacts, executions_execute]; rfl
        | requested hnot _ _ => exact absurd hexec hnot
        | idle hnot _ _ => exact absurd hexec hnot
      have hle := hatMost.1
      rw [htwo, hone] at hle
      exact absurd hle (by decide)
  | resumed _ _ => exact absurd trivial hc

/--
**The business of a request is executed at most once, and no reply is sent on,
in just the runs in which every TM recognises the replies it gets.**
-/
theorem single_execution_iff (peer : Tm → String → Peer Tm Tc) (tc : Tc) (tm : Tm)
    (request : Message) (es : List (Delivery Tm Tc)) :
    AllStates (step peer) AtMostOnce (requested tc tm request) es
      ↔ AllSteps (step peer) Recognised (requested tc tm request) es :=
  allStates_iff_allSteps (fun _ hs => hs.atMostOnce) (fun _ _ _ hs hc h => tracked_step hs hc h)
    (fun _ _ _ hs hc h => not_atMostOnce hs hc h) (tracked_requested tc tm request)

/-! ## A TC that goes away too soon -/

/-- What the second TM has at the keys of its connections is the first one. -/
def peerOf (tm : Bool) (uniqueKey : String) : Peer Bool Unit :=
  if tm then .tm false
  else if uniqueKey = "10.0.0.4:8070" then .tm true
  else .tc ()

/-- What the business makes of the empty event that is forwarded. -/
def answered : Message := .snowflake
  { messageId := some "uuid"
    isBusinessExecuted := true
    isReadyCallBack := true
    groupId := some "g"
    logId := 7 }

/-- The first TM forwards the request, loses the TC, and gets the reply. -/
def repliedLate : List (Delivery Bool Unit) :=
  let toSecond : Connection (Peer Bool Unit) := ⟨.tm true, "10.0.0.4", 8070⟩
  let toFirst : Connection (Peer Bool Unit) := ⟨.tm false, "10.0.0.1", 40001⟩
  let toTc : Connection (Peer Bool Unit) := ⟨.tc (), "10.0.0.2", 50001⟩
  [ .deliver ⟨.tc (), .tm false, .snowflake { messageId := some "id", isFirstNode := true }, false⟩
      toTc (forwardingTm { connections := [toSecond, toTc], distinct := by decide }),
    .deliver ⟨.tm false, .tm true, .snowflake { messageId := some "uuid" }, false⟩
      toFirst (forwardingTm { connections := [toFirst] }),
    .deliver ⟨.tm true, .tm false, answered, true⟩
      toSecond (forwardingTm { connections := [toSecond] }) ]

/-- The reply is executed as if it were a request. -/
theorem executed_twice :
    ¬ ∀ (Tm Tc : Type) [DecidableEq Tm] [DecidableEq Tc] (peer : Tm → String → Peer Tm Tc)
      (tc : Tc) (tm : Tm) (request : Message) (es : List (Delivery Tm Tc)),
      AllStates (step peer) AtMostOnce (requested tc tm request) es := by
  intro h
  have hall := h Bool Unit peerOf () false
    (.snowflake { messageId := some "id", isFirstNode := true }) repliedLate
  have htwice : (exec (step peerOf) (requested () false
      (.snowflake { messageId := some "id", isFirstNode := true })) repliedLate).map (·.executed)
        = some 2 := by decide
  obtain ⟨t, hrun, htwo⟩ := Option.map_eq_some_iff.mp htwice
  have hone := (hall.last hrun).1
  rw [htwo] at hone
  exact absurd hone (by decide)

end TxLcn.Proof
