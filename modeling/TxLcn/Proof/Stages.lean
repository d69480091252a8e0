import TxLcn.Proof.InFlight

/-!
# The stages of a group in which nothing gets lost

Where a participant is, what is in flight to or from it and what the store says of
it hang together: `CreatorStage` and `JoinerStage` list what there is as long as
every request is answered and every call on a connection returns. A step moves one
participant to its next stage; only the notification moves others too, when the TM
announces the decision.
-/

namespace TxLcn.Proof

open TxLcn.Lib TxLcn.Protocol TxLcn.Tm TxLcn.Tc Commitment

/--
Nothing gets lost in the step. The creator's business comes to the outcome `b`, after
those it has called have been answered; what the others come to is left open, but each
has opened a connection, so that its task can wait.
-/
def FaultFree (c : String) (b : Bool) (s : Commitment) : Action → Prop
  | .tryBegin k => k = c ∨ (s.party c).pc = .business
  | .tryEnd k success capture => if k = c then success = b
      ∧ ∀ k', k' ≠ c → (s.party k').pc = .idle ∨ (s.party k').pc = .waiting
    else capture.jdbcTransaction = true
  | .handle _ _ _ _ => True
  | .answer _ _ succeeds => ∀ call, succeeds call = true
  | .decide _ _ succeeds => ∀ call, succeeds call = true
  | .expire _ _ => False
  | .giveUp _ => False
  | .lose _ => False

/-- Who sends or gets the packet, besides the TM. -/
def partyOf : Packet → String
  | .request k _ _ => k
  | .reply k _ _ => k
  | .event k _ => k

/-- What is in flight between the participant and the TM. -/
def mail (k : String) (s : Commitment) : List Packet :=
  s.flight.filter fun packet => partyOf packet = k

/-- How often the participant has joined. -/
def joins (k : String) (G : TransactionGroup) : Nat :=
  G.listTransaction.countP fun info => info.uniqueKey = k

/-- The decision `b` has been carried out on the connection, if there is one. -/
structure CarriedOut (b : Bool) (p : Participant) : Prop where
  committed : p.committed = (b && p.connection.isSome)
  rolledBack : p.rolledBack = (!b && p.connection.isSome)

/-- The stages of the creator, with its mail and the record of the group. -/
inductive CreatorStage (g c : String) (b : Bool) (p : Participant) :
    List Packet → Option TransactionGroup → Prop where
  | idle (hpc : p.pc = .idle) (hstate : p.transactionInfo.transactionState = .CREATE) :
      CreatorStage g c b p [] none
  | asks (event : TransactionCreateEvent) (hpc : p.pc = .creating)
      (hgroup : event.groupId = some g) :
      CreatorStage g c b p [.request c p.attempt (.create event)] none
  | asked (event : TransactionCreateEvent) (G : TransactionGroup) (hpc : p.pc = .creating)
      (hopen : G.state = .JOIN) :
      CreatorStage g c b p [.reply c p.attempt (.create event)] (some G)
  | business (G : TransactionGroup) (hpc : p.pc = .business) (hopen : G.state = .JOIN) :
      CreatorStage g c b p [] (some G)
  | notifies (event : TransactionNotifyEvent) (G : TransactionGroup) (hpc : p.pc = .notifying)
      (hgroup : event.groupId = some g) (hevent : event.success = b)
      (hsuccess : p.transactionInfo.successReturn = some b) (hopen : G.state = .JOIN) :
      CreatorStage g c b p [.request c p.attempt (.notify event)] (some G)
  | notified (event : TransactionNotifyEvent) (G : TransactionGroup) (hpc : p.pc = .notifying)
      (hevent : event.success = b) (hsuccess : p.transactionInfo.successReturn = some b)
      (hdone : G.state = .parser b) :
      CreatorStage g c b p [.reply c p.attempt (.notify event)] (some G)
  | ended (G : TransactionGroup) (hpc : p.pc = .ended) (hcarried : CarriedOut b p)
      (hdone : G.state = .parser b) : CreatorStage g c b p [] (some G)

/-- The stages of a participant that joins. -/
inductive JoinerStage (g k : String) (b : Bool) (p : Participant) :
    List Packet → Option TransactionGroup → Prop where
  | idle (record : Option TransactionGroup) (hpc : p.pc = .idle)
      (hjoins : ∀ G, record = some G → joins k G = 0) : JoinerStage g k b p [] record
  | business (G : TransactionGroup) (hpc : p.pc = .business) (hopen : G.state = .JOIN)
      (hjoins : joins k G = 0) : JoinerStage g k b p [] (some G)
  | asks (event : TransactionJoinEvent) (G : TransactionGroup) (hpc : p.pc = .joining)
      (hbound : p.jdbcTransaction = true) (hgroup : event.groupId = some g)
      (hopen : G.state = .JOIN) (hjoins : joins k G = 0) :
      JoinerStage g k b p [.request k p.attempt (.join event)] (some G)
  | asked (event : TransactionJoinEvent) (G : TransactionGroup) (hpc : p.pc = .joining)
      (hbound : p.jdbcTransaction = true) (hopen : G.state = .JOIN) (hjoins : joins k G = 1) :
      JoinerStage g k b p [.reply k p.attempt (.join event)] (some G)
  | waiting (G : TransactionGroup) (hpc : p.pc = .waiting) (hopen : G.state = .JOIN)
      (hjoins : joins k G = 1) : JoinerStage g k b p [] (some G)
  | told (event : TransactionCommitEvent) (G : TransactionGroup) (hpc : p.pc = .waiting)
      (hcommit : event.commit = b) (hdone : G.state = .parser b) :
      JoinerStage g k b p [.event k event] (some G)
  | ended (G : TransactionGroup) (hpc : p.pc = .ended) (hcarried : CarriedOut b p)
      (hdone : G.state = .parser b) : JoinerStage g k b p [] (some G)

/-- Everybody is at some stage; while the creator notifies the others wait. -/
structure OnTrack (g c : String) (b : Bool) (s : Commitment) : Prop where
  parties : ∀ k, (s.party k).WellFormed g (k = c)
  creator : CreatorStage g c b (s.party c) (mail c s) (s.store g)
  joiners : ∀ k, k ≠ c → JoinerStage g k b (s.party k) (mail k s) (s.store g)
  calm : (s.party c).pc = .notifying → ∀ k, k ≠ c → (s.party k).pc ≠ .business
    ∧ (s.party k).pc ≠ .joining
  unjoined : ∀ G, s.store g = some G → joins c G = 0

/-- What has been decided is not open any more. -/
theorem not_open {G : TransactionGroup} {b : Bool} (hdone : G.state = .parser b) :
    G.state ≠ .JOIN := by
  rw [hdone]
  cases b <;> simp [TransactionState.parser]

/-! ## Mail -/

variable {g c k k' : String} {s t : Commitment} {packet : Packet} {p q : Participant}
  {creator : Prop} {b : Bool} {succeeds : RawCall → Bool} {applicationName : String → Option String}

theorem mem_flight_of_mail (h : packet ∈ mail k s) : packet ∈ s.flight :=
  (List.mem_filter.mp h).1

theorem mem_mail (h : packet ∈ s.flight) : packet ∈ mail (partyOf packet) s :=
  List.mem_filter.mpr ⟨h, by simp⟩

/-- A packet that is taken is taken out of the mail of its participant. -/
theorem mail_take (h : s.take packet = some t) : mail k t = (mail k s).erase packet := by
  obtain ⟨_, rfl⟩ := take_some h
  exact List.erase_filter.symm

theorem mail_take_of_ne (h : s.take packet = some t) (hk : partyOf packet ≠ k) :
    mail k t = mail k s := by
  rw [mail_take h]
  refine List.erase_of_not_mem fun hmem => ?_
  exact hk (by simpa using (List.mem_filter.mp hmem).2)

theorem mail_move_of_ne {next : Participant.Next} (hk : k' ≠ k) :
    mail k' (s.move applicationName k next) = mail k' s := by
  obtain ⟨p, _ | message⟩ := next
  · rfl
  · show (s.flight ++ [_]).filter _ = s.flight.filter _
    rw [List.filter_append]
    simp [partyOf, Ne.symm hk]

theorem mail_move_none : mail k' (s.move applicationName k (p, none)) = mail k' s := rfl

theorem mail_move_some {message : Message} : mail k (s.move applicationName k (p, some message))
    = mail k s ++ [.request k (p.attempt + 1)
      (TxManagerReporter.prepare (applicationName k) "" message)] := by
  show (s.flight ++ [_]).filter _ = s.flight.filter _ ++ _
  rw [List.filter_append]
  simp [partyOf]

theorem party_move_none : (s.move applicationName k (p, none)).party k = p :=
  Function.update_self ..

theorem party_move_some {message : Message} :
    (s.move applicationName k (p, some message)).party k = { p with attempt := p.attempt + 1 } :=
  Function.update_self ..

/-! ## What a participant does -/

/-- The creator's business is over. -/
theorem ends_creator (hp : p.WellFormed g creator) (hcreator : creator) (b : Bool)
    (capture : Capture) :
    ∃ q, p.endBusiness b capture = (q, some (.notify (.new (some g) b)))
      ∧ q.pc = .notifying ∧ q.transactionInfo.successReturn = some b
      ∧ q.attempt = p.attempt := by
  have hgroup : p.transactionInfo.groupId = some g := hp.groupId
  refine ⟨(p.endBusiness b capture).1, Prod.ext rfl ?_, ?_, ?_, ?_⟩
  all_goals
    rcases hp.creator_state hcreator with hstate | hstate <;>
      simp [Participant.endBusiness, Participant.tryEndTransaction, Participant.setSuccessReturn,
        Participant.setTransactionState, hstate, hgroup]

theorem ends_joiner (hp : p.WellFormed g creator) (hcreator : ¬ creator)
    (success : Bool) (capture : Capture) :
    ∃ q, p.endBusiness success capture = (q, some (.join (.new (some g))))
      ∧ q.pc = .joining ∧ q.jdbcTransaction = capture.jdbcTransaction
      ∧ q.attempt = p.attempt := by
  have hgroup : p.transactionInfo.groupId = some g := hp.groupId
  have hstate : p.transactionInfo.transactionState = .JOIN := hp.joiner_state hcreator
  refine ⟨(p.endBusiness success capture).1, Prod.ext rfl ?_, ?_, ?_, ?_⟩
  all_goals
    simp [Participant.endBusiness, Participant.tryEndTransaction, Participant.setSuccessReturn,
      hstate, hgroup]

theorem isSome_connection_commit (p : Participant) (succeeds : RawCall → Bool) (b : Bool) :
    (p.commit succeeds b).connection.isSome = p.connection.isSome := by
  cases hc : p.connection <;> simp [Participant.commit, LcnCommitor.commit, hc]

/-- The decision is carried out. -/
theorem carriedOut (hp : p.WellFormed g creator) (hpc : p.pc ≠ .ended)
    (hsucceeds : ∀ call, succeeds call = true) (b : Bool) :
    CarriedOut b (p.commit succeeds b) where
  committed := by
    rw [Participant.committed_commit hp hpc, isSome_connection_commit, hsucceeds, hsucceeds,
      Bool.and_true, Bool.and_true]
  rolledBack := by
    rw [Participant.rolledBack_commit hp hpc, isSome_connection_commit, hsucceeds, Bool.and_true]

/-- The reply to the notification brings the creator's own outcome back. -/
theorem notified_commits {event : TransactionNotifyEvent}
    (hsuccess : p.transactionInfo.successReturn = some b) (hevent : event.success = b) :
    p.notified succeeds (some event) = some (p.commit succeeds b, none) := by
  simp [Participant.notified, hsuccess, hevent]

/-! ## One participant moves -/

/-- Everybody stays where a participant can be. -/
theorem parties_move {next : Participant.Next} (hp : ∀ k, (s.party k).WellFormed g (k = c))
    (hsound : Participant.Sound g (k = c) (s.party k) next) (k' : String) :
    ((s.move applicationName k next).party k').WellFormed g (k' = c) := by
  by_cases hk : k' = k
  · subst hk
    obtain ⟨n, hself⟩ := move_self applicationName s k' next
    rw [hself]
    exact { hsound.wellFormed with }
  · rw [move_of_ne hk]
    exact hp k'

/-- The creator moves, perhaps on taking a packet, and comes to another stage. -/
theorem onTrack_creator {u : Commitment} {next : Participant.Next} (hs : OnTrack g c b s)
    (hu : u = s ∨ ∃ packet, partyOf packet = c ∧ s.take packet = some u)
    (hsound : Participant.Sound g (c = c) (s.party c) next)
    (hstage : CreatorStage g c b ((u.move applicationName c next).party c)
      (mail c (u.move applicationName c next)) (s.store g))
    (hcalm : next.1.pc = .notifying → ∀ k, k ≠ c → (s.party k).pc ≠ .business
      ∧ (s.party k).pc ≠ .joining) : OnTrack g c b (u.move applicationName c next) := by
  have hparty : u.party = s.party := by
    rcases hu with rfl | ⟨packet, _, htake⟩
    · rfl
    · exact party_take htake
  have hstore : u.store = s.store := by
    rcases hu with rfl | ⟨packet, _, htake⟩
    · rfl
    · rw [(take_some htake).2]
  have hmail : ∀ k, k ≠ c → mail k u = mail k s := by
    intro k hk
    rcases hu with rfl | ⟨packet, hpacket, htake⟩
    · rfl
    · exact mail_take_of_ne htake (by rw [hpacket]; exact Ne.symm hk)
  refine ⟨?_, ?_, ?_, ?_, by rw [move_store, hstore]; exact hs.unjoined⟩
  · exact parties_move (by rw [hparty]; exact hs.parties) (by rw [hparty]; exact hsound)
  · rw [move_store, hstore]
    exact hstage
  · intro k hk
    rw [move_store, hstore, move_of_ne hk, hparty, mail_move_of_ne hk, hmail k hk]
    exact hs.joiners k hk
  · intro hnotifying k hk
    obtain ⟨n, hself⟩ := move_self applicationName u c next
    rw [hself] at hnotifying
    rw [move_of_ne hk, hparty]
    exact hcalm hnotifying k hk

/-- Another participant moves. -/
theorem onTrack_joiner {u : Commitment} {next : Participant.Next} (hs : OnTrack g c b s)
    (hk : k ≠ c) (hu : u = s ∨ ∃ packet, partyOf packet = k ∧ s.take packet = some u)
    (hsound : Participant.Sound g (k = c) (s.party k) next)
    (hstage : JoinerStage g k b ((u.move applicationName k next).party k)
      (mail k (u.move applicationName k next)) (s.store g))
    (hcalm : (s.party c).pc = .notifying → next.1.pc ≠ .business ∧ next.1.pc ≠ .joining) :
    OnTrack g c b (u.move applicationName k next) := by
  have hparty : u.party = s.party := by
    rcases hu with rfl | ⟨packet, _, htake⟩
    · rfl
    · exact party_take htake
  have hstore : u.store = s.store := by
    rcases hu with rfl | ⟨packet, _, htake⟩
    · rfl
    · rw [(take_some htake).2]
  have hmail : ∀ k', k' ≠ k → mail k' u = mail k' s := by
    intro k' hk'
    rcases hu with rfl | ⟨packet, hpacket, htake⟩
    · rfl
    · exact mail_take_of_ne htake (by rw [hpacket]; exact Ne.symm hk')
  refine ⟨?_, ?_, ?_, ?_, by rw [move_store, hstore]; exact hs.unjoined⟩
  · exact parties_move (by rw [hparty]; exact hs.parties) (by rw [hparty]; exact hsound)
  · have hc : c ≠ k := Ne.symm hk
    rw [move_store, hstore, move_of_ne hc, hparty, mail_move_of_ne hc, hmail c hc]
    exact hs.creator
  · intro k' hk'
    by_cases hkk : k' = k
    · subst hkk
      rw [move_store, hstore]
      exact hstage
    · rw [move_store, hstore, move_of_ne hkk, hparty, mail_move_of_ne hkk, hmail k' hkk]
      exact hs.joiners k' hk'
  · intro hnotifying k' hk'
    rw [move_of_ne (Ne.symm hk), hparty] at hnotifying
    by_cases hkk : k' = k
    · subst hkk
      obtain ⟨n, hself⟩ := move_self applicationName u k' next
      rw [hself]
      exact hcalm hnotifying
    · rw [move_of_ne hkk, hparty]
      exact hs.calm hnotifying k' hk'

/-! ## The TM handles a request -/

variable {G : TransactionGroup} {n now : Nat} {mails : List Packet}

theorem mail_handle {ev : Event} : mail k (t.handle n ev) = mail k t
    ++ ((ev.business.eval t.store).1.map (Packet.ofOutbox n)).filter
      fun packet => partyOf packet = k := by
  show (t.flight ++ _).filter _ = t.flight.filter _ ++ _
  rw [List.filter_append]

theorem handle_store {ev : Event} : (t.handle n ev).store = (ev.business.eval t.store).2 := rfl

/-- A join adds to the joins of its participant only. -/
theorem joins_add (k k' : String) (G : TransactionGroup) (moduleName : Option String)
    (now : Nat) : joins k' (G.add k moduleName TransactionType.JOIN now)
      = joins k' G + if k = k' then 1 else 0 := by
  unfold joins
  rw [TransactionGroup.listTransaction_add_join, List.countP_append, List.countP_singleton]
  simp

/-- The announcements for one participant, one for each of its joins. -/
theorem announced (k : String) (G : TransactionGroup) (d : Bool) (n : Nat) :
    ((announcements g G d).map (Packet.ofOutbox n)).filter (fun packet => partyOf packet = k)
      = List.replicate (joins k G) (.event k (.new (some g) d)) := by
  unfold announcements joins
  induction G.listTransaction with
  | nil => rfl
  | cons info infos ih =>
      rw [List.map_cons, List.map_cons, List.filter_cons, ih, List.countP_cons]
      by_cases hk : info.uniqueKey = k
      · subst hk
        simp [Packet.ofOutbox, partyOf, List.replicate_succ]
      · simp [Packet.ofOutbox, partyOf, hk]

/-- Before the group is created nobody else has begun. -/
theorem JoinerStage.created (h : JoinerStage g k b p mails none) (hjoins : joins k G = 0) :
    JoinerStage g k b p mails (some G) := by
  cases h with
  | idle _ hpc _ => exact .idle _ hpc (by rintro _ ⟨⟩; exact hjoins)

/-- Somebody else joins. -/
theorem JoinerStage.add {moduleName : Option String} (hk : k' ≠ k)
    (h : JoinerStage g k b p mails (some G)) :
    JoinerStage g k b p mails (some (G.add k' moduleName TransactionType.JOIN now)) := by
  have hjoins : joins k (G.add k' moduleName TransactionType.JOIN now) = joins k G := by
    rw [joins_add, if_neg hk, Nat.add_zero]
  cases h with
  | idle _ hpc hnone =>
      refine .idle _ hpc ?_
      rintro _ ⟨⟩
      rw [hjoins]
      exact hnone G rfl
  | business _ hpc hopen hnone => exact .business _ hpc hopen (hjoins.trans hnone)
  | asks event _ hpc hbound hgroup hopen hnone =>
      exact .asks event _ hpc hbound hgroup hopen (hjoins.trans hnone)
  | asked event _ hpc hbound hopen hone =>
      exact .asked event _ hpc hbound hopen (hjoins.trans hone)
  | waiting _ hpc hopen hone => exact .waiting _ hpc hopen (hjoins.trans hone)
  | told event _ hpc hcommit hdone => exact .told event _ hpc hcommit hdone
  | ended _ hpc hcarried hdone => exact .ended _ hpc hcarried hdone

theorem CreatorStage.add {moduleName : Option String} (h : CreatorStage g c b p mails (some G)) :
    CreatorStage g c b p mails (some (G.add k moduleName TransactionType.JOIN now)) := by
  cases h with
  | asked event _ hpc hopen => exact .asked event _ hpc hopen
  | business _ hpc hopen => exact .business _ hpc hopen
  | notifies event _ hpc hgroup hevent hsuccess hopen =>
      exact .notifies event _ hpc hgroup hevent hsuccess hopen
  | notified event _ hpc hevent hsuccess hdone => exact .notified event _ hpc hevent hsuccess hdone
  | ended _ hpc hcarried hdone => exact .ended _ hpc hcarried hdone

/-- The decision is announced to those who wait for it. -/
theorem JoinerStage.announce (h : JoinerStage g k b p mails (some G)) (hopen : G.state = .JOIN)
    (hcalm : p.pc ≠ .business ∧ p.pc ≠ .joining) :
    JoinerStage g k b p (mails ++ List.replicate (joins k G) (.event k (.new (some g) b)))
      (some { G with state := .parser b }) := by
  cases h with
  | idle _ hpc hnone =>
      rw [hnone G rfl]
      refine .idle _ hpc ?_
      rintro _ ⟨⟩
      exact hnone G rfl
  | business _ hpc => exact absurd hpc hcalm.1
  | asks event _ hpc => exact absurd hpc hcalm.2
  | asked event _ hpc => exact absurd hpc hcalm.2
  | waiting _ hpc _ hone =>
      rw [hone]
      exact .told _ _ hpc rfl rfl
  | told event _ _ _ hdone => exact absurd hopen (not_open hdone)
  | ended _ _ _ hdone => exact absurd hopen (not_open hdone)

/-- What there is when the TM has taken the request of `k`. -/
theorem mail_taken {message : Message} (htake : s.take (.request k n message) = some t)
    (hmail : mail k s = [.request k n message]) :
    mail k t = [] ∧ ∀ k', k' ≠ k → mail k' t = mail k' s := by
  refine ⟨?_, fun k' hk' => mail_take_of_ne htake (Ne.symm hk')⟩
  rw [mail_take htake, hmail, List.erase_cons_head]

/-- The reply is for the one who has asked. -/
theorem replied {message : Message} (k' : String)
    (hreply : Packet.ofOutbox n (k, message) = .reply k n message) :
    ([(k, message)].map (Packet.ofOutbox n)).filter (fun packet => partyOf packet = k')
      = if k = k' then [.reply k n message] else [] := by
  rw [List.map_singleton, hreply]
  by_cases hk : k = k'
  · simp [partyOf, hk]
  · simp [partyOf, hk]

theorem onTrack_create {event : TransactionCreateEvent} (hs : OnTrack g c b s)
    (htake : s.take (.request c n (.create event)) = some t) (hgroup : event.groupId = some g)
    (hmail : mail c s = [.request c n (.create event)]) (hn : n = (s.party c).attempt)
    (hpc : (s.party c).pc = .creating) (hrecord : s.store g = none) :
    OnTrack g c b (t.handle n (.create event c now)) := by
  obtain ⟨hself, hothers⟩ := mail_taken htake hmail
  have heval : (Event.create event c now).business.eval t.store = (_, _) :=
    Event.eval_create hgroup
  have hstored : (t.handle n (.create event c now)).store g
      = some (.new g c event.moduleName .REQUEST now) := by
    rw [handle_store, heval]
    exact Function.update_self ..
  have hmails : ∀ k, mail k (t.handle n (.create event c now)) = mail k t
      ++ if c = k then [.reply c n (.create { event with result := some "ok" })] else [] := by
    intro k
    rw [mail_handle, heval]
    exact congrArg _ (replied k rfl)
  refine ⟨?_, ?_, ?_, ?_, ?_⟩
  · rw [handle_party, party_take htake]
    exact hs.parties
  · rw [handle_party, party_take htake, hstored, hmails, hself, if_pos rfl, hn]
    exact .asked _ _ hpc rfl
  · intro k hk
    have hstage := hs.joiners k hk
    rw [hrecord] at hstage
    rw [handle_party, party_take htake, hstored, hmails, hothers k hk, if_neg (Ne.symm hk),
      List.append_nil]
    exact hstage.created rfl
  · intro hnotifying
    rw [handle_party, party_take htake, hpc] at hnotifying
    cases hnotifying
  · intro G hG
    rw [hstored] at hG
    cases hG
    rfl

theorem onTrack_join {event : TransactionJoinEvent} (hs : OnTrack g c b s) (hk : k ≠ c)
    (htake : s.take (.request k n (.join event)) = some t) (hgroup : event.groupId = some g)
    (hmail : mail k s = [.request k n (.join event)]) (hn : n = (s.party k).attempt)
    (hpc : (s.party k).pc = .joining) (hbound : (s.party k).jdbcTransaction = true)
    (hrecord : s.store g = some G) (hopen : G.state = .JOIN) (hjoins : joins k G = 0) :
    OnTrack g c b (t.handle n (.join event k now)) := by
  obtain ⟨hself, hothers⟩ := mail_taken htake hmail
  have hthere : t.store g = some G := by
    rw [(take_some htake).2]
    exact hrecord
  have heval : (Event.join event k now).business.eval t.store = (_, _) :=
    Event.eval_join_some hgroup hthere
  have hstored : (t.handle n (.join event k now)).store g
      = some (G.add k event.moduleName .JOIN now) := by
    rw [handle_store, heval]
    exact Function.update_self ..
  have hmails : ∀ k', mail k' (t.handle n (.join event k now)) = mail k' t
      ++ if k = k' then [.reply k n (.join { event with result := some "ok" })] else [] := by
    intro k'
    rw [mail_handle, heval]
    exact congrArg _ (replied k' rfl)
  refine ⟨?_, ?_, ?_, ?_, ?_⟩
  · rw [handle_party, party_take htake]
    exact hs.parties
  · have hstage := hs.creator
    rw [hrecord] at hstage
    rw [handle_party, party_take htake, hstored, hmails, hothers c (Ne.symm hk), if_neg hk,
      List.append_nil]
    exact hstage.add
  · intro k' hk'
    rw [handle_party, party_take htake, hstored, hmails]
    by_cases hkk : k = k'
    · -- it is listed from now on
      subst hkk
      rw [if_pos rfl, hself, hn]
      refine .asked _ _ hpc hbound hopen ?_
      rw [joins_add, hjoins, if_pos rfl]
    · have hstage := hs.joiners k' hk'
      rw [hrecord] at hstage
      rw [if_neg hkk, hothers k' (Ne.symm hkk), List.append_nil]
      exact hstage.add hkk
  · rw [handle_party, party_take htake]
    exact hs.calm
  · intro G' hG'
    rw [hstored] at hG'
    cases hG'
    rw [joins_add, hs.unjoined G hrecord, if_neg hk]

theorem onTrack_notify {event : TransactionNotifyEvent} (hs : OnTrack g c b s)
    (htake : s.take (.request c n (.notify event)) = some t) (hgroup : event.groupId = some g)
    (hevent : event.success = b) (hmail : mail c s = [.request c n (.notify event)])
    (hn : n = (s.party c).attempt) (hpc : (s.party c).pc = .notifying)
    (hsuccess : (s.party c).transactionInfo.successReturn = some b)
    (hrecord : s.store g = some G) (hopen : G.state = .JOIN) :
    OnTrack g c b (t.handle n (.notify event c)) := by
  obtain ⟨hself, hothers⟩ := mail_taken htake hmail
  have hthere : t.store g = some G := by
    rw [(take_some htake).2]
    exact hrecord
  have heval := Event.eval_notify_some (k := c) hgroup hthere
  have hstored : (t.handle n (.notify event c)).store g
      = some { G with state := .parser b } := by
    rw [handle_store, heval, hevent]
    exact Function.update_self ..
  have hmails : ∀ k, mail k (t.handle n (.notify event c)) = mail k t
      ++ (List.replicate (joins k G) (.event k (.new (some g) event.success))
        ++ if c = k then [.reply c n (.notify { event with result := some "ok" })] else []) := by
    intro k
    rw [mail_handle, heval, List.map_append, List.filter_append, announced]
    exact congrArg _ (congrArg _ (replied k rfl))
  refine ⟨?_, ?_, ?_, ?_, ?_⟩
  · rw [handle_party, party_take htake]
    exact hs.parties
  · rw [handle_party, party_take htake, hstored, hmails, hself, hs.unjoined G hrecord, if_pos rfl,
      hn]
    exact .notified _ _ hpc hevent hsuccess rfl
  · intro k hk
    have hstage := hs.joiners k hk
    rw [hrecord] at hstage
    rw [handle_party, party_take htake, hstored, hmails, hothers k hk, if_neg (Ne.symm hk),
      List.append_nil, hevent]
    exact hstage.announce hopen (hs.calm hpc k hk)
  · rw [handle_party, party_take htake]
    exact hs.calm
  · intro G' hG'
    rw [hstored] at hG'
    cases hG'
    exact hs.unjoined G hrecord

/-- **Whatever request there is, it is handled.** -/
theorem onTrack_handle {message : Message} {ev : Event} (hs : OnTrack g c b s)
    (htake : s.take (.request k n message) = some t) (hev : requested message k now = some ev) :
    OnTrack g c b (t.handle n ev) := by
  have hmem : .request k n message ∈ mail k s := mem_mail (take_some htake).1
  by_cases hk : k = c
  · subst hk
    have hstage := hs.creator
    generalize hmail : mail k s = mails at hstage hmem
    generalize hrecord : s.store g = record at hstage
    cases hstage with
    | asks event hpc hgroup =>
        cases List.mem_singleton.mp hmem
        cases hev
        exact onTrack_create hs htake hgroup hmail rfl hpc hrecord
    | notifies event G hpc hgroup hevent hsuccess hopen =>
        cases List.mem_singleton.mp hmem
        cases hev
        exact onTrack_notify hs htake hgroup hevent hmail rfl hpc hsuccess hrecord hopen
    | asked | notified => cases List.mem_singleton.mp hmem
    | idle | business | ended => cases hmem
  · have hstage := hs.joiners k hk
    generalize hmail : mail k s = mails at hstage hmem
    generalize hrecord : s.store g = record at hstage
    cases hstage with
    | asks event G hpc hbound hgroup hopen hjoins =>
        cases List.mem_singleton.mp hmem
        cases hev
        exact onTrack_join hs hk htake hgroup hmail rfl hpc hbound hrecord hopen hjoins
    | asked | told => cases List.mem_singleton.mp hmem
    | idle | business | waiting | ended => cases hmem

/-! ## The participants go on -/

theorem onTrack_tryBegin (hs : OnTrack g c b s) (hpc : (s.party k).pc = .idle)
    (hbegin : k = c ∨ (s.party c).pc = .business) :
    OnTrack g c b (s.move applicationName k (s.party k).tryBeginTransaction) := by
  have hsound := Participant.sound_tryBeginTransaction (hs.parties k) hpc
  by_cases hk : k = c
  · subst hk
    have hstage := hs.creator
    generalize hmail : mail k s = mails at hstage
    generalize hrecord : s.store g = record at hstage
    cases hstage with
    | idle _ hstate =>
        have hnext : (s.party k).tryBeginTransaction = ({ s.party k with pc := .creating },
            some (.create (.new (s.party k).transactionInfo.groupId))) := if_pos hstate
        rw [hnext] at hsound ⊢
        refine onTrack_creator hs (Or.inl rfl) hsound ?_ (by simp)
        rw [party_move_some, mail_move_some, hmail, hrecord]
        exact .asks _ rfl (hs.parties k).groupId
    | asks _ h | asked _ _ h | business _ h | notifies _ _ h | notified _ _ h | ended _ h =>
        rw [hpc] at h
        cases h
  · have hbusiness : (s.party c).pc = .business := hbegin.resolve_left hk
    have hnext : (s.party k).tryBeginTransaction = ({ s.party k with pc := .business }, none) := by
      unfold Participant.tryBeginTransaction
      rw [(hs.parties k).joiner_state hk]
      rfl
    have hstage := hs.joiners k hk
    have hcreator := hs.creator
    rw [hnext] at hsound ⊢
    refine onTrack_joiner hs hk (Or.inl rfl) hsound ?_ (by simp [hbusiness])
    rw [party_move_none, mail_move_none]
    -- the creator is in its business, so the group is there
    generalize hrecord : s.store g = record at hstage hcreator ⊢
    generalize mail k s = mails at hstage ⊢
    generalize mail c s = mails' at hcreator
    cases hcreator with
    | business G _ hopen =>
        cases hstage with
        | idle _ _ hjoins => exact .business G rfl hopen (hjoins G rfl)
        | business _ h | asks _ _ h | asked _ _ h | waiting _ h | told _ _ h | ended _ h =>
            rw [hpc] at h
            cases h
    | idle h | asks _ h | asked _ _ h | notifies _ _ h | notified _ _ h | ended _ h =>
        rw [hbusiness] at h
        cases h

theorem onTrack_tryEnd {success : Bool} {capture : Capture} (hs : OnTrack g c b s)
    (hpc : (s.party k).pc = .business) (ha : FaultFree c b s (.tryEnd k success capture)) :
    OnTrack g c b (s.move applicationName k ((s.party k).endBusiness success capture)) := by
  have hsound := Participant.sound_endBusiness (hs.parties k) hpc success capture
  by_cases hk : k = c
  · subst hk
    obtain ⟨rfl, hwait⟩ := (if_pos rfl).mp ha
    obtain ⟨q, hnext, hqpc, hsuccess, _⟩ := ends_creator (hs.parties k) rfl success capture
    have hstage := hs.creator
    rw [hnext] at hsound ⊢
    refine onTrack_creator hs (Or.inl rfl) hsound ?_ ?_
    · rw [party_move_some, mail_move_some]
      generalize mail k s = mails at hstage ⊢
      generalize s.store g = record at hstage ⊢
      cases hstage with
      | business G _ hopen => exact .notifies _ G hqpc rfl rfl hsuccess hopen
      | idle h | asks _ h | asked _ _ h | notifies _ _ h | notified _ _ h | ended _ h =>
          rw [hpc] at h
          cases h
    · intro _ k' hk'
      rcases hwait k' hk' with h | h <;> simp [h]
  · obtain ⟨q, hnext, hqpc, hbound, _⟩ := ends_joiner (hs.parties k) hk success capture
    have hopened : capture.jdbcTransaction = true := (if_neg hk).mp ha
    have hstage := hs.joiners k hk
    rw [hnext] at hsound ⊢
    refine onTrack_joiner hs hk (Or.inl rfl) hsound ?_ ?_
    · rw [party_move_some, mail_move_some]
      generalize mail k s = mails at hstage ⊢
      generalize s.store g = record at hstage ⊢
      cases hstage with
      | business G _ hopen hjoins => exact .asks _ G hqpc (hbound.trans hopened) rfl hopen hjoins
      | idle _ h | asks _ _ h | asked _ _ h | waiting _ h | told _ _ h | ended _ h =>
          rw [hpc] at h
          cases h
    · intro hnotifying
      exact absurd hpc (hs.calm hnotifying k hk).1

theorem onTrack_answer {u : Commitment} {message : Message} {next : Participant.Next}
    (hs : OnTrack g c b s) (hsucceeds : ∀ call, succeeds call = true)
    (htake : s.take (.reply k (s.party k).attempt message) = some u)
    (h : (u.party k).resume succeeds (some message) = some next) :
    OnTrack g c b (u.move applicationName k next) := by
  have hmem : .reply k (s.party k).attempt message ∈ mail k s := mem_mail (take_some htake).1
  have hempty : mail k u = (mail k s).erase (.reply k (s.party k).attempt message) :=
    mail_take htake
  rw [party_take htake] at h
  have hsound := Participant.sound_resume (hs.parties k) h
  by_cases hk : k = c
  · subst hk
    have hstage := hs.creator
    generalize hmail : mail k s = mails at hstage hmem hempty
    generalize hrecord : s.store g = record at hstage
    cases hstage with
    | asked event G hpc hopen =>
        cases List.mem_singleton.mp hmem
        simp only [Participant.resume, hpc, Participant.created, Option.some.injEq] at h
        subst h
        refine onTrack_creator hs (Or.inr ⟨_, rfl, htake⟩) hsound ?_ (by simp)
        rw [party_move_none, mail_move_none, hempty, List.erase_cons_head, hrecord]
        exact .business G rfl hopen
    | notified event G hpc hevent hsuccess hdone =>
        cases List.mem_singleton.mp hmem
        simp only [Participant.resume, hpc, notified_commits hsuccess hevent,
          Option.some.injEq] at h
        subst h
        refine onTrack_creator hs (Or.inr ⟨_, rfl, htake⟩) hsound ?_ (by simp)
        rw [party_move_none, mail_move_none, hempty, List.erase_cons_head, hrecord]
        exact .ended G (Participant.commit_pc b)
          (carriedOut (hs.parties k) (by simp [hpc]) hsucceeds b) hdone
    | asks | notifies => cases List.mem_singleton.mp hmem
    | idle | business | ended => cases hmem
  · have hstage := hs.joiners k hk
    generalize hmail : mail k s = mails at hstage hmem hempty
    generalize hrecord : s.store g = record at hstage
    cases hstage with
    | asked event G hpc hbound hopen hjoins =>
        cases List.mem_singleton.mp hmem
        simp only [Participant.resume, hpc, Participant.joined, hbound, if_true,
          Option.some.injEq] at h
        subst h
        refine onTrack_joiner hs hk (Or.inr ⟨_, rfl, htake⟩) hsound ?_ (by simp)
        rw [party_move_none, mail_move_none, hempty, List.erase_cons_head, hrecord]
        exact .waiting G rfl hopen hjoins
    | asks | told => cases List.mem_singleton.mp hmem
    | idle | business | waiting | ended => cases hmem

theorem onTrack_decide {u : Commitment} {event : TransactionCommitEvent}
    (hs : OnTrack g c b s) (hsucceeds : ∀ call, succeeds call = true)
    (htake : s.take (.event k event) = some u) :
    OnTrack g c b (u.move applicationName k ((u.party k).decided succeeds (some event), none)) := by
  have hmem : .event k event ∈ mail k s := mem_mail (take_some htake).1
  have hempty : mail k u = (mail k s).erase (.event k event) := mail_take htake
  rw [party_take htake]
  have hsound := Participant.sound_decided (hs.parties k) succeeds (some event)
  by_cases hk : k = c
  · subst hk
    have hstage := hs.creator
    generalize hmail : mail k s = mails at hstage hmem
    generalize hrecord : s.store g = record at hstage
    cases hstage with
    | asks | asked | notifies | notified => cases List.mem_singleton.mp hmem
    | idle | business | ended => cases hmem
  · have hstage := hs.joiners k hk
    generalize hmail : mail k s = mails at hstage hmem hempty
    generalize hrecord : s.store g = record at hstage
    cases hstage with
    | told told G hpc hcommit hdone =>
        cases List.mem_singleton.mp hmem
        have hdecided : (s.party k).decided succeeds (some event)
            = (s.party k).commit succeeds b := by
          rw [Participant.decided, hcommit]
        rw [hdecided] at hsound ⊢
        refine onTrack_joiner hs hk (Or.inr ⟨_, rfl, htake⟩) hsound ?_ (by simp)
        rw [party_move_none, mail_move_none, hempty, List.erase_cons_head, hrecord]
        exact .ended G (Participant.commit_pc b)
          (carriedOut (hs.parties k) (by simp [hpc]) hsucceeds b) hdone
    | asks | asked => cases List.mem_singleton.mp hmem
    | idle | business | waiting | ended => cases hmem

/-- **A step without a fault leaves everybody on track.** -/
theorem onTrack_step {a : Action} (hs : OnTrack g c b s) (ha : FaultFree c b s a)
    (h : step applicationName s a = some t) : OnTrack g c b t := by
  cases a with
  | tryBegin k =>
      simp only [step] at h
      split at h
      · rename_i hpc
        cases h
        exact onTrack_tryBegin hs hpc ha
      · cases h
  | tryEnd k success capture =>
      simp only [step] at h
      split at h
      · rename_i hpc
        cases h
        exact onTrack_tryEnd hs hpc ha
      · cases h
  | handle k n message now =>
      obtain ⟨u, htake, h⟩ := Option.bind_eq_some_iff.mp h
      obtain ⟨ev, hev, h⟩ := Option.bind_eq_some_iff.mp h
      cases h
      exact onTrack_handle hs htake hev
  | answer k message succeeds =>
      obtain ⟨u, htake, h⟩ := Option.bind_eq_some_iff.mp h
      obtain ⟨next, hnext, h⟩ := Option.bind_eq_some_iff.mp h
      cases h
      exact onTrack_answer hs ha htake hnext
  | decide k event succeeds =>
      simp only [step] at h
      split at h
      · obtain ⟨u, htake, h⟩ := Option.bind_eq_some_iff.mp h
        cases h
        exact onTrack_decide hs ha htake
      · cases h
  | expire k succeeds => exact ha.elim
  | giveUp k => exact ha.elim
  | lose packet => exact ha.elim

theorem onTrack_init (g c : String) (b : Bool) : OnTrack g c b (Commitment.init g c) where
  parties := wellFormed_init g c
  creator := by
    refine .idle (idle_init g c c) ?_
    simp [Commitment.init, Participant.creator]
  joiners k _ := .idle _ (idle_init g c k) (by rintro _ ⟨⟩)
  calm := by
    intro hnotifying
    rw [idle_init] at hnotifying
    cases hnotifying
  unjoined := by rintro _ ⟨⟩

end TxLcn.Proof
