import TxLcn.Tc.Commitment

/-!
# What is in flight

Only the creator asks for a group and notifies it, only others ask to join it,
and a commit event says what the creator has notified: how its business ended.
These are facts about every run, whatever is late or lost in it.
-/

namespace TxLcn.Proof

open TxLcn.Lib TxLcn.Protocol TxLcn.Tm TxLcn.Tc Commitment

/-- How the business of the creator ended, once it has. -/
def decision (c : String) (s : Commitment) : Option Bool :=
  (s.party c).transactionInfo.successReturn

/-- The group has a join of `k`. -/
def JoinStored (g : String) (s : Commitment) (k : String) : Prop :=
  ∃ G, s.store g = some G ∧ ∃ info ∈ G.listTransaction, info.uniqueKey = k

/-- The join of `k` is stored, or its request is on the way to the TM. -/
def JoinUnderway (g : String) (s : Commitment) (k : String) : Prop :=
  JoinStored g s k ∨ ∃ n event, .request k n (.join event) ∈ s.flight

/-- What may be in flight when `d` is decided. -/
def PacketOk (g c : String) (d : Option Bool) : Packet → Prop
  | .request k _ message => Participant.RequestOk g (k = c) d message
  | .reply _ _ _ => True
  | .event _ event => d = some event.commit

/-- Everybody is where it can be, and so is every packet. -/
structure Tidy (g c : String) (s : Commitment) : Prop where
  parties : ∀ k, (s.party k).WellFormed g (k = c)
  packets : ∀ packet ∈ s.flight, PacketOk g c (decision c s) packet
  /-- The creator does not join. -/
  joiners : ∀ k, JoinStored g s k → k ≠ c

variable {g c : String} {s t : Commitment} {applicationName : String → Option String}

theorem wellFormed_init (g c k : String) :
    ((Commitment.init g c).party k).WellFormed g (k = c) := by
  unfold Commitment.init
  by_cases hk : k = c
  · simp only [if_pos hk]
    exact Participant.wellFormed_creator hk
  · simp only [if_neg hk]
    exact Participant.wellFormed_joiner hk

theorem idle_init (g c k : String) : ((Commitment.init g c).party k).pc = .idle := by
  simp only [Commitment.init]
  split <;> rfl

theorem tidy_init (g c : String) : Tidy g c (Commitment.init g c) where
  parties := wellFormed_init g c
  packets := by simp [Commitment.init]
  joiners := by
    intro k hstored
    obtain ⟨G, hG, _⟩ := hstored
    cases hG

/-- The creator's join is not underway. -/
theorem Tidy.underway_ne (hi : Tidy g c s) {k : String} (hu : JoinUnderway g s k) : k ≠ c := by
  rcases hu with hstored | ⟨n, event, hmem⟩
  · exact hi.joiners k hstored
  · exact (hi.packets _ hmem).2

/-! ## Packets taken and lost -/

theorem joinUnderway_take {packet : Packet} {k : String} (h : s.take packet = some t)
    (hu : JoinUnderway g t k) : JoinUnderway g s k := by
  obtain ⟨_, rfl⟩ := take_some h
  refine hu.imp id ?_
  intro hflight
  obtain ⟨n, event, hmem⟩ := hflight
  exact ⟨n, event, List.mem_of_mem_erase hmem⟩

/-- With a packet less there is less to say. -/
theorem tidy_take {packet : Packet} (hi : Tidy g c s) (h : s.take packet = some t) :
    Tidy g c t := by
  obtain ⟨_, rfl⟩ := take_some h
  exact ⟨hi.parties, fun packet hmem => hi.packets packet (List.mem_of_mem_erase hmem),
    hi.joiners⟩

theorem party_take {packet : Packet} (h : s.take packet = some t) : t.party = s.party := by
  rw [(take_some h).2]

theorem decision_take {packet : Packet} (h : s.take packet = some t) :
    decision c t = decision c s := by
  rw [decision, party_take h, decision]

/-! ## A step of a participant -/

section Move

variable {k : String} {next : Participant.Next}

/-- What is decided stays decided. -/
theorem decision_move (hs : Participant.Sound g (k = c) (s.party k) next) {d : Bool}
    (hd : decision c s = some d) : decision c (s.move applicationName k next) = some d := by
  unfold decision at hd ⊢
  by_cases hk : c = k
  · subst hk
    obtain ⟨n, hself⟩ := move_self applicationName s c next
    rw [hself]
    rcases hs.keeps with hnone | hsame
    · rw [hnone] at hd
      cases hd
    · exact hsame.trans hd
  · rw [move_of_ne hk]
    exact hd

/-- The one who moves decides, if it is the creator. -/
theorem decision_move_self (hk : k = c) :
    decision c (s.move applicationName k next) = next.1.transactionInfo.successReturn := by
  subst hk
  obtain ⟨n, hself⟩ := move_self applicationName s k next
  rw [decision, hself]

theorem PacketOk.mono {d d' : Option Bool} (h : ∀ b, d = some b → d' = some b) {packet : Packet}
    (hp : PacketOk g c d packet) : PacketOk g c d' packet := by
  cases packet with
  | request k n message =>
      cases message with
      | notify event => exact ⟨hp.1, hp.2.1, h _ hp.2.2⟩
      | _ => exact hp
  | reply k n message => trivial
  | event k event => exact h _ hp

/-- A request is as the participant has built it, but for the name of the module and a flag. -/
theorem requestOk_prepare {creator : Prop} {d : Option Bool} {message : Message}
    (applicationName : Option String) (h : Participant.RequestOk g creator d message) :
    Participant.RequestOk g creator d
      (TxManagerReporter.prepare applicationName "" message) := by
  cases message <;> exact h

theorem joinUnderway_move {k' : String} (hu : JoinUnderway g (s.move applicationName k next) k') :
    JoinUnderway g s k' ∨ k' = k ∧ ∃ message, next.2 = some message := by
  rcases hu with hstored | ⟨n, event, hmem⟩
  · unfold JoinStored at hstored
    rw [move_store] at hstored
    exact Or.inl (Or.inl hstored)
  · rcases mem_move.mp hmem with hold | ⟨message, hnext, heq⟩
    · exact Or.inl (Or.inr ⟨n, event, hold⟩)
    · exact Or.inr ⟨(Packet.request.inj heq).1, message, hnext⟩

/-- A participant takes a step. -/
theorem tidy_move (hi : Tidy g c s) (hs : Participant.Sound g (k = c) (s.party k) next) :
    Tidy g c (s.move applicationName k next) := by
  obtain ⟨n, hself⟩ := move_self applicationName s k next
  refine ⟨fun k' => ?_, fun packet hmem => ?_, fun k' hstored => ?_⟩
  · by_cases hk : k' = k
    · subst hk
      rw [hself]
      exact { hs.wellFormed with }
    · rw [move_of_ne hk]
      exact hi.parties k'
  · rcases mem_move.mp hmem with hold | ⟨message, hnext, rfl⟩
    · exact (hi.packets packet hold).mono fun b => decision_move hs
    · have hok := (hs.sends message hnext).2
      refine requestOk_prepare _ ?_
      -- a notification carries what the creator has just set
      cases message with
      | notify event => exact ⟨hok.1, hok.2.1, (decision_move_self hok.2.1).trans hok.2.2⟩
      | _ => exact hok
  · unfold JoinStored at hstored
    rw [move_store] at hstored
    exact hi.joiners k' hstored

end Move

/-! ## A request handled -/

theorem requested_groupId {message : Message} {k : String} {now : Nat} {ev : Event}
    {d : Option Bool} (hok : Participant.RequestOk g (k = c) d message)
    (hev : requested message k now = some ev) :
    ev.groupId = some g := by
  cases message with
  | create event => cases hev; exact hok
  | join event => cases hev; exact hok.1
  | notify event => cases hev; exact hok.1
  | _ => cases hev

/-- What the TM sends on handling a request: replies, and what has been decided. -/
theorem packetOk_handled {message : Message} {k : String} {n now : Nat} {ev : Event}
    {d : Option Bool} {u v : TmState} (hok : Participant.RequestOk g (k = c) d message)
    (hev : requested message k now = some ev) (hsent : u.sent = [])
    (hh : Handled (fun _ => true) g u ev v) :
    ∀ msg ∈ v.sent, PacketOk g c d (Packet.ofOutbox n msg) := by
  intro msg hmsg
  have hout : ∀ out, v.sent = u.sent ++ sendMsg (fun _ => true) out → msg ∈ out := by
    intro out h
    rw [h, hsent, List.nil_append] at hmsg
    exact (mem_sendMsg.mp hmsg).1
  cases hh with
  | elsewhere hne => exact absurd (requested_groupId hok hev) hne
  | created _ _ h =>
      cases List.mem_singleton.mp (hout _ h)
      trivial
  | joinedNothing _ _ _ h =>
      cases List.mem_singleton.mp (hout _ h)
      trivial
  | joined _ _ _ h =>
      cases List.mem_singleton.mp (hout _ h)
      trivial
  | notifiedNothing _ _ _ h =>
      cases List.mem_singleton.mp (hout _ h)
      trivial
  | notified _ _ _ h =>
      rcases List.mem_append.mp (hout _ h) with hann | hreply
      · obtain ⟨info, _, rfl⟩ := mem_announcements.mp hann
        cases message with
        | notify event => cases hev; exact hok.2.2
        | _ => cases hev
      · cases List.mem_singleton.mp hreply
        trivial

/-- Only the join that is handled can become stored. -/
theorem joinStored_handled {message : Message} {k k' : String} {now : Nat} {ev : Event}
    {d : Option Bool} {u v : TmState} (hok : Participant.RequestOk g (k = c) d message)
    (hev : requested message k now = some ev) (hh : Handled (fun _ => true) g u ev v)
    (hv : ∃ G, v.store g = some G ∧ ∃ info ∈ G.listTransaction, info.uniqueKey = k') :
    (∃ G, u.store g = some G ∧ ∃ info ∈ G.listTransaction, info.uniqueKey = k')
      ∨ k' = k ∧ ∃ event, message = .join event := by
  obtain ⟨G', hG', info, hinfo, hkey⟩ := hv
  cases hh with
  | elsewhere hne => exact absurd (requested_groupId hok hev) hne
  | created _ ht =>
      cases ht.symm.trans hG'
      exact absurd hinfo (by simp)
  | joinedNothing _ _ ht => exact absurd (ht.symm.trans hG') (by simp)
  | @joined event k₁ now₁ _ G _ hs ht =>
      cases ht.symm.trans hG'
      rw [TransactionGroup.listTransaction_add_join, List.mem_append, List.mem_singleton] at hinfo
      rcases hinfo with hold | rfl
      · exact Or.inl ⟨G, hs, info, hold, hkey⟩
      · cases message with
        | join event' => cases hev; exact Or.inr ⟨hkey.symm, _, rfl⟩
        | _ => cases hev
  | notifiedNothing _ _ ht => exact absurd (ht.symm.trans hG') (by simp)
  | @notified _ _ _ G _ hs ht =>
      cases ht.symm.trans hG'
      exact Or.inl ⟨G, hs, info, hinfo, hkey⟩

/-- A packet that the TM sends is no request. -/
theorem ofOutbox_ne_request (n : Nat) (msg : String × Message) (k : String) (n' : Nat)
    (message : Message) : Packet.ofOutbox n msg ≠ .request k n' message := by
  obtain ⟨k', m⟩ := msg
  cases m <;> simp [Packet.ofOutbox]

section Handle

variable {k k' : String} {n now : Nat} {message : Message} {ev : Event}

/-- Whose join is underway when a request has been handled had it underway before. -/
theorem joinUnderway_handle (hi : Tidy g c s) (htake : s.take (.request k n message) = some t)
    (hev : requested message k now = some ev) (hu : JoinUnderway g (t.handle n ev) k') :
    JoinUnderway g s k' := by
  have hok := hi.packets _ (take_some htake).1
  obtain ⟨out, hflight, hh⟩ := t.handle_handled n ev g
  rcases hu with hstored | ⟨n', event, hmem⟩
  · rcases joinStored_handled hok hev hh hstored with hold | ⟨rfl, event, rfl⟩
    · exact joinUnderway_take htake (Or.inl hold)
    · -- the join that is handled was in flight
      exact Or.inr ⟨n, event, (take_some htake).1⟩
  · rw [hflight, List.mem_append, List.mem_map] at hmem
    rcases hmem with hold | ⟨msg, _, heq⟩
    · exact joinUnderway_take htake (Or.inr ⟨n', event, hold⟩)
    · exact absurd heq (ofOutbox_ne_request n msg k' n' _)

/-- The TM handles a request that was in flight. -/
theorem tidy_handle (hi : Tidy g c s) (htake : s.take (.request k n message) = some t)
    (hev : requested message k now = some ev) : Tidy g c (t.handle n ev) := by
  have hok := hi.packets _ (take_some htake).1
  rw [← decision_take htake] at hok
  obtain ⟨out, hflight, hh⟩ := t.handle_handled n ev g
  have ht := tidy_take hi htake
  refine ⟨ht.parties, fun packet hmem => ?_, fun k' hstored => ?_⟩
  · rw [hflight, List.mem_append, List.mem_map] at hmem
    rcases hmem with hold | ⟨msg, hmsg, rfl⟩
    · exact ht.packets packet hold
    · exact packetOk_handled hok hev rfl hh msg hmsg
  · exact hi.underway_ne (joinUnderway_handle hi htake hev (Or.inl hstored))

end Handle

end TxLcn.Proof
