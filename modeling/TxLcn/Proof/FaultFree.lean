import TxLcn.Proof.Agreement
import TxLcn.Proof.Stages

/-!
# A group in which nothing gets lost

What the protocol is for: if nothing is lost or late, the calls on the connections
return, each of the others has opened a connection, and the creator's business ends
after those it has called have been answered, then everybody who has begun ends as
the creator's business does. The outcomes of the others do not count.

Nobody is ever stuck on the way, and the steps on it are counted: `stepsToGo` goes
down by one with each, and whoever has none to go has ended. A reply or a decision
that is there can be taken by the one who waits for it: the lock keys, with which
the code finds whom a packet is for, are left out, and with those it uses the
waiting threads are not found.
-/

namespace TxLcn.Proof

open TxLcn.Lib TxLcn.Protocol TxLcn.Tm TxLcn.Tc Commitment

variable {g c k k' : String} {b : Bool} {s t : Commitment} {packet : Packet}
  {mails : List Packet} {n : Nat} {succeeds : RawCall → Bool}
  {applicationName : String → Option String}

/-! ## Somebody can go on -/

/-- A step of the participant, or of the TM for it. -/
def StepOf (k : String) : Action → Bool
  | .tryBegin k' => k' = k
  | .tryEnd k' _ _ => k' = k
  | .handle k' _ _ _ => k' = k
  | .answer k' _ _ => k' = k
  | .decide k' _ _ => k' = k
  | _ => false

/-- Without a fault the participant can take a step, or the TM can take one for it. -/
def CanGoOn (applicationName : String → Option String) (c : String) (b : Bool) (k : String)
    (s : Commitment) : Prop :=
  ∃ a, StepOf k a = true ∧ FaultFree c b s a ∧ (step applicationName s a).isSome = true

theorem handle_enabled {message : Message} {ev : Event}
    (hmem : .request k n message ∈ s.flight) (hev : requested message k 0 = some ev) :
    CanGoOn applicationName c b k s :=
  ⟨.handle k n message 0, by simp [StepOf], trivial, by simp [step, take, hmem, hev]⟩

theorem answer_enabled {message : Message}
    (hmem : .reply k (s.party k).attempt message ∈ s.flight)
    (hresume : ((s.party k).resume (fun _ => true) (some message)).isSome = true) :
    CanGoOn applicationName c b k s := by
  refine ⟨.answer k message fun _ => true, by simp [StepOf], fun _ => rfl, ?_⟩
  obtain ⟨next, hnext⟩ := Option.isSome_iff_exists.mp hresume
  simp [step, take, hmem, hnext]

/-- Who is in its business can end it, except the creator before the others have been answered. -/
theorem tryEnd_enabled (hpc : (s.party k).pc = .business)
    (hback : k = c → ∀ k', k' ≠ c → (s.party k').pc = .idle ∨ (s.party k').pc = .waiting) :
    CanGoOn applicationName c b k s := by
  refine ⟨.tryEnd k b .captured, by simp [StepOf], ?_, by simp [step, hpc]⟩
  by_cases hk : k = c
  · exact (if_pos hk).mpr ⟨rfl, hback hk⟩
  · exact (if_neg hk).mpr rfl

/-- A joiner that has begun goes on, has ended, or waits for what is not decided yet. -/
theorem joiner_goes_on (hs : OnTrack g c b s) (hk : k ≠ c) (hpc : (s.party k).pc ≠ .idle) :
    CanGoOn applicationName c b k s
      ∨ ((s.party k).pc = .ended ∧ ∃ G, s.store g = some G ∧ G.state ≠ .JOIN)
      ∨ ((s.party k).pc = .waiting ∧ ∃ G, s.store g = some G ∧ G.state = .JOIN) := by
  have hstage := hs.joiners k hk
  have hflight : ∀ packet, packet ∈ mail k s → packet ∈ s.flight := fun _ => mem_flight_of_mail
  generalize mail k s = mails at hstage hflight
  generalize s.store g = record at hstage ⊢
  cases hstage with
  | idle _ hidle => exact absurd hidle hpc
  | business G hbusiness => exact Or.inl (tryEnd_enabled hbusiness fun heq => absurd heq hk)
  | asks event G => exact Or.inl (handle_enabled (hflight _ List.mem_cons_self) rfl)
  | asked event G hjoining =>
      refine Or.inl (answer_enabled (hflight _ List.mem_cons_self) ?_)
      simp [Participant.resume, hjoining]
  | waiting G hwaiting hopen => exact Or.inr (Or.inr ⟨hwaiting, G, rfl, hopen⟩)
  | told event G hwaiting =>
      have hmem := hflight _ List.mem_cons_self
      exact Or.inl ⟨.decide k event fun _ => true, by simp [StepOf], fun _ => rfl,
        by simp [step, take, hwaiting, hmem]⟩
  | ended G hended _ hdone => exact Or.inr (Or.inl ⟨hended, G, rfl, not_open hdone⟩)

/-- The creator goes on, or one that its business has called does. -/
theorem creator_goes_on (hs : OnTrack g c b s) (hidle : (s.party c).pc ≠ .idle)
    (hended : (s.party c).pc ≠ .ended) :
    ∃ k, (s.party k).pc ≠ .idle ∧ CanGoOn applicationName c b k s := by
  have hstage := hs.creator
  have hflight : ∀ packet, packet ∈ mail c s → packet ∈ s.flight := fun _ => mem_flight_of_mail
  generalize mail c s = mails at hstage hflight
  generalize hrecord : s.store g = record at hstage
  cases hstage with
  | idle hpc => exact absurd hpc hidle
  | asks event _ hgroup =>
      exact ⟨c, hidle, handle_enabled (hflight _ List.mem_cons_self) rfl⟩
  | asked event G hpc =>
      refine ⟨c, hidle, answer_enabled (hflight _ List.mem_cons_self) ?_⟩
      simp [Participant.resume, hpc]
  | business G hpc hopen =>
      by_cases hback : ∀ k, k ≠ c → (s.party k).pc = .idle ∨ (s.party k).pc = .waiting
      · exact ⟨c, hidle, tryEnd_enabled hpc fun _ => hback⟩
      · -- one of them is still on its way, and the group is open
        obtain ⟨k, hk⟩ := not_forall.mp hback
        obtain ⟨hkc, hk⟩ := Classical.not_imp.mp hk
        rw [not_or] at hk
        rcases joiner_goes_on hs hkc hk.1 with hgoes | ⟨_, G', hG', hdone⟩ | ⟨hwaiting, _⟩
        · exact ⟨k, hk.1, hgoes⟩
        · rw [hrecord] at hG'
          cases hG'
          exact absurd hopen hdone
        · exact absurd hwaiting hk.2
  | notifies event G _ hgroup =>
      exact ⟨c, hidle, handle_enabled (hflight _ List.mem_cons_self) rfl⟩
  | notified event G hpc hevent hsuccess =>
      refine ⟨c, hidle, answer_enabled (hflight _ List.mem_cons_self) ?_⟩
      simp [Participant.resume, hpc, notified_commits hsuccess hevent]
  | ended G hpc => exact absurd hpc hended

/-- **As long as somebody has begun and not ended, one who has begun can go on.** -/
theorem goes_on (hs : OnTrack g c b s) (hidle : (s.party k).pc ≠ .idle)
    (hended : (s.party k).pc ≠ .ended) :
    ∃ k', (s.party k').pc ≠ .idle ∧ CanGoOn applicationName c b k' s := by
  by_cases hk : k = c
  · subst hk
    exact creator_goes_on hs hidle hended
  · rcases joiner_goes_on hs hk hidle with hgoes | ⟨hpc, _⟩ | ⟨_, G, hG, hopen⟩
    · exact ⟨k, hidle, hgoes⟩
    · exact absurd hpc hended
    · -- the group is there and open, so it is for the creator to go on
      have hstage := hs.creator
      rw [hG] at hstage
      have hcreator : (s.party c).pc ≠ .idle ∧ (s.party c).pc ≠ .ended := by
        generalize mail c s = mails at hstage
        cases hstage with
        | asked _ _ hpc | business _ hpc | notifies _ _ hpc => simp [hpc]
        | notified _ _ _ _ _ hdone | ended _ _ _ hdone => exact absurd hopen (not_open hdone)
      exact creator_goes_on hs hcreator.1 hcreator.2

/-! ## How many steps there are -/

def isRequest : Packet → Bool
  | .request _ _ _ => true
  | _ => false

/-- How many steps a participant has to go, if it is there and has that mail. -/
def toGo (creator : Bool) (pc : ParticipantPc) (mails : List Packet) : Nat :=
  match pc with
  | .idle => if creator then 6 else 5
  | .creating => 4 + mails.countP isRequest
  | .business => if creator then 3 else 4
  | .notifying => 1 + mails.countP isRequest
  | .joining => 2 + mails.countP isRequest
  | .waiting => 1
  | .ended => 0

/-- How many steps the participant `k` has to go. -/
def stepsToGo (c k : String) (s : Commitment) : Nat := toGo (k = c) (s.party k).pc (mail k s)

/-- What is no request does not count. -/
theorem toGo_append {b : Bool} {pc : ParticipantPc} {more : List Packet}
    (h : ∀ packet ∈ more, isRequest packet = false) :
    toGo b pc (mails ++ more) = toGo b pc mails := by
  have hnone : more.countP isRequest = 0 := by
    rw [List.countP_eq_zero]
    intro packet hmem
    simp [h packet hmem]
  cases pc <;> simp [toGo, hnone]

theorem toGo_handle {ev : Event} :
    stepsToGo c k (t.handle n ev) = stepsToGo c k t := by
  unfold stepsToGo
  rw [handle_party, mail_handle]
  refine toGo_append fun packet hmem => ?_
  obtain ⟨msg, _, rfl⟩ := List.mem_map.mp (List.mem_filter.mp hmem).1
  obtain ⟨k', message⟩ := msg
  cases message <;> rfl

theorem stepsToGo_move_of_ne {next : Participant.Next} (hk : k' ≠ k) :
    stepsToGo c k' (s.move applicationName k next) = stepsToGo c k' s := by
  unfold stepsToGo
  rw [move_of_ne hk, mail_move_of_ne hk]

theorem stepsToGo_take_of_ne (h : s.take packet = some t) (hk : partyOf packet ≠ k) :
    stepsToGo c k t = stepsToGo c k s := by
  unfold stepsToGo
  rw [party_take h, mail_take_of_ne h hk]

/-- A step of another participant. -/
theorem stepsToGo_other {a : Action} (ha : FaultFree c b s a) (hother : StepOf k a = false)
    (h : step applicationName s a = some t) : stepsToGo c k t = stepsToGo c k s := by
  cases a with
  | tryBegin k' =>
      have hk : k ≠ k' := by simpa [StepOf, eq_comm] using hother
      simp only [step] at h
      split at h
      · cases h
        exact stepsToGo_move_of_ne hk
      · cases h
  | tryEnd k' success capture =>
      have hk : k ≠ k' := by simpa [StepOf, eq_comm] using hother
      simp only [step] at h
      split at h
      · cases h
        exact stepsToGo_move_of_ne hk
      · cases h
  | handle k' n message now =>
      have hk : k' ≠ k := by simpa [StepOf] using hother
      obtain ⟨u, htake, h⟩ := Option.bind_eq_some_iff.mp h
      obtain ⟨ev, _, h⟩ := Option.bind_eq_some_iff.mp h
      cases h
      rw [toGo_handle, stepsToGo_take_of_ne htake hk]
  | answer k' message succeeds =>
      have hk : k' ≠ k := by simpa [StepOf] using hother
      obtain ⟨u, htake, h⟩ := Option.bind_eq_some_iff.mp h
      obtain ⟨next, _, h⟩ := Option.bind_eq_some_iff.mp h
      cases h
      rw [stepsToGo_move_of_ne (Ne.symm hk), stepsToGo_take_of_ne htake hk]
  | decide k' event succeeds =>
      have hk : k' ≠ k := by simpa [StepOf] using hother
      simp only [step] at h
      split at h
      · obtain ⟨u, htake, h⟩ := Option.bind_eq_some_iff.mp h
        cases h
        rw [stepsToGo_move_of_ne (Ne.symm hk), stepsToGo_take_of_ne htake hk]
      · cases h
  | expire k' succeeds => exact ha.elim
  | giveUp k' => exact ha.elim
  | lose packet => exact ha.elim

/-- There is one packet for a participant at most. -/
theorem mail_single (hs : OnTrack g c b s) (hmem : packet ∈ mail k s) : mail k s = [packet] := by
  by_cases hk : k = c
  · subst hk
    have hstage := hs.creator
    generalize mail k s = mails at hstage hmem ⊢
    generalize s.store g = record at hstage
    cases hstage with
    | asks | asked | notifies | notified => rw [List.mem_singleton.mp hmem]
    | idle | business | ended => cases hmem
  · have hstage := hs.joiners k hk
    generalize mail k s = mails at hstage hmem ⊢
    generalize s.store g = record at hstage
    cases hstage with
    | asks | asked | told => rw [List.mem_singleton.mp hmem]
    | idle | business | waiting | ended => cases hmem

/-- Whoever has an answer to its join has opened a connection. -/
theorem bound_of_answer (hs : OnTrack g c b s) {message : Message}
    (hmem : .reply k n message ∈ mail k s) (hpc : (s.party k).pc = .joining) :
    (s.party k).jdbcTransaction = true := by
  have hstage := hs.joiners k ((hs.parties k).joiner_pc (Or.inl hpc))
  generalize mail k s = mails at hstage hmem
  generalize s.store g = record at hstage
  cases hstage with
  | asked _ _ _ hbound => exact hbound
  | asks | told => cases List.mem_singleton.mp hmem
  | idle | business | waiting | ended => cases hmem

/-- There is none for a participant that waits for nothing. -/
theorem mail_empty (hs : OnTrack g c b s)
    (hpc : (s.party k).pc = .idle ∨ (s.party k).pc = .business) : mail k s = [] := by
  by_cases hk : k = c
  · subst hk
    have hstage := hs.creator
    generalize mail k s = mails at hstage ⊢
    generalize s.store g = record at hstage
    cases hstage with
    | idle | business | ended => rfl
    | asks _ h | asked _ _ h | notifies _ _ h | notified _ _ h => simp [h] at hpc
  · have hstage := hs.joiners k hk
    generalize mail k s = mails at hstage ⊢
    generalize s.store g = record at hstage
    cases hstage with
    | idle | business | waiting | ended => rfl
    | asks _ _ h | asked _ _ h | told _ _ h => simp [h] at hpc

/-- Who has asked waits for the answer. -/
theorem asking (hs : OnTrack g c b s) {message : Message}
    (hmem : .request k n message ∈ mail k s) : (s.party k).pc = .creating
      ∨ (s.party k).pc = .notifying ∨ (s.party k).pc = .joining := by
  by_cases hk : k = c
  · subst hk
    have hstage := hs.creator
    generalize mail k s = mails at hstage hmem
    generalize s.store g = record at hstage
    cases hstage with
    | asks _ h => exact Or.inl h
    | notifies _ _ h => exact Or.inr (Or.inl h)
    | asked | notified => cases List.mem_singleton.mp hmem
    | idle | business | ended => cases hmem
  · have hstage := hs.joiners k hk
    generalize mail k s = mails at hstage hmem
    generalize s.store g = record at hstage
    cases hstage with
    | asks _ _ h => exact Or.inr (Or.inr h)
    | asked | told => cases List.mem_singleton.mp hmem
    | idle | business | waiting | ended => cases hmem

theorem stepsToGo_tryBegin (hs : OnTrack g c b s) (hpc : (s.party k).pc = .idle) :
    stepsToGo c k (s.move applicationName k (s.party k).tryBeginTransaction) + 1
      = stepsToGo c k s := by
  have hmail := mail_empty hs (Or.inl hpc)
  by_cases hk : k = c
  · subst hk
    have hstage := hs.creator
    generalize mail k s = mails at hstage
    generalize s.store g = record at hstage
    have hstate : (s.party k).transactionInfo.transactionState = .CREATE := by
      cases hstage with
      | idle _ hstate => exact hstate
      | asks _ h | asked _ _ h | business _ h | notifies _ _ h | notified _ _ h | ended _ h =>
          rw [hpc] at h
          cases h
    unfold stepsToGo Participant.tryBeginTransaction
    rw [if_pos hstate, party_move_some, mail_move_some, hmail, hpc]
    simp [toGo, isRequest]
  · have hstate := (hs.parties k).joiner_state hk
    unfold stepsToGo Participant.tryBeginTransaction
    rw [hstate, if_neg (by simp), party_move_none, mail_move_none, hmail, hpc]
    simp [toGo, hk]

theorem stepsToGo_tryEnd {success : Bool} {capture : Capture} (hs : OnTrack g c b s)
    (hpc : (s.party k).pc = .business) :
    stepsToGo c k (s.move applicationName k ((s.party k).endBusiness success capture)) + 1
      = stepsToGo c k s := by
  have hmail := mail_empty hs (Or.inr hpc)
  by_cases hk : k = c
  · obtain ⟨q, hnext, hqpc, _⟩ := ends_creator (hs.parties k) hk success capture
    unfold stepsToGo
    rw [hnext, party_move_some, mail_move_some, hmail, hpc]
    simp [toGo, hqpc, hk, isRequest]
  · obtain ⟨q, hnext, hqpc, _⟩ := ends_joiner (hs.parties k) hk success capture
    unfold stepsToGo
    rw [hnext, party_move_some, mail_move_some, hmail, hpc]
    simp [toGo, hqpc, hk, isRequest]

/-- The request is in flight before, and not any more after. -/
theorem stepsToGo_handle {message : Message} {ev : Event} (hs : OnTrack g c b s)
    (htake : s.take (.request k n message) = some t) :
    stepsToGo c k (t.handle n ev) + 1 = stepsToGo c k s := by
  have hmem : .request k n message ∈ mail k s := mem_mail (take_some htake).1
  rw [toGo_handle]
  unfold stepsToGo
  rw [party_take htake, mail_take htake, mail_single hs hmem, List.erase_cons_head]
  rcases asking hs hmem with hpc | hpc | hpc <;> simp [toGo, hpc, isRequest]

theorem stepsToGo_answer {message : Message} {next : Participant.Next} (hs : OnTrack g c b s)
    (htake : s.take (.reply k (s.party k).attempt message) = some t)
    (h : (s.party k).resume succeeds (some message) = some next) :
    stepsToGo c k (t.move applicationName k next) + 1 = stepsToGo c k s := by
  have hmem : .reply k (s.party k).attempt message ∈ mail k s := mem_mail (take_some htake).1
  have hempty : mail k t = [] := by
    rw [mail_take htake, mail_single hs hmem, List.erase_cons_head]
  have hafter : stepsToGo c k (t.move applicationName k next)
      = toGo (k = c) next.1.pc (mail k (t.move applicationName k next)) := by
    obtain ⟨m, hself⟩ := move_self applicationName t k next
    unfold stepsToGo
    rw [hself]
  have hbefore : stepsToGo c k s = toGo (k = c) (s.party k).pc
      [.reply k (s.party k).attempt message] := by
    unfold stepsToGo
    rw [mail_single hs hmem]
  rw [hafter, hbefore]
  cases hpc : (s.party k).pc with
  | creating =>
      have hk : k = c := (hs.parties k).creator_pc (Or.inl hpc)
      cases message with
      | create event =>
          simp only [Participant.resume, hpc, Participant.created, Option.some.injEq] at h
          subst h
          simp [toGo, hk, isRequest]
      | _ => simp [Participant.resume, hpc] at h
  | notifying =>
      cases message with
      | notify event =>
          simp only [Participant.resume, hpc, Participant.notified] at h
          split at h
          · cases h
          · simp only [Option.isNone_some, Bool.and_false, Bool.false_eq_true, if_false,
              Option.some.injEq] at h
            subst h
            simp [toGo, isRequest]
      | _ => simp [Participant.resume, hpc] at h
  | joining =>
      cases message with
      | join event =>
          simp only [Participant.resume, hpc, Participant.joined, bound_of_answer hs hmem hpc,
            if_true, Option.some.injEq] at h
          subst h
          simp [toGo, isRequest]
      | _ => simp [Participant.resume, hpc] at h
  | idle | business | waiting | ended => simp [Participant.resume, hpc] at h

/-- **Every step without a fault is one of those to go.** -/
theorem stepsToGo_step {a : Action} (hs : OnTrack g c b s) (ha : FaultFree c b s a)
    (h : step applicationName s a = some t) (k : String) :
    (StepOf k a).toNat + stepsToGo c k t = stepsToGo c k s := by
  cases hown : StepOf k a with
  | false => exact (Nat.zero_add _).trans (stepsToGo_other ha hown h)
  | true =>
      rw [Bool.toNat_true, Nat.add_comm]
      cases a with
      | tryBegin k' =>
          obtain rfl : k' = k := by simpa [StepOf] using hown
          simp only [step] at h
          split at h
          · rename_i hpc
            cases h
            exact stepsToGo_tryBegin hs hpc
          · cases h
      | tryEnd k' success capture =>
          obtain rfl : k' = k := by simpa [StepOf] using hown
          simp only [step] at h
          split at h
          · rename_i hpc
            cases h
            exact stepsToGo_tryEnd hs hpc
          · cases h
      | handle k' n message now =>
          obtain rfl : k' = k := by simpa [StepOf] using hown
          obtain ⟨u, htake, h⟩ := Option.bind_eq_some_iff.mp h
          obtain ⟨ev, _, h⟩ := Option.bind_eq_some_iff.mp h
          cases h
          exact stepsToGo_handle hs htake
      | answer k' message succeeds =>
          obtain rfl : k' = k := by simpa [StepOf] using hown
          obtain ⟨u, htake, h⟩ := Option.bind_eq_some_iff.mp h
          obtain ⟨next, hnext, h⟩ := Option.bind_eq_some_iff.mp h
          cases h
          rw [party_take htake] at hnext
          exact stepsToGo_answer hs htake hnext
      | decide k' event succeeds =>
          obtain rfl : k' = k := by simpa [StepOf] using hown
          simp only [step] at h
          split at h
          · rename_i hpc
            obtain ⟨u, htake, h⟩ := Option.bind_eq_some_iff.mp h
            cases h
            unfold stepsToGo
            rw [party_move_none, Participant.decided, Participant.commit_pc, hpc]
            rfl
          · cases h
      | expire k' succeeds => exact ha.elim
      | giveUp k' => exact ha.elim
      | lose packet => exact ha.elim

/-! ## The run -/

theorem stepsToGo_eq_zero {b : Bool} {pc : ParticipantPc} : toGo b pc mails = 0 ↔ pc = .ended := by
  cases pc <;> cases b <;> simp [toGo]

theorem OnTrack.ended (hs : OnTrack g c b s) (hpc : (s.party k).pc = .ended) :
    CarriedOut b (s.party k) := by
  by_cases hk : k = c
  · subst hk
    have hstage := hs.creator
    generalize mail k s = mails at hstage
    generalize s.store g = record at hstage
    cases hstage with
    | ended _ _ hcarried => exact hcarried
    | idle h | asks _ h | asked _ _ h | business _ h | notifies _ _ h | notified _ _ h =>
        rw [hpc] at h
        cases h
  · have hstage := hs.joiners k hk
    generalize mail k s = mails at hstage
    generalize s.store g = record at hstage
    cases hstage with
    | ended _ _ hcarried => exact hcarried
    | idle _ h | business _ h | asks _ _ h | asked _ _ h | waiting _ h | told _ _ h =>
        rw [hpc] at h
        cases h

/-- The creator's business calls one other, which succeeds, and then fails itself. -/
def creatorFails : List Action :=
  [.tryBegin "c", .handle "c" 1 (asSent "c" (.create (.new (some "g")))) 0,
    .answer "c" (asAnswered "c" (.create (.new (some "g")))) noFailure,
    .tryBegin "j", .tryEnd "j" true .captured,
    .handle "j" 1 (asSent "j" (.join (.new (some "g")))) 1,
    .answer "j" (asAnswered "j" (.join (.new (some "g")))) noFailure,
    .tryEnd "c" false .captured, .handle "c" 2 (asSent "c" (.notify (.new (some "g") false))) 2,
    .decide "j" (.new (some "g") false) noFailure,
    .answer "c" (asAnswered "c" (.notify (.new (some "g") false))) noFailure]

end TxLcn.Proof
