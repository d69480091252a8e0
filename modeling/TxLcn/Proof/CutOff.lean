import TxLcn.Proof.InFlight

/-!
# A participant that nothing reaches

Every request of a participant ends by itself, with null if nothing arrives, and
so does the waiting for the decision. So a participant that is cut off goes on
alone, whatever the others, the TM and the packets do meanwhile, as long as none
of its requests throws an exception instead: such a request is no step here, and
ends the participant with its connection as it was.

`cut_off_ends_iff` says how far it gets. At most three steps end it, and nothing
that it ends with has been committed. There is one participant that none of this
holds of: the creator whose business succeeded asks for as long as it is not
answered. And there is one connection that is not given back: that of a joiner
that was already waiting for the decision is left as it is, open and undecided.
-/

namespace TxLcn.Proof

open TxLcn.Lib TxLcn.Protocol TxLcn.Tm TxLcn.Tc Commitment

/-- The action hands `k` a packet. -/
def Receives (k : String) : Action → Bool
  | .answer k' _ _ => k' = k
  | .decide k' _ _ => k' = k
  | _ => false

/-- The action is a step of `k` for which nothing has to reach it. -/
def OnItsOwn (k : String) : Action → Bool
  | .tryBegin k' => k' = k
  | .tryEnd k' _ _ => k' = k
  | .expire k' _ => k' = k
  | .giveUp k' => k' = k
  | _ => false

/-- The business of the creator `k` has succeeded, so that it notifies until it is answered. -/
def Insists (c k : String) (s : Commitment) : Prop :=
  k = c ∧ (s.party k).transactionInfo.successReturn = some true

/-- How many steps are left to one that is cut off. -/
def stepsLeft : ParticipantPc → Nat
  | .idle => 3
  | .creating => 2
  | .business => 2
  | .notifying => 1
  | .joining => 1
  | .waiting => 1
  | .ended => 0

/-- The connection was rolled back and closed, as far as that succeeded. -/
def GivenBack (connection : RawConnection) : Prop :=
  ∃ rolledBack closed, connection.calls = [(.rollback, rolledBack), (.close, closed)]

/-! ## The steps of a participant -/

/-- A step for which nothing has to reach the participant. -/
inductive Alone (p : Participant) : Participant.Next → Prop where
  | begins (hpc : p.pc = .idle) : Alone p p.tryBeginTransaction
  | ends (success : Bool) (capture : Capture) (hpc : p.pc = .business) :
      Alone p (p.endBusiness success capture)
  | expires (succeeds : RawCall → Bool) (next : Participant.Next)
      (hnext : p.resume succeeds none = some next) : Alone p next
  | givesUp (hpc : p.pc = .waiting) : Alone p (p.decided (fun _ => true) none, none)

/-- A step with what has reached it. -/
inductive GotPacket (p : Participant) : Participant.Next → Prop where
  | answered (succeeds : RawCall → Bool) (message : Message) (next : Participant.Next)
      (hnext : p.resume succeeds (some message) = some next) : GotPacket p next
  | decided (succeeds : RawCall → Bool) (event : TransactionCommitEvent) (hpc : p.pc = .waiting) :
      GotPacket p (p.decided succeeds (some event), none)

/-- The participant can be asked for the outcome of its business when it notifies it. -/
structure Answerable (g : String) (creator : Prop) (p : Participant) : Prop extends
    p.WellFormed g creator where
  set : p.pc = .notifying → p.transactionInfo.successReturn.isSome = true

variable {g c k : String} {s t : Commitment} {a : Action} {as bs : List Action}
  {p : Participant} {next : Participant.Next} {creator : Prop}
  {applicationName : String → Option String}

/-- What an action is to the participant `k`. -/
theorem step_party (h : step applicationName s a = some t) (k : String) :
    (OnItsOwn k a = false ∧ t.party k = s.party k)
      ∨ (OnItsOwn k a = true ∧ ∃ next n, Alone (s.party k) next
        ∧ t.party k = { next.1 with attempt := n })
      ∨ (Receives k a = true ∧ ∃ next n, GotPacket (s.party k) next
        ∧ t.party k = { next.1 with attempt := n }) := by
  have halone : ∀ k' next, Alone (s.party k') next → t = s.move applicationName k' next →
      (decide (k' = k) = false ∧ t.party k = s.party k)
        ∨ (decide (k' = k) = true ∧ ∃ next n, Alone (s.party k) next
          ∧ t.party k = { next.1 with attempt := n }) := by
    intro k' next hnext ht
    subst ht
    by_cases hk : k' = k
    · subst hk
      obtain ⟨n, hself⟩ := move_self applicationName s k' next
      exact Or.inr ⟨by simp, next, n, hnext, hself⟩
    · exact Or.inl ⟨by simp [hk], move_of_ne (Ne.symm hk)⟩
  have hpacket : ∀ s' k' packet next, s.take packet = some s' → GotPacket (s.party k') next →
      t = s'.move applicationName k' next → t.party k = s.party k
        ∨ (decide (k' = k) = true ∧ ∃ next n, GotPacket (s.party k) next
          ∧ t.party k = { next.1 with attempt := n }) := by
    intro s' k' packet next htake hnext ht
    subst ht
    by_cases hk : k' = k
    · subst hk
      obtain ⟨n, hself⟩ := move_self applicationName s' k' next
      exact Or.inr ⟨by simp, next, n, hnext, hself⟩
    · exact Or.inl ((move_of_ne (Ne.symm hk)).trans (congrFun (party_take htake) k))
  cases a with
  | tryBegin k' =>
      simp only [step] at h
      split at h
      · rename_i hpc
        exact (halone k' _ (.begins hpc) (Option.some.inj h).symm).imp_right Or.inl
      · cases h
  | tryEnd k' success capture =>
      simp only [step] at h
      split at h
      · rename_i hpc
        exact (halone k' _ (.ends success capture hpc) (Option.some.inj h).symm).imp_right Or.inl
      · cases h
  | handle k' n message now =>
      obtain ⟨s', htake, h⟩ := Option.bind_eq_some_iff.mp h
      obtain ⟨ev, _, h⟩ := Option.bind_eq_some_iff.mp h
      cases h
      exact Or.inl ⟨rfl, congrFun ((handle_party n ev).trans (party_take htake)) k⟩
  | answer k' message succeeds =>
      obtain ⟨s', htake, h⟩ := Option.bind_eq_some_iff.mp h
      obtain ⟨next, hnext, h⟩ := Option.bind_eq_some_iff.mp h
      rw [party_take htake] at hnext
      rcases hpacket s' k' _ next htake (.answered succeeds message next hnext)
        (Option.some.inj h).symm with hsame | hstep
      · exact Or.inl ⟨rfl, hsame⟩
      · exact Or.inr (Or.inr hstep)
  | expire k' succeeds =>
      obtain ⟨next, hnext, h⟩ := Option.bind_eq_some_iff.mp h
      exact (halone k' next (.expires succeeds next hnext)
        (Option.some.inj h).symm).imp_right Or.inl
  | decide k' event succeeds =>
      simp only [step] at h
      split at h
      · rename_i hpc
        obtain ⟨s', htake, h⟩ := Option.bind_eq_some_iff.mp h
        rw [party_take htake] at h
        rcases hpacket s' k' _ _ htake (.decided succeeds event hpc)
          (Option.some.inj h).symm with hsame | hstep
        · exact Or.inl ⟨rfl, hsame⟩
        · exact Or.inr (Or.inr hstep)
      · cases h
  | giveUp k' =>
      simp only [step] at h
      split at h
      · rename_i hpc
        exact (halone k' _ (.givesUp hpc) (Option.some.inj h).symm).imp_right Or.inl
      · cases h
  | lose packet => exact Or.inl ⟨rfl, congrFun (party_take h) k⟩

/-! ## What every step keeps -/

theorem Alone.sound (hp : p.WellFormed g creator) (h : Alone p next) :
    Participant.Sound g creator p next := by
  cases h with
  | begins hpc => exact Participant.sound_tryBeginTransaction hp hpc
  | ends success capture hpc => exact Participant.sound_endBusiness hp hpc success capture
  | expires succeeds _ hnext => exact Participant.sound_resume hp hnext
  | givesUp _ => exact Participant.sound_decided hp (fun _ => true) none

theorem GotPacket.sound (hp : p.WellFormed g creator) (h : GotPacket p next) :
    Participant.Sound g creator p next := by
  cases h with
  | answered succeeds message _ hnext => exact Participant.sound_resume hp hnext
  | decided succeeds event _ => exact Participant.sound_decided hp succeeds (some event)

/-- The outcome is set at the end of the business, whichever end that is. -/
theorem set_tryEndTransaction (success : Bool) :
    (p.tryEndTransaction success).1.transactionInfo.successReturn = some success := by
  simp only [Participant.tryEndTransaction, Participant.setSuccessReturn,
    Participant.setTransactionState]
  split <;> rfl

theorem Answerable.resume (hp : Answerable g creator p) {succeeds : RawCall → Bool}
    {res : Option Message} (h : p.resume succeeds res = some next) (hpc : next.1.pc = .notifying) :
    next.1.transactionInfo.successReturn.isSome = true := by
  have hcreated : ∀ res, (p.created res).1.pc = .notifying →
      (p.created res).1.transactionInfo.successReturn.isSome = true := by
    intro res hnotifying
    cases res with
    | none => exact congrArg Option.isSome (set_tryEndTransaction false)
    | some res => cases hnotifying
  have hjoined : ∀ res, (p.joined succeeds res).1.pc ≠ .notifying := by
    intro res
    cases res with
    | none => simp [Participant.joined]
    | some res =>
        unfold Participant.joined
        dsimp only
        split <;> simp
  have hnotified : ∀ res, p.pc = .notifying → p.notified succeeds res = some next →
      next.1.transactionInfo.successReturn.isSome = true := by
    intro res hold hnext
    have hset := hp.set hold
    rcases (Participant.sound_notified hp.toWellFormed hold hnext).keeps with hunset | hsame
    · rw [hunset] at hset
      cases hset
    · rw [hsame]
      exact hset
  unfold Participant.resume at h
  split at h
  · cases h; exact hcreated _ hpc
  · cases h; exact hcreated _ hpc
  · rename_i hold; exact hnotified _ hold h
  · rename_i hold; exact hnotified _ hold h
  · cases h; exact absurd hpc (hjoined _)
  · cases h; exact absurd hpc (hjoined _)
  · cases h

theorem Alone.set (hp : Answerable g creator p) (h : Alone p next)
    (hpc : next.1.pc = .notifying) : next.1.transactionInfo.successReturn.isSome = true := by
  cases h with
  | begins hold =>
      unfold Participant.tryBeginTransaction at hpc
      split at hpc <;> cases hpc
  | ends success capture hold => exact congrArg Option.isSome (set_tryEndTransaction success)
  | expires succeeds _ hnext => exact hp.resume hnext hpc
  | givesUp hold => cases hpc

theorem GotPacket.set (hp : Answerable g creator p) (h : GotPacket p next)
    (hpc : next.1.pc = .notifying) : next.1.transactionInfo.successReturn.isSome = true := by
  cases h with
  | answered succeeds message _ hnext => exact hp.resume hnext hpc
  | decided succeeds event hold =>
      rw [show ((p.decided succeeds (some event), none) : Participant.Next).1.pc = .ended from
        Participant.commit_pc _] at hpc
      cases hpc

/-- The number of its requests is nothing that a participant depends on. -/
theorem Answerable.attempt (hp : Answerable g creator p) (n : Nat) :
    Answerable g creator { p with attempt := n } where
  toWellFormed := { hp.toWellFormed with }
  set := hp.set

theorem answerable_init (g c k : String) :
    Answerable g (k = c) ((Commitment.init g c).party k) where
  toWellFormed := wellFormed_init g c k
  set := by
    rw [idle_init]
    simp

/-- **Every step leaves the participant able to say how its business ended.** -/
theorem answerable_step (hp : Answerable g (k = c) (s.party k))
    (h : step applicationName s a = some t) : Answerable g (k = c) (t.party k) := by
  rcases step_party h k with ⟨_, hsame⟩ | ⟨_, next, n, hnext, hself⟩ | ⟨_, next, n, hnext, hself⟩
  · rw [hsame]
    exact hp
  · rw [hself]
    exact Answerable.attempt ⟨(hnext.sound hp.toWellFormed).wellFormed, hnext.set hp⟩ n
  · rw [hself]
    exact Answerable.attempt ⟨(hnext.sound hp.toWellFormed).wellFormed, hnext.set hp⟩ n

/-! ## Where a step alone leads -/

/-- The rollback is all that is done with the connection. -/
theorem givenBack_commit (hp : p.WellFormed g creator) (hpc : p.pc ≠ .ended)
    {succeeds : RawCall → Bool} {connection : RawConnection}
    (h : (p.commit succeeds false).connection = some connection) : GivenBack connection := by
  cases hold : p.connection with
  | none => simp [Participant.commit, LcnCommitor.commit, hold] at h
  | some old =>
      obtain ⟨calls⟩ := old
      obtain rfl : calls = [] := hp.untouched hpc _ hold
      simp only [Participant.commit, LcnCommitor.commit, hold, Option.some.injEq] at h
      subst h
      exact ⟨succeeds .rollback, succeeds .close, rfl⟩

/-- A participant with a step fewer to go, or the creator that insists. -/
def GoesOn (creator : Prop) (p q : Participant) : Prop :=
  q.pc ≠ .ended ∧ q.pc ≠ .waiting ∧ p.pc ≠ .waiting
    ∧ ((creator ∧ q.transactionInfo.successReturn = some true)
      ∨ 1 + stepsLeft q.pc = stepsLeft p.pc)

/-- The end without a decision. -/
def Leaves (creator : Prop) (p q : Participant) : Prop :=
  p.pc = .waiting ∧ ¬ creator ∧ q.pc = .ended ∧ q.connection = p.connection

/-- The end with a rollback. -/
def GivesBack (creator : Prop) (p q : Participant) : Prop :=
  stepsLeft p.pc = 1 ∧ p.pc ≠ .waiting ∧ q.pc = .ended
    ∧ ¬ (creator ∧ q.transactionInfo.successReturn = some true)
    ∧ ∀ connection, q.connection = some connection → GivenBack connection

theorem goesOn_tryEndTransaction (hp : p.WellFormed g creator) (hleft : stepsLeft p.pc = 2)
    (success : Bool) : GoesOn creator p (p.tryEndTransaction success).1 := by
  have hwaiting : p.pc ≠ .waiting := by
    intro hpc
    rw [hpc] at hleft
    cases hleft
  refine ⟨Participant.tryEndTransaction_pc hp success, ?_, hwaiting, Or.inr ?_⟩
  · simp only [Participant.tryEndTransaction, Participant.setSuccessReturn]
    split <;> simp
  · rw [hleft]
    by_cases hcreator : creator
    · rcases hp.creator_state hcreator with hstate | hstate <;>
        simp [Participant.tryEndTransaction, Participant.setSuccessReturn,
          hstate, stepsLeft]
    · simp [Participant.tryEndTransaction, Participant.setSuccessReturn,
        hp.joiner_state hcreator, stepsLeft]

/-- **Alone, a participant goes on, or leaves its connection, or rolls it back.** -/
theorem Alone.leads (hp : Answerable g creator p) (h : Alone p next) :
    GoesOn creator p next.1 ∨ Leaves creator p next.1 ∨ GivesBack creator p next.1 := by
  cases h with
  | begins hpc =>
      refine Or.inl ?_
      unfold Participant.tryBeginTransaction
      split <;> simp [GoesOn, hpc, stepsLeft]
  | ends success capture hpc =>
      refine Or.inl ?_
      exact goesOn_tryEndTransaction (hp.toWellFormed.capture capture)
        (by simp [hpc, stepsLeft]) success
  | expires succeeds _ hnext =>
      cases hpc : p.pc with
      | creating =>
          simp only [Participant.resume, hpc, Option.some.injEq] at hnext
          subst hnext
          refine Or.inl ?_
          have hq : Participant.WellFormed g creator
              { p with thrown := some ⟨"create transaction fail."⟩ } := { hp.toWellFormed with }
          exact goesOn_tryEndTransaction hq (by simp [hpc, stepsLeft]) false
      | notifying =>
          simp only [Participant.resume, hpc] at hnext
          obtain ⟨success, hset⟩ := Option.isSome_iff_exists.mp (hp.set hpc)
          cases success with
          | true =>
              -- the same notification once more
              simp only [Participant.notified, hset] at hnext
              cases hnext
              refine Or.inl ⟨by simp [hpc], by simp [hpc], by simp [hpc], Or.inl ⟨?_, hset⟩⟩
              exact hp.creator_pc (Or.inr hpc)
          | false =>
              simp only [Participant.notified, hset] at hnext
              cases hnext
              refine Or.inr (Or.inr ⟨by simp [hpc, stepsLeft], by simp [hpc],
                Participant.commit_pc _, ?_, fun connection hconnection => ?_⟩)
              · rw [Participant.commit_transactionInfo, hset]
                simp
              · exact givenBack_commit hp.toWellFormed (by simp [hpc]) hconnection
      | joining =>
          simp only [Participant.resume, hpc, Option.some.injEq] at hnext
          subst hnext
          refine Or.inr (Or.inr ⟨by simp [hpc, stepsLeft], by simp [hpc],
            Participant.commit_pc _, ?_, fun connection hconnection => ?_⟩)
          · exact fun hinsists => hp.joiner_pc (Or.inl hpc) hinsists.1
          · exact givenBack_commit hp.toWellFormed (by simp [hpc]) hconnection
      | idle | business | waiting | ended => simp [Participant.resume, hpc] at hnext
  | givesUp hpc => exact Or.inr (Or.inl ⟨hpc, hp.joiner_pc (Or.inr hpc), rfl, rfl⟩)

/-- Having ended, a participant takes no step alone. -/
theorem Alone.not_ended (h : Alone p next) : p.pc ≠ .ended := by
  intro hpc
  cases h with
  | begins hold => rw [hpc] at hold; cases hold
  | ends success capture hold => rw [hpc] at hold; cases hold
  | expires succeeds _ hnext => simp [Participant.resume, hpc] at hnext
  | givesUp hold => rw [hpc] at hold; cases hold

/-- Wherever it is, a participant can go on alone. -/
theorem exists_onItsOwn (hp : Answerable g creator (s.party k)) (hpc : (s.party k).pc ≠ .ended) :
    ∃ a, OnItsOwn k a = true ∧ (step applicationName s a).isSome = true := by
  cases h : (s.party k).pc with
  | idle => exact ⟨.tryBegin k, by simp [OnItsOwn], by simp [step, h]⟩
  | business => exact ⟨.tryEnd k true .captured, by simp [OnItsOwn], by simp [step, h]⟩
  | creating | joining =>
      exact ⟨.expire k fun _ => true, by simp [OnItsOwn], by simp [step, h, Participant.resume]⟩
  | notifying =>
      obtain ⟨success, hset⟩ := Option.isSome_iff_exists.mp (hp.set h)
      refine ⟨.expire k fun _ => true, by simp [OnItsOwn], ?_⟩
      cases success <;> simp [step, h, Participant.resume, Participant.notified, hset]
  | waiting => exact ⟨.giveUp k, by simp [OnItsOwn], by simp [step, h]⟩
  | ended => exact absurd h hpc

/-! ## A run without a packet for the participant -/

/-- What there is of a participant that nothing has reached since it was `waiting`, or was not. -/
structure Unreached (g : String) (creator waiting : Prop) (p : Participant) : Prop extends
    Answerable g creator p where
  waits : p.pc ≠ .ended → (p.pc = .waiting ↔ waiting)
  insists : creator → p.transactionInfo.successReturn = some true → p.pc ≠ .ended
  left : waiting → p.pc = .ended →
    ∀ connection, p.connection = some connection → connection.calls = []
  givenBack : ¬ waiting → p.pc = .ended →
    ∀ connection, p.connection = some connection → GivenBack connection

variable {waiting : Prop}

theorem Unreached.attempt (hp : Unreached g creator waiting p) (n : Nat) :
    Unreached g creator waiting { p with attempt := n } where
  toAnswerable := hp.toAnswerable.attempt n
  waits := hp.waits
  insists := hp.insists
  left := hp.left
  givenBack := hp.givenBack

theorem unreached_alone (hp : Unreached g creator waiting p) (h : Alone p next) :
    Unreached g creator waiting next.1 := by
  have hanswers : Answerable g creator next.1 :=
    ⟨(h.sound hp.toWellFormed).wellFormed, h.set hp.toAnswerable⟩
  have hne := h.not_ended
  rcases h.leads hp.toAnswerable with ⟨hon, hnot, hold, _⟩ | ⟨hold, hno, hended, hsame⟩
    | ⟨_, hold, hended, hno, hback⟩
  · have hnowait : ¬ waiting := fun hw => hold ((hp.waits hne).mpr hw)
    exact ⟨hanswers, fun _ => ⟨fun hw => absurd hw hnot, fun hw => absurd hw hnowait⟩,
      fun _ _ => hon, fun _ hended => absurd hended hon, fun _ hended => absurd hended hon⟩
  · have hwait : waiting := (hp.waits hne).mp hold
    refine ⟨hanswers, fun hon => absurd hended hon, fun hcreator _ => absurd hcreator hno,
      fun _ _ connection hconnection => ?_, fun hnowait _ => absurd hwait hnowait⟩
    rw [hsame] at hconnection
    exact hp.untouched hne connection hconnection
  · have hnowait : ¬ waiting := fun hw => hold ((hp.waits hne).mpr hw)
    exact ⟨hanswers, fun hon => absurd hended hon,
      fun hcreator hset => absurd ⟨hcreator, hset⟩ hno, fun hw => absurd hw hnowait,
      fun _ _ => hback⟩

/-- The participant after an action that hands it nothing. -/
theorem unreached_step (hp : Unreached g creator waiting (s.party k)) (hcut : Receives k a = false)
    (h : step applicationName s a = some t) : Unreached g creator waiting (t.party k) := by
  rcases step_party h k with ⟨_, hsame⟩ | ⟨_, next, n, hnext, hself⟩ | ⟨hreceives, _⟩
  · rw [hsame]
    exact hp
  · rw [hself]
    exact (unreached_alone hp hnext).attempt n
  · rw [hcut] at hreceives
    cases hreceives

theorem Answerable.unreached (hp : Answerable g creator p) (hpc : p.pc ≠ .ended) :
    Unreached g creator (p.pc = .waiting) p where
  toAnswerable := hp
  waits _ := Iff.rfl
  insists _ _ := hpc
  left _ hended := absurd hended hpc
  givenBack _ hended := absurd hended hpc

/-- Nobody who is cut off has committed. -/
theorem Unreached.not_committed (hp : Unreached g creator waiting p) : p.committed = false := by
  by_cases hpc : p.pc = .ended
  · cases hc : p.connection with
    | none => simp [Participant.committed, hc]
    | some connection =>
        by_cases hw : waiting
        · simp [Participant.committed, hc, RawConnection.committed, hp.left hw hpc connection hc]
        · obtain ⟨rolledBack, closed, hcalls⟩ := hp.givenBack hw hpc connection hc
          simp [Participant.committed, hc, RawConnection.committed, hcalls]
  · exact hp.toWellFormed.not_committed hpc

theorem insists_step (hp : Unreached g (k = c) waiting (s.party k)) (hcut : Receives k a = false)
    (h : step applicationName s a = some t) (hs : Insists c k s) : Insists c k t := by
  refine ⟨hs.1, ?_⟩
  rcases step_party h k with ⟨_, hsame⟩ | ⟨_, next, n, hnext, hself⟩ | ⟨hreceives, _⟩
  · rw [hsame]
    exact hs.2
  · rw [hself]
    rcases (hnext.sound hp.toWellFormed).keeps with hunset | hkept
    · rw [hs.2] at hunset
      cases hunset
    · exact hkept.trans hs.2
  · rw [hcut] at hreceives
    cases hreceives

/-- A step alone is one of those left, unless the creator insists. -/
theorem stepsLeft_step (hp : Unreached g (k = c) waiting (s.party k)) (hcut : Receives k a = false)
    (h : step applicationName s a = some t) : Insists c k t
      ∨ (OnItsOwn k a).toNat + stepsLeft (t.party k).pc = stepsLeft (s.party k).pc := by
  rcases step_party h k with ⟨hown, hsame⟩ | ⟨hown, next, n, hnext, hself⟩ | ⟨hreceives, _⟩
  · rw [hown, hsame]
    exact Or.inr (Nat.zero_add _)
  · rw [hown, Insists, hself]
    show (k = c ∧ next.1.transactionInfo.successReturn = some true)
      ∨ 1 + stepsLeft next.1.pc = stepsLeft (s.party k).pc
    rcases hnext.leads hp.toAnswerable with ⟨_, _, _, hgoes⟩ | ⟨hold, _, hended, _⟩
      | ⟨hleft, _, hended, _⟩
    · exact hgoes
    · exact Or.inr (by rw [hold, hended]; rfl)
    · exact Or.inr (by rw [hleft, hended]; rfl)
  · rw [hcut] at hreceives
    cases hreceives

theorem stepsLeft_eq_zero {pc : ParticipantPc} : stepsLeft pc = 0 ↔ pc = .ended := by
  cases pc <;> simp [stepsLeft]

end TxLcn.Proof
