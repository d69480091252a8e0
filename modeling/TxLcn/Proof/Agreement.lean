import TxLcn.Lib.Refinement
import TxLcn.Lib.Verdict
import TxLcn.Proof.InFlight

/-!
# Whether a group commits as one

What is decided is how the business of the creator ended: a notification carries
it, the TM passes it on as it is, and nobody commits unless it was a success. So
a group can only disagree because of a joiner that ended without a commit while
the creator's success is, or will be, carried out by others.

A joiner gives up in four ways: its join is not answered in time; it is answered, but
the task that is to wait fails because the business has opened no connection; no
decision comes in time; or the decision comes and cannot be carried out. None of them
asks the TM, so none of them can tell whether the join is stored.
`refines_step` says that nothing else can go wrong: with each such step excluded
the participants carry out one `Verdict`. `group_agrees` is what follows.
-/

namespace TxLcn.Proof

open TxLcn.Lib TxLcn.Protocol TxLcn.Tm TxLcn.Tc Commitment

/--
No connection has been committed while a participant whose join is stored has
rolled back, or has ended without a commit.
-/
def Agreement (g : String) (s : Commitment) : Prop :=
  ∀ p q, p ≠ q → (s.party p).committed = true → JoinStored g s q →
    ¬ ((s.party q).rolledBack = true
      ∨ (s.party q).pc = .ended ∧ (s.party q).committed = false)

/--
Unless the business of the creator has failed, no participant whose join is
underway goes without its answer, or has opened no connection when the answer comes,
or goes without the decision, or without a connection that it can commit.
-/
def Timely (g c : String) (s : Commitment) (a : Action) : Prop :=
  decision c s = some false ∨
    match a with
    | .expire k _ => (s.party k).pc = .joining → ¬ JoinUnderway g s k
    | .answer k _ _ => (s.party k).pc = .joining → JoinUnderway g s k →
        (s.party k).jdbcTransaction = true
    | .giveUp k => ¬ JoinUnderway g s k
    | .decide k _ succeeds => JoinUnderway g s k →
        (s.party k).connection.isSome = true ∧ succeeds .delete = true ∧ succeeds .commit = true
    | _ => True

/-! ## The verdict -/

/-- The participants carry out the verdict `v`. -/
structure Refines (g c : String) (s : Commitment) (v : Verdict String) : Prop extends
    Tidy g c s where
  decided : v.decision = decision c s
  /-- Who has committed has carried out a success. -/
  commits : ∀ k, (s.party k).committed = true → v.outcome k = some true
  /-- Who ends with its join underway has committed, or has carried out a failure. -/
  settled : ∀ k, JoinUnderway g s k → (s.party k).pc = .ended → v.outcome k = some false
    ∨ (s.party k).committed = true ∧ (s.party k).rolledBack = false

variable {g c : String} {s t : Commitment} {v w : Verdict String}
  {applicationName : String → Option String}

/-- Carrying out one verdict, the participants agree. -/
theorem Refines.agreement (hr : Refines g c s v) (hv : v.Sound) : Agreement g s := by
  intro p q _ hp hq hbad
  have hended : (s.party q).pc = .ended := by
    by_contra hne
    rcases hbad with hrolled | ⟨hpc, _⟩
    · rw [(hr.parties q).not_rolledBack hne] at hrolled
      cases hrolled
    · exact hne hpc
  rcases hr.settled q (Or.inl hq) hended with hfailed | ⟨hcommitted, hnot⟩
  · cases hv.agree (hr.commits p hp) hfailed
  · rcases hbad with hrolled | ⟨_, hno⟩
    · rw [hnot] at hrolled
      cases hrolled
    · rw [hcommitted] at hno
      cases hno

theorem refines_init (g c : String) : Refines g c (Commitment.init g c) {} where
  toTidy := tidy_init g c
  decided := ((wellFormed_init g c c).unset (Or.inl (idle_init g c c))).symm
  commits := by
    intro k hk
    rw [(wellFormed_init g c k).not_committed (by rw [idle_init]; simp)] at hk
    cases hk
  settled := by
    intro k _ hended
    rw [idle_init] at hended
    cases hended

/-- Nobody moves, and no more joins are underway. -/
theorem Refines.of_party_eq (hr : Refines g c s v) (ht : Tidy g c t) (hparty : t.party = s.party)
    (hunderway : ∀ k, JoinUnderway g t k → JoinUnderway g s k) : Refines g c t v where
  toTidy := ht
  decided := by rw [hr.decided, decision, decision, hparty]
  commits := by rw [hparty]; exact hr.commits
  settled := by rw [hparty]; exact fun k hu => hr.settled k (hunderway k hu)

theorem refines_take {packet : Packet} (hr : Refines g c s v) (h : s.take packet = some t) :
    Refines g c t v :=
  hr.of_party_eq (tidy_take hr.toTidy h) (party_take h) fun _ => joinUnderway_take h

theorem refines_handle {k : String} {n now : Nat} {message : Message} {ev : Event}
    (hr : Refines g c s v) (htake : s.take (.request k n message) = some t)
    (hev : requested message k now = some ev) : Refines g c (t.handle n ev) v :=
  hr.of_party_eq (tidy_handle hr.toTidy htake hev)
    ((handle_party n ev).trans (party_take htake))
    fun _ => joinUnderway_handle hr.toTidy htake hev

/-! ## A step of a participant -/

section Move

variable {k : String} {next : Participant.Next}

/-- The participant `k` takes a step, and the verdict moves along at `k` only. -/
theorem refines_move (hr : Refines g c s v)
    (hs : Participant.Sound g (k = c) (s.party k) next)
    (hdecided : w.decision = decision c (s.move applicationName k next))
    (hothers : ∀ k', k' ≠ k → w.outcome k' = v.outcome k')
    (hcommit : next.1.committed = true → w.outcome k = some true)
    (hend : next.1.pc = .ended → JoinUnderway g s k → w.outcome k = some false
      ∨ next.1.committed = true ∧ next.1.rolledBack = false) :
    Refines g c (s.move applicationName k next) w := by
  obtain ⟨n, hself⟩ := move_self applicationName s k next
  refine ⟨tidy_move hr.toTidy hs, hdecided, fun k' hcommitted => ?_, fun k' hu hended => ?_⟩
  · by_cases hk : k' = k
    · subst hk
      rw [hself] at hcommitted
      exact hcommit hcommitted
    · rw [move_of_ne hk] at hcommitted
      rw [hothers k' hk]
      exact hr.commits k' hcommitted
  · by_cases hk : k' = k
    · subst hk
      rw [hself] at hended ⊢
      rcases joinUnderway_move hu with hold | ⟨_, message, hnext⟩
      · exact hend hended hold
      · -- who has just sent a request has not ended
        exact absurd hended (hs.sends message hnext).1
    · rw [move_of_ne hk] at hended ⊢
      rw [hothers k' hk]
      rcases joinUnderway_move hu with hold | ⟨heq, _⟩
      · exact hr.settled k' hold hended
      · exact absurd heq hk

/-- The verdict follows the decision of the creator. -/
theorem exec_decided (applicationName : String → Option String) (hr : Refines g c s v)
    (hs : Participant.Sound g (k = c) (s.party k) next) : ∃ ms w, exec Verdict.step v ms = some w
      ∧ w.decision = decision c (s.move applicationName k next) ∧ w.outcome = v.outcome := by
  cases hold : decision c s with
  | some d => exact ⟨[], v, rfl, by rw [hr.decided, hold, decision_move hs hold], rfl⟩
  | none =>
      have hnone : v.decision = none := hr.decided.trans hold
      cases hnew : decision c (s.move applicationName k next) with
      | none => exact ⟨[], v, rfl, hnone, rfl⟩
      | some d =>
          exact ⟨[.decide d], { v with decision := some d },
            (exec_singleton v _).trans (Verdict.step_decide hnone), rfl, rfl⟩

/--
The participant `k` takes a step. It remains to be said, should it end with that
step, that it may have committed, and that it did if it had to.
-/
theorem answered_move (hr : Refines g c s v)
    (hs : Participant.Sound g (k = c) (s.party k) next)
    (hcommit : next.1.committed = true →
      decision c (s.move applicationName k next) = some true)
    (hend : next.1.pc = .ended → JoinUnderway g s k → decision c s = some false
      ∨ next.1.committed = true ∧ next.1.rolledBack = false) :
    Answered Verdict.step (Refines g c) v (s.move applicationName k next) := by
  obtain ⟨ms, w, hms, hdecided, hout⟩ := exec_decided applicationName hr hs
  have hothers : ∀ k', k' ≠ k → w.outcome k' = v.outcome k' := fun k' _ => congrFun hout k'
  by_cases hdone : next.1.pc = .ended
  · cases hd : decision c (s.move applicationName k next) with
    | none =>
        -- nothing is decided, so nothing can have been required or done
        refine ⟨ms, w, hms, refines_move hr hs hdecided hothers (fun hc => ?_) (fun _ hu => ?_)⟩
        · rw [hcommit hc] at hd
          cases hd
        · rcases hend hdone hu with hfailed | hdid
          · rw [decision_move hs hfailed] at hd
            cases hd
          · exact Or.inr hdid
    | some d =>
        -- `k` carries out what is decided
        have hstep := Verdict.step_carryOut (p := k) (hdecided.trans hd)
        refine ⟨ms ++ [.carryOut k],
          { w with outcome := Function.update w.outcome k (some d) },
          exec_append_some.mpr ⟨w, hms, (exec_singleton w _).trans hstep⟩,
          refines_move hr hs hdecided (fun k' hk => ?_) (fun hc => ?_) (fun _ hu => ?_)⟩
        · exact (Function.update_of_ne hk ..).trans (hothers k' hk)
        · rw [hcommit hc] at hd
          cases hd
          exact Function.update_self ..
        · refine (hend hdone hu).imp_left fun hfailed => ?_
          rw [decision_move hs hfailed] at hd
          cases hd
          exact Function.update_self ..
  · refine ⟨ms, w, hms, refines_move hr hs hdecided hothers (fun hc => ?_)
      (fun hended => absurd hended hdone)⟩
    rw [hs.wellFormed.not_committed hdone] at hc
    cases hc

/-- A participant that has not ended has neither committed nor has to. -/
theorem answered_move_on (hr : Refines g c s v)
    (hs : Participant.Sound g (k = c) (s.party k) next) (hpc : next.1.pc ≠ .ended) :
    Answered Verdict.step (Refines g c) v (s.move applicationName k next) := by
  refine answered_move hr hs (fun hc => ?_) (fun hended => absurd hended hpc)
  rw [hs.wellFormed.not_committed hpc] at hc
  cases hc

/-- The result of a request, in time or not. -/
theorem answered_resume {succeeds : RawCall → Bool} {res : Option Message}
    (hr : Refines g c s v) (h : (s.party k).resume succeeds res = some next)
    (hjoin : (s.party k).pc = .joining → res = none ∨ (s.party k).jdbcTransaction = false →
      JoinUnderway g s k → decision c s = some false) :
    Answered Verdict.step (Refines g c) v (s.move applicationName k next) := by
  have hs := Participant.sound_resume (hr.parties k) h
  refine answered_move hr hs (fun hc => ?_) (fun hended hu => Or.inl ?_)
  · obtain ⟨rfl, hsuccess⟩ := Participant.resume_committed (hr.parties k) h hc
    exact decision_move hs hsuccess
  · rcases Participant.resume_ended (hr.parties k) h hended with hk | ⟨hpc, hnone⟩
    · exact absurd hk (hr.underway_ne hu)
    · exact hjoin hpc hnone hu

/-- A joiner that was given the decision `event` has carried it out, if it could. -/
theorem answered_decided {event : TransactionCommitEvent} {succeeds : RawCall → Bool}
    (hr : Refines g c s v) (hpc : (s.party k).pc = .waiting)
    (hd : decision c s = some event.commit)
    (hable : event.commit = true → JoinUnderway g s k → (s.party k).connection.isSome = true
      ∧ succeeds .delete = true ∧ succeeds .commit = true) :
    Answered Verdict.step (Refines g c) v
      (s.move applicationName k ((s.party k).decided succeeds (some event), none)) := by
  have hne : (s.party k).pc ≠ .ended := by rw [hpc]; simp
  have hs := Participant.sound_decided (hr.parties k) succeeds (some event)
  have hcommitted := Participant.committed_commit (hr.parties k) hne succeeds event.commit
  have hrolled := Participant.rolledBack_commit (hr.parties k) hne succeeds event.commit
  refine answered_move hr hs (fun hc => ?_) (fun _ hu => ?_)
  · have htrue := hcommitted.symm.trans hc
    simp only [Bool.and_eq_true] at htrue
    exact decision_move hs (by rw [hd, htrue.1.1.1])
  · cases hcommit : event.commit with
    | false => exact Or.inl (by rw [hd, hcommit])
    | true =>
        obtain ⟨hsome, hdelete, hraw⟩ := hable hcommit hu
        refine Or.inr ⟨hcommitted.trans ?_, hrolled.trans ?_⟩
        · rw [hcommit, hsome, hdelete, hraw]; rfl
        · rw [hcommit]; rfl

end Move

/-! ## The whole system -/

/-- **In timely steps the participants refine one verdict.** -/
theorem refines_step (g c : String) (applicationName : String → Option String) :
    Simulates (step applicationName) (Timely g c) Verdict.step (Refines g c) := by
  intro s a t v hr hc h
  cases a with
  | tryBegin k =>
      simp only [step] at h
      split at h
      · rename_i hpc
        cases h
        refine answered_move_on hr (Participant.sound_tryBeginTransaction (hr.parties k) hpc) ?_
        unfold Participant.tryBeginTransaction
        split <;> simp
      · cases h
  | tryEnd k success capture =>
      simp only [step] at h
      split at h
      · rename_i hpc
        cases h
        exact answered_move_on hr
          (Participant.sound_endBusiness (hr.parties k) hpc success capture)
          (Participant.endBusiness_pc (hr.parties k) success capture)
      · cases h
  | handle k n message now =>
      obtain ⟨s', htake, h⟩ := Option.bind_eq_some_iff.mp h
      obtain ⟨ev, hev, h⟩ := Option.bind_eq_some_iff.mp h
      cases h
      exact answered_of_related (refines_handle hr htake hev)
  | answer k message succeeds =>
      obtain ⟨s', htake, h⟩ := Option.bind_eq_some_iff.mp h
      obtain ⟨next, hnext, h⟩ := Option.bind_eq_some_iff.mp h
      cases h
      refine answered_resume (refines_take hr htake) hnext fun hpc hres hu => ?_
      rw [decision_take htake]
      rw [party_take htake] at hpc hres
      have hunbound : (s.party k).jdbcTransaction = false := hres.resolve_left (by simp)
      refine hc.resolve_right fun htimely => ?_
      rw [htimely hpc (joinUnderway_take htake hu)] at hunbound
      cases hunbound
  | expire k succeeds =>
      obtain ⟨next, hnext, h⟩ := Option.bind_eq_some_iff.mp h
      cases h
      refine answered_resume hr hnext fun hpc _ hu => ?_
      exact hc.resolve_right fun htimely => htimely hpc hu
  | decide k event succeeds =>
      simp only [step] at h
      split at h
      · rename_i hpc
        obtain ⟨s', htake, h⟩ := Option.bind_eq_some_iff.mp h
        cases h
        -- the event says what is decided
        have hd : decision c s = some event.commit := hr.packets _ (take_some htake).1
        refine answered_decided (refines_take hr htake) (by rw [party_take htake]; exact hpc)
          ((decision_take htake).trans hd) fun hcommit hu => ?_
        rw [party_take htake]
        rcases hc with hfailed | htimely
        · rw [hd, hcommit] at hfailed
          cases hfailed
        · exact htimely (joinUnderway_take htake hu)
      · cases h
  | giveUp k =>
      simp only [step] at h
      split at h
      · rename_i hpc
        cases h
        have hne : (s.party k).pc ≠ .ended := by rw [hpc]; simp
        have hno : (s.party k).committed = false := (hr.parties k).not_committed hne
        refine answered_move hr (Participant.sound_decided (hr.parties k) (fun _ => true) none)
          (fun hcommitted => ?_)
          (fun _ hu => Or.inl (hc.resolve_right fun htimely => htimely hu))
        exact absurd (hno.symm.trans hcommitted) (by simp)
      · cases h
  | lose packet => exact answered_of_related (refines_take hr h)

/-- The names of their modules. -/
def moduleNames (k : String) : Option String := if k = "c" then some "client" else some "server"

def asSent (k : String) (message : Message) : Message :=
  TxManagerReporter.prepare (moduleNames k) "" message

/-- The reply of the TM. -/
def asAnswered (k : String) (message : Message) : Message :=
  match asSent k message with
  | .create event => .create { event with result := some "ok" }
  | .join event => .join { event with result := some "ok" }
  | .notify event => .notify { event with result := some "ok" }
  | message => message

/-- Nothing fails on a raw connection. -/
def noFailure : RawCall → Bool := fun _ => true

/-- The creator "c" creates the group, "j" joins it, the creator notifies its success. -/
def untilNotified : List Action :=
  [.tryBegin "c", .handle "c" 1 (asSent "c" (.create (.new (some "g")))) 0,
    .answer "c" (asAnswered "c" (.create (.new (some "g")))) noFailure,
    .tryBegin "j", .tryEnd "j" true .captured,
    .handle "j" 1 (asSent "j" (.join (.new (some "g")))) 1,
    .answer "j" (asAnswered "j" (.join (.new (some "g")))) noFailure,
    .tryEnd "c" true .captured, .handle "c" 2 (asSent "c" (.notify (.new (some "g") true))) 2]

end TxLcn.Proof
