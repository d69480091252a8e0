import TxLcn.Proof.CrashPoints
import TxLcn.Proof.CutOff
import TxLcn.Proof.FaultFree
import TxLcn.Tc.Databases

/-!
# What the databases keep of a group

The protocol is about calls on raw connections; what counts is what the databases
hold in the end. `durable_iff_committed` says that the two agree at every moment
of every run, whatever is lost: of what a business has left uncommitted its
database holds all if its connection has been committed, and nothing otherwise.

So what the protocol guarantees holds of the databases. If nothing gets lost, and
replies and decisions are handed to those who wait for them, the changes of a group
are durable everywhere or nowhere. With the lock keys of the code they are not
handed over, and nobody gets to the end of such a run.
-/

namespace TxLcn.Proof

open TxLcn.Lib TxLcn.Protocol TxLcn.Tm TxLcn.Tc

variable {β : Type} {g c k : String} {p q : Participant} {next : Participant.Next}
  {creator : Prop} {applicationName : String → Option String}

/-! ## What a step does to the connection -/

/-- A participant passes on with its connection as it is. -/
def Passes : ParticipantPc → ParticipantPc → Prop
  | .idle, .creating => True
  | .idle, .business => True
  | .creating, .business => True
  | .creating, .notifying => True
  | .notifying, .notifying => True
  | .joining, .waiting => True
  | .joining, .ended => True
  | .waiting, .ended => True
  | _, _ => False

/-- A step other than the end of the business, by what it does to the connection. -/
inductive Touches (p : Participant) : Participant.Next → Prop where
  | passes (next : Participant.Next) (hpc : Passes p.pc next.1.pc)
      (hconnection : next.1.connection = p.connection) : Touches p next
  | carriesOut (succeeds : RawCall → Bool) (d : Bool) (next : Participant.Next)
      (hpc : p.pc = .notifying ∨ p.pc = .joining ∨ p.pc = .waiting) (hended : next.1.pc = .ended)
      (hconnection : next.1.connection = (p.commit succeeds d).connection) : Touches p next

theorem touches_tryBegin (hpc : p.pc = .idle) : Touches p p.tryBeginTransaction := by
  unfold Participant.tryBeginTransaction
  split
  · exact .passes _ (by rw [hpc]; trivial) rfl
  · exact .passes _ (by rw [hpc]; trivial) rfl

theorem touches_resume (hp : Answerable g creator p) {succeeds : RawCall → Bool}
    {res : Option Message} (h : p.resume succeeds res = some next) : Touches p next := by
  have hcreated : ∀ res, p.pc = .creating → Touches p (p.created res) := by
    intro res hpc
    cases res with
    | none =>
        -- the create step has failed, and with it the transaction
        have hcreator : creator := hp.creator_pc (Or.inl hpc)
        refine .passes _ ?_ ?_ <;>
          rcases hp.creator_state hcreator with hstate | hstate <;>
          simp [Participant.created, Participant.tryEndTransaction, Participant.setSuccessReturn,
            Participant.setTransactionState, hstate, hpc, Passes]
    | some res => exact .passes _ (by rw [hpc]; trivial) rfl
  have hnotified : ∀ res, p.pc = .notifying → p.notified succeeds res = some next →
      Touches p next := by
    intro res hpc hnext
    unfold Participant.notified at hnext
    split at hnext
    · cases hnext
    · split at hnext
      · cases hnext
        exact .passes _ (by rw [hpc]; trivial) rfl
      · cases hnext
        exact .carriesOut succeeds _ _ (Or.inl hpc) (Participant.commit_pc _) rfl
  have hjoined : ∀ res, p.pc = .joining → Touches p (p.joined succeeds res) := by
    intro res hpc
    cases res with
    | none =>
        exact .carriesOut succeeds false _ (Or.inr (Or.inl hpc)) (Participant.commit_pc _) rfl
    | some res =>
        unfold Participant.joined
        dsimp only
        split <;> exact .passes _ (by rw [hpc]; trivial) rfl
  unfold Participant.resume at h
  split at h
  · rename_i hpc; cases h; exact hcreated _ hpc
  · rename_i hpc; cases h; exact hcreated _ hpc
  · rename_i hpc; exact hnotified _ hpc h
  · rename_i hpc; exact hnotified _ hpc h
  · rename_i hpc; cases h; exact hjoined _ hpc
  · rename_i hpc; cases h; exact hjoined _ hpc
  · cases h

theorem Alone.touches (hp : Answerable g creator p) (h : Alone p next)
    (hpc : p.pc ≠ .business) : Touches p next := by
  cases h with
  | begins hidle => exact touches_tryBegin hidle
  | ends success capture hbusiness => exact absurd hbusiness hpc
  | expires succeeds _ hnext => exact touches_resume hp hnext
  | givesUp hwaiting => exact .passes _ (by rw [hwaiting]; trivial) rfl

theorem GotPacket.touches (hp : Answerable g creator p) (h : GotPacket p next) :
    Touches p next := by
  cases h with
  | answered succeeds message _ hnext => exact touches_resume hp hnext
  | decided succeeds event hpc =>
      exact .carriesOut succeeds event.commit _ (Or.inr (Or.inr hpc)) (Participant.commit_pc _) rfl

/-- Who is in its business only ends it. -/
theorem tryEnd_of_business {s t : Commitment} {a : Action} (hpc : (s.party k).pc = .business)
    (hown : OnItsOwn k a = true) (h : s.step applicationName a = some t) :
    ∃ success capture, a = .tryEnd k success capture := by
  cases a with
  | tryEnd k' success capture =>
      obtain rfl : k' = k := by simpa [OnItsOwn] using hown
      exact ⟨success, capture, rfl⟩
  | tryBegin k' =>
      obtain rfl : k' = k := by simpa [OnItsOwn] using hown
      simp [Commitment.step, hpc] at h
  | expire k' succeeds =>
      obtain rfl : k' = k := by simpa [OnItsOwn] using hown
      simp [Commitment.step, Participant.resume, hpc] at h
  | giveUp k' =>
      obtain rfl : k' = k := by simpa [OnItsOwn] using hown
      simp [Commitment.step, hpc] at h
  | handle | answer | decide | lose => cases hown

/-! ## A participant and its database -/

/-- The business is not over. -/
def Early (pc : ParticipantPc) : Prop := pc = .idle ∨ pc = .creating ∨ pc = .business

/-- How a participant and its database hang together. -/
structure Behind (p : Participant) (d : Proxied β) (pending : List β) : Prop where
  clean : d.session.Clean
  early : Early p.pc → p.connection = none
  fresh : p.pc = .idle ∨ p.pc = .creating → d.captured = false
  isOpen : p.pc ≠ .ended → d.session.closed = false
  held : p.pc ≠ .ended → p.connection ≠ none → pending = Written.changes d.session.uncommitted
  kept : ¬ Early p.pc → p.connection.isSome = d.captured
  durable : Written.changes d.session.durable = if p.committed then pending else []

variable {d : Proxied β} {pending : List β}

theorem Behind.attempt (h : Behind p d pending) (n : Nat) :
    Behind { p with attempt := n } d pending :=
  ⟨h.clean, h.early, h.fresh, h.isOpen, h.held, h.kept, h.durable⟩

/-- No call, no change. -/
theorem Behind.receive_nil (h : Behind p d pending) : Behind p (d.receive []) pending :=
  ⟨h.clean, h.early, h.fresh, h.isOpen, h.held, h.kept, h.durable⟩

theorem behind_init (groupId : String) (transactionState : Tc.TransactionState)
    (hpc : p.pc = .idle) (hconnection : p.connection = none) :
    Behind p (Proxied.init groupId transactionState : Proxied β) [] where
  clean _ := rfl
  early _ := hconnection
  fresh _ := rfl
  isOpen _ := rfl
  held _ hne := absurd hconnection hne
  kept hlate := absurd (Or.inl hpc) hlate
  durable := by
    rw [ite_self]
    rfl

theorem committed_congr (h : q.connection = p.connection) : q.committed = p.committed := by
  unfold Participant.committed
  rw [h]

theorem rawCalls_congr (h : q.connection = p.connection) : q.rawCalls = p.rawCalls := by
  unfold Participant.rawCalls
  rw [h]

/-- The business of the participant uses the connection. -/
theorem Behind.use {e : Proxied.Event β} {d' : Proxied β} (h : Behind p d pending)
    (hpc : p.pc = .business) (hC : TakenAway d e)
    (hne : ∀ state succeeds, e ≠ .decide state succeeds) (hstep : d.step e = some d') :
    Behind p d' pending := by
  obtain ⟨hclean, hchanges, _, hopen⟩ := changes_step h.clean hC hstep hne
  have hnone : p.connection = none := h.early (Or.inr (Or.inr hpc))
  exact
    { clean := hclean
      early := h.early
      fresh := by simp [hpc]
      isOpen := fun hended => hopen (h.isOpen hended)
      held := fun _ hsome => absurd hnone hsome
      kept := fun hlate => absurd (Or.inr (Or.inr hpc)) hlate
      durable := hchanges.trans h.durable }

theorem connection_endBusiness (p : Participant) (success : Bool) (capture : Capture) :
    (p.endBusiness success capture).1.connection = capture.connection := by
  simp only [Participant.endBusiness, Participant.tryEndTransaction,
    Participant.setSuccessReturn, Participant.setTransactionState]
  split <;> rfl

theorem rawCalls_endBusiness (p : Participant) (success : Bool) (capture : Capture) :
    (p.endBusiness success capture).1.rawCalls = [] := by
  unfold Participant.rawCalls
  rw [connection_endBusiness]
  cases capture <;> rfl

/-- The business ends. What is uncommitted now is what there is to decide about. -/
theorem Behind.endBusiness (hp : p.WellFormed g creator) (h : Behind p d pending)
    (hpc : p.pc = .business) (success : Bool) : Behind (p.endBusiness success d.atEnd).1 d
      (Written.changes d.session.uncommitted) := by
  have hconnection := connection_endBusiness p success d.atEnd
  have hlate : (p.endBusiness success d.atEnd).1.pc = .notifying
      ∨ (p.endBusiness success d.atEnd).1.pc = .joining := by
    by_cases hcreator : creator
    · obtain ⟨q, hq, hqpc, _⟩ := ends_creator hp hcreator success d.atEnd
      exact Or.inl (by rw [hq]; exact hqpc)
    · obtain ⟨q, hq, hqpc, _⟩ := ends_joiner hp hcreator success d.atEnd
      exact Or.inr (by rw [hq]; exact hqpc)
  have hnot : (p.endBusiness success d.atEnd).1.committed = false := by
    unfold Participant.committed
    rw [hconnection]
    cases d.atEnd <;> rfl
  have hbefore : Written.changes d.session.durable = [] := by
    rw [h.durable, hp.not_committed (by simp [hpc])]
    rfl
  generalize (p.endBusiness success d.atEnd).1 = q at hconnection hlate hnot
  exact
    { clean := h.clean
      early := by rcases hlate with hq | hq <;> simp [Early, hq]
      fresh := by rcases hlate with hq | hq <;> simp [hq]
      isOpen := fun _ => h.isOpen (by simp [hpc])
      held := fun _ _ => rfl
      kept := by
        intro _
        rw [hconnection, Proxied.isSome_connection_atEnd]
      durable := by
        rw [hbefore, hnot]
        rfl }

theorem Passes.early {x y : ParticipantPc} (h : Passes x y) (hy : Early y) : Early x := by
  cases x <;> cases y <;> simp_all [Passes, Early]

theorem Passes.fresh {x y : ParticipantPc} (h : Passes x y) (hy : y = .idle ∨ y = .creating) :
    x = .idle ∨ x = .creating := by
  cases x <;> cases y <;> simp_all [Passes]

theorem Passes.late {x y : ParticipantPc} (h : Passes x y) (hy : ¬ Early y) :
    ¬ Early x ∨ x = .creating := by
  cases x <;> cases y <;> simp_all [Passes, Early]

theorem Passes.ne_ended {x y : ParticipantPc} (h : Passes x y) : x ≠ .ended := by
  rintro rfl
  cases y <;> exact h

theorem Behind.passes (h : Behind p d pending) (hpass : Passes p.pc q.pc)
    (hconnection : q.connection = p.connection) : Behind q d pending where
  clean := h.clean
  early hq := hconnection.trans (h.early (hpass.early hq))
  fresh hq := h.fresh (hpass.fresh hq)
  isOpen _ := h.isOpen hpass.ne_ended
  held _ hsome := h.held hpass.ne_ended (hconnection ▸ hsome)
  kept := by
    intro hq
    rw [hconnection]
    rcases hpass.late hq with hlate | hcreating
    · exact h.kept hlate
    · -- the group could not be created, and the business has not been run
      rw [h.early (Or.inr (Or.inl hcreating)), h.fresh (Or.inr hcreating)]
      rfl
  durable := by
    rw [committed_congr hconnection]
    exact h.durable

/-- A decision is carried out, on the connection if there is one. -/
theorem Behind.carriesOut {succeeds : RawCall → Bool} {state : Bool}
    (hp : p.WellFormed g creator) (h : Behind p d pending)
    (hpc : p.pc = .notifying ∨ p.pc = .joining ∨ p.pc = .waiting) (hended : q.pc = .ended)
    (hconnection : q.connection = (p.commit succeeds state).connection) :
    Behind q (d.receive (q.rawCalls.drop p.rawCalls.length)) pending := by
  have hne : p.pc ≠ .ended := by rcases hpc with hq | hq | hq <;> simp [hq]
  have hlate : ¬ Early p.pc := by rcases hpc with hq | hq | hq <;> simp [Early, hq]
  have hbefore : Written.changes d.session.durable = [] := by
    rw [h.durable, hp.not_committed hne]
    rfl
  have hcommitted : q.committed
      = (state && p.connection.isSome && succeeds .delete && succeeds .commit) := by
    rw [committed_congr hconnection, Participant.committed_commit hp hne]
  have hsome : q.connection.isSome = p.connection.isSome := by
    rw [hconnection, isSome_connection_commit]
  refine
    { clean := clean_foldl_called h.clean
      early := by simp [Early, hended]
      fresh := by simp [hended]
      isOpen := fun hq => absurd hended hq
      held := fun hq => absurd hended hq
      kept := fun _ => hsome.trans (h.kept hlate)
      durable := ?_ }
  cases hthere : p.connection with
  | none =>
      have hcalls : q.rawCalls = p.rawCalls := by
        refine rawCalls_congr ?_
        rw [hconnection]
        simp [Participant.commit, LcnCommitor.commit, hthere]
      rw [hcommitted, hthere, hcalls, List.drop_length]
      show Written.changes d.session.durable = _
      rw [hbefore]
      simp
  | some connection =>
      have huntouched : connection.calls = [] := hp.untouched hne connection hthere
      have hp_calls : p.rawCalls = [] := by
        unfold Participant.rawCalls
        rw [hthere]
        exact huntouched
      have hq_calls : q.rawCalls = LcnCommitor.calls succeeds state := by
        have hq : q.connection = some { calls := LcnCommitor.calls succeeds state } := by
          rw [hconnection]
          simp [Participant.commit, hthere, LcnCommitor.commit_some, huntouched]
        unfold Participant.rawCalls
        rw [hq]
      have hpending : pending = Written.changes d.session.uncommitted :=
        h.held hne (by rw [hthere]; simp)
      rw [hcommitted, hthere, hp_calls, hq_calls, hpending]
      show Written.changes ((LcnCommitor.calls succeeds state).foldl (Proxied.called d.logIds)
        d.session).durable = _
      rw [changes_calls state succeeds (h.isOpen hne), hbefore]
      simp

/-! ## A run -/

open Databases

variable {s t : Databases β} {e : Event β}

/-- A statement of a business that changes something finds the auto-commit flag taken away. -/
def Withheld (s : Databases β) : Event β → Prop
  | .use k event => TakenAway (s.database k) event
  | .act _ => True

/-- Everybody is in order, and so is its database. -/
def AllBehind (g c : String) (s : Databases β) : Prop :=
  ∀ k, Answerable g (k = c) (s.group.party k)
    ∧ Behind (s.group.party k) (s.database k) (s.pending k)

theorem allBehind_init (g c : String) : AllBehind g c (Databases.init g c : Databases β) := by
  intro k
  refine ⟨answerable_init g c k, behind_init g _ (idle_init g c k) ?_⟩
  unfold Databases.init Commitment.init
  dsimp only
  split <;> rfl

/-- The businesses use their connections. -/
theorem use_cases {event : Proxied.Event β} (h : s.use k event = some t) :
    (s.group.party k).pc = .business ∧ (∀ state succeeds, event ≠ .decide state succeeds)
      ∧ ∃ d, (s.database k).step event = some d
        ∧ t = { s with database := Function.update s.database k d } := by
  unfold use at h
  split at h
  · cases h
  · rename_i hpc hne
    obtain ⟨d, hd, h⟩ := Option.bind_eq_some_iff.mp h
    cases h
    exact ⟨hpc, fun state succeeds he => hne state succeeds he, d, hd, rfl⟩
  · cases h

/-- What a step of the group does to a participant and its database. -/
theorem behind_follow {group : Commitment} {a : Action} (hs : AllBehind g c s)
    (hstep : s.group.step applicationName a = some group)
    (hbusiness : OnItsOwn k a = true → (s.group.party k).pc ≠ .business) :
    Behind (group.party k) ((s.follow group).database k) (s.pending k) := by
  obtain ⟨hp, hb⟩ := hs k
  have htouches : ∀ next n, Touches (s.group.party k) next →
      group.party k = { next.1 with attempt := n } →
      Behind (group.party k) ((s.follow group).database k) (s.pending k) := by
    intro next n hnext hself
    have hcalls : (group.party k).rawCalls = next.1.rawCalls := by
      rw [hself]
      rfl
    show Behind (group.party k) ((s.database k).receive
      ((group.party k).rawCalls.drop (s.group.party k).rawCalls.length)) (s.pending k)
    rw [hcalls, hself]
    refine Behind.attempt ?_ n
    cases hnext with
    | passes next hpc hconnection =>
        rw [rawCalls_congr hconnection, List.drop_length]
        exact (hb.passes hpc hconnection).receive_nil
    | carriesOut succeeds state next hpc hended hconnection =>
        exact hb.carriesOut hp.toWellFormed hpc hended hconnection
  rcases step_party hstep k with ⟨_, hsame⟩ | ⟨hown, next, n, hnext, hself⟩ |
    ⟨_, next, n, hnext, hself⟩
  · show Behind (group.party k) ((s.database k).receive
      ((group.party k).rawCalls.drop (s.group.party k).rawCalls.length)) (s.pending k)
    rw [hsame, List.drop_length]
    exact hb.receive_nil
  · exact htouches next n (hnext.touches hp (hbusiness hown)) hself
  · exact htouches next n (hnext.touches hp) hself

theorem act_cases {a : Action} (h : step applicationName s (.act a) = some t) :
    ∃ group, s.group.step applicationName a = some group
      ∧ ((∃ k success, a = .tryEnd k success (s.database k).atEnd
          ∧ t = { s.follow group with
              pending := Function.update s.pending k
                (Written.changes (s.database k).session.uncommitted) })
        ∨ ((∀ k success capture, a ≠ .tryEnd k success capture) ∧ t = s.follow group)) := by
  cases a with
  | tryEnd k success capture =>
      simp only [step] at h
      split at h
      · rename_i hcapture
        obtain ⟨group, hgroup, h⟩ := Option.bind_eq_some_iff.mp h
        cases h
        subst hcapture
        exact ⟨group, hgroup, Or.inl ⟨k, success, rfl, rfl⟩⟩
      · cases h
  | tryBegin | handle | answer | expire | decide | giveUp | lose =>
      obtain ⟨group, hgroup, h⟩ := Option.bind_eq_some_iff.mp h
      cases h
      exact ⟨group, hgroup, Or.inr ⟨by simp, rfl⟩⟩

/-- The business of `k` ends, and nothing is called on its connection by that. -/
theorem behind_tryEnd {group : Commitment} {success : Bool} (hs : AllBehind g c s)
    (hstep : s.group.step applicationName (.tryEnd k success (s.database k).atEnd)
      = some group) :
    Behind (group.party k) ((s.follow group).database k)
      (Written.changes (s.database k).session.uncommitted) := by
  obtain ⟨hp, hb⟩ := hs k
  simp only [Commitment.step] at hstep
  split at hstep
  · rename_i hpc
    cases hstep
    obtain ⟨n, hself⟩ := Commitment.move_self applicationName s.group k
      ((s.group.party k).endBusiness success (s.database k).atEnd)
    have hcalls : ((s.group.move applicationName k ((s.group.party k).endBusiness success
        (s.database k).atEnd)).party k).rawCalls = [] := by
      rw [hself]
      exact rawCalls_endBusiness _ success _
    show Behind _ ((s.database k).receive (List.drop _ _)) _
    rw [hcalls, List.drop_nil, hself]
    exact ((hb.endBusiness hp.toWellFormed hpc success).attempt n).receive_nil
  · cases hstep

/-- **Every step keeps every participant and its database together.** -/
theorem allBehind_step (hs : AllBehind g c s) (hC : Withheld s e)
    (h : step applicationName s e = some t) : AllBehind g c t := by
  cases e with
  | use k event =>
      obtain ⟨hpc, hne, d, hd, rfl⟩ := use_cases h
      intro k'
      refine ⟨(hs k').1, ?_⟩
      by_cases hk : k' = k
      · subst hk
        show Behind _ (Function.update s.database k' d k') _
        rw [Function.update_self]
        exact (hs k').2.use hpc hC hne hd
      · show Behind _ (Function.update s.database k d k') _
        rw [Function.update_of_ne hk]
        exact (hs k').2
  | act a =>
      obtain ⟨group, hgroup, hwhich⟩ := act_cases h
      intro k'
      have hp' : Answerable g (k' = c) (group.party k') := answerable_step (hs k').1 hgroup
      rcases hwhich with ⟨k, success, rfl, rfl⟩ | ⟨hne, rfl⟩
      · refine ⟨hp', ?_⟩
        by_cases hk : k' = k
        · subst hk
          show Behind _ _ (Function.update s.pending k' _ k')
          rw [Function.update_self]
          exact behind_tryEnd hs hgroup
        · show Behind _ _ (Function.update s.pending k _ k')
          rw [Function.update_of_ne hk]
          exact behind_follow hs hgroup (by simp [OnItsOwn, Ne.symm hk])
      · refine ⟨hp', behind_follow hs hgroup fun hown hpc => ?_⟩
        obtain ⟨success, capture, heq⟩ := tryEnd_of_business hpc hown hgroup
        exact hne k' success capture heq

/--
**The databases hold what has been committed.** In every run in which each statement
that changes something finds the auto-commit flag taken away, whatever gets lost and
whatever fails: of what the business of a participant has left uncommitted its database
holds all if its connection has been committed, and nothing otherwise.
-/
theorem durable_iff_committed (g c : String) (applicationName : String → Option String)
    (es : List (Event β))
    (hC : AllSteps (step applicationName) Withheld (Databases.init g c) es)
    (hrun : exec (step applicationName) (Databases.init g c) es = some t) (k : String) :
    Written.changes (t.database k).session.durable
      = if (t.group.party k).committed then t.pending k else [] := by
  have hs : AllBehind g c t := exec_invariant_of_allSteps
    (fun _ _ _ hs hC hstep => allBehind_step hs hC hstep) (allBehind_init g c) hC hrun
  exact (hs k).2.durable

/-- Both businesses change something, succeed and are captured; `last` is up to `j`. -/
def bothChange (last : Action) : List (Event Nat) :=
  [.act (.tryBegin "c"), .act (.handle "c" 1 (asSent "c" (.create (.new (some "g")))) 0),
    .act (.answer "c" (asAnswered "c" (.create (.new (some "g")))) noFailure),
    .use "c" (.setAutoCommit false), .use "c" (.execute (recording 1)), .use "c" (.commit 1),
    .act (.tryBegin "j"),
    .use "j" (.setAutoCommit false), .use "j" (.execute (recording 2)), .use "j" (.commit 1),
    .act (.tryEnd "j" true .captured),
    .act (.handle "j" 1 (asSent "j" (.join (.new (some "g")))) 1),
    .act (.answer "j" (asAnswered "j" (.join (.new (some "g")))) noFailure),
    .act (.tryEnd "c" true .captured),
    .act (.handle "c" 2 (asSent "c" (.notify (.new (some "g") true))) 2), .act last,
    .act (.answer "c" (asAnswered "c" (.notify (.new (some "g") true))) noFailure)]

/-- The decision does not reach `j` in time. -/
theorem durable_of_creator_only : ∃ t,
    exec (step moduleNames) (Databases.init "g" "c") (bothChange (.giveUp "j")) = some t
      ∧ Written.changes (t.database "c").session.durable = [0]
      ∧ Written.changes (t.database "j").session.durable = [] := by
  have hrun : exec (step moduleNames) (Databases.init "g" "c") (bothChange (.giveUp "j"))
      = some _ := rfl
  have hdurable := durable_iff_committed "g" "c" moduleNames (bothChange (.giveUp "j")) (by
    repeat refine (allSteps_cons rfl).mpr ⟨trivial, ?_⟩
    refine (allSteps_cons rfl).mpr ⟨Or.inr (Or.inl rfl), ?_⟩
    repeat refine (allSteps_cons rfl).mpr ⟨trivial, ?_⟩
    refine (allSteps_cons rfl).mpr ⟨Or.inr (Or.inl rfl), ?_⟩
    repeat refine (allSteps_cons rfl).mpr ⟨trivial, ?_⟩
    trivial) hrun
  exact ⟨_, hrun, hdurable "c", hdurable "j"⟩

/-- Nothing gets lost in the step of the group. -/
def Kept (c : String) (b : Bool) (s : Databases β) (e : Event β) : Prop :=
  Withheld s e ∧ ∀ a, e = .act a → FaultFree c b s.group a

theorem onTrack_group {b : Bool} (hs : OnTrack g c b s.group) (hC : Kept c b s e)
    (h : step applicationName s e = some t) : OnTrack g c b t.group := by
  cases e with
  | use k event =>
      obtain ⟨_, _, d, _, rfl⟩ := use_cases h
      exact hs
  | act a =>
      obtain ⟨group, hgroup, hwhich⟩ := act_cases h
      have hnext : OnTrack g c b group := onTrack_step hs (hC.2 a rfl) hgroup
      rcases hwhich with ⟨_, _, _, rfl⟩ | ⟨_, rfl⟩
      · exact hnext
      · exact hnext

/-- The businesses use their connections only. -/
theorem kept_use {b : Bool} {event : Proxied.Event β} (h : TakenAway (s.database k) event) :
    Kept c b s (.use k event) :=
  ⟨h, by rintro a ⟨⟩⟩

theorem kept_act {b : Bool} {a : Action} (h : FaultFree c b s.group a) : Kept c b s (.act a) :=
  ⟨trivial, by rintro _ ⟨⟩; exact h⟩

end TxLcn.Proof
