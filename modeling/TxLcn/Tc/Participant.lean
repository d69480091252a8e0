import TxLcn.Tc.Identity

/-!
# One participant of a group

A thread that runs an annotated method begins, runs the business, and ends its
transaction. The creator asks a TM to create the group first and notifies it at
the end; a thread called by another one asks to join at the end, and leaves its
connection to a task that waits for the decision. Each participant has at most
one raw connection, captured when the business committed or rolled back. The task
of a thread that has opened none fails before it waits.

A participant is stepped from outside: by the end of its business, by the result
of the request it waits for, by the decision it waits for. A step may hand over
one request to be sent.
-/

namespace TxLcn.Tc

open TxLcn.Protocol

structure TxException where
  message : String
  deriving Repr, DecidableEq

/-! ## The raw connection -/

/-- What is called on a raw connection at the end; `delete` is the statement for its log rows. -/
inductive RawCall where
  | delete
  | commit
  | rollback
  | close
  deriving Repr, DecidableEq

/-- A captured connection, by the calls made on it and whether each succeeded. -/
structure RawConnection where
  calls : List (RawCall × Bool) := []
  deriving Repr, DecidableEq

namespace RawConnection

def call (connection : RawConnection) (succeeds : RawCall → Bool) (c : RawCall) : RawConnection :=
  { calls := connection.calls ++ [(c, succeeds c)] }

/-- A call of `commit` has succeeded. -/
def committed (connection : RawConnection) : Bool := connection.calls.contains (.commit, true)

/-- A call of `rollback` has succeeded. -/
def rolledBack (connection : RawConnection) : Bool := connection.calls.contains (.rollback, true)

end RawConnection

/--
The connection is the one `JdbcContext` has for the group, if any; `succeeds`
says which calls on it return and which throw an `SQLException`. All of these
are caught: the one of `delete` before `commit` is reached.
-/
def LcnCommitor.commit (succeeds : RawCall → Bool) (connection : Option RawConnection)
    (state : Bool) : Except TxException RawConnection :=
  match connection with
  | none => .error ⟨"connection must not null."⟩
  | some connection =>
      let connection :=
        if state then
          -- `commit` is not reached if the rows cannot be deleted
          let deleted := connection.call succeeds .delete
          if succeeds .delete then deleted.call succeeds .commit else deleted
        else connection.call succeeds .rollback
      .ok (connection.call succeeds .close)

/-- What has become of the connection of a business when it is over. -/
inductive Capture where
  /-- None has been opened through a proxy, and the thread has no `JdbcTransaction`. -/
  | unopened
  /-- One has been opened, and `JdbcContext` does not have it. -/
  | opened
  | captured
  deriving Repr, DecidableEq

namespace Capture

/-- The thread has a `JdbcTransaction`. -/
def jdbcTransaction : Capture → Bool
  | unopened => false
  | opened => true
  | captured => true

/-- What `JdbcContext` has for the group. -/
def connection : Capture → Option RawConnection
  | captured => some { calls := [] }
  | _ => none

@[simp] theorem isSome_connection (capture : Capture) :
    capture.connection.isSome = decide (capture = .captured) := by
  cases capture <;> rfl

end Capture

/-! ## The participant -/

/-- What the participant is doing. -/
inductive ParticipantPc where
  | idle
  /-- Waits for the result of its create. -/
  | creating
  | business
  /-- Waits for the result of its notify. -/
  | notifying
  /-- Waits for the result of its join. -/
  | joining
  /-- Waits for the decision. -/
  | waiting
  | ended
  deriving Repr, DecidableEq

structure Participant where
  transactionInfo : TransactionInfo
  pc : ParticipantPc := .idle
  /-- Its thread has a `JdbcTransaction`. -/
  jdbcTransaction : Bool := false
  connection : Option RawConnection := none
  /-- How many requests it has sent. -/
  attempt : Nat := 0
  /-- The last exception of one of its steps. -/
  thrown : Option TxException := none
  deriving Repr, DecidableEq

namespace Participant

/-- The thread on which the transaction begins. -/
def creator (groupId : String) : Participant where
  transactionInfo := { groupId := some groupId, transactionState := .CREATE }

/-- A thread that was called with the group in its header. -/
def joiner (groupId : String) : Participant where
  transactionInfo := .ofGroup (some groupId)

/-- The connection has been committed. -/
def committed (p : Participant) : Bool := p.connection.any (·.committed)

/-- The connection has been rolled back. -/
def rolledBack (p : Participant) : Bool := p.connection.any (·.rolledBack)

def setSuccessReturn (p : Participant) (success : Bool) : Participant :=
  { p with transactionInfo := { p.transactionInfo with successReturn := some success } }

def setTransactionState (p : Participant) (state : TransactionState) : Participant :=
  { p with transactionInfo := { p.transactionInfo with transactionState := state } }

/-- `TransactionCommitorStrategy.commit` of an LCN transaction, the last thing that is done. -/
def commit (p : Participant) (succeeds : RawCall → Bool) (state : Bool) : Participant :=
  match LcnCommitor.commit succeeds p.connection state with
  | .ok connection => { p with pc := .ended, connection := some connection }
  | .error e => { p with pc := .ended, thrown := some e }

/-- A step: the participant after it, and the request it sends. -/
abbrev Next := Participant × Option Message

def tryBeginTransaction (p : Participant) : Next :=
  if p.transactionInfo.transactionState = .CREATE then
    ({ p with pc := .creating }, some (.create (.new p.transactionInfo.groupId)))
  else ({ p with pc := .business }, none)

/-- Once `success` is set. -/
def tryEndTransaction (p : Participant) (success : Bool) : Next :=
  let groupId := p.transactionInfo.groupId
  let p := p.setSuccessReturn success
  match p.transactionInfo.transactionState with
  | .CREATE =>
      ({ p.setTransactionState .NOTIFY with pc := .notifying },
        some (.notify (.new groupId success)))
  | .NOTIFY => ({ p with pc := .notifying }, some (.notify (.new groupId success)))
  | .JOIN => ({ p with pc := .joining }, some (.join (.new groupId)))
  -- no step is registered for this state
  | .NO_TRANSACTION => ({ p with pc := .ended }, none)

/-- The business returns or throws. -/
def endBusiness (p : Participant) (success : Bool) (capture : Capture) : Next :=
  { p with
    jdbcTransaction := capture.jdbcTransaction
    connection := capture.connection }.tryEndTransaction success

/-- The rest of `TransactionStepCreate.run`. Its exception takes the place of the business. -/
def created (p : Participant) (res : Option TransactionCreateEvent) : Next :=
  match res with
  | none => { p with thrown := some ⟨"create transaction fail."⟩ }.tryEndTransaction false
  | some _ => ({ p with pc := .business }, none)

/-- The rest of `TransactionStepNotify.run`, from the result of one request on. -/
def notified (p : Participant) (succeeds : RawCall → Bool)
    (res : Option TransactionNotifyEvent) : Option Next :=
  match p.transactionInfo.successReturn with
  -- unboxing it would throw, but it has been set before the step is run
  | none => none
  | some successReturn =>
      if successReturn && res.isNone then
        some (p, some (.notify (.new p.transactionInfo.groupId successReturn)))
      else
        let needCommit := match res with
          | some res => res.success && successReturn
          | none => false
        some (p.commit succeeds needCommit, none)

/--
The rest of `TransactionStepJoin.run`. The task of `executeJoin` binds the
`JdbcTransaction` of the thread to its own before it registers its lock, and ends
with a `NullPointerException` where there is none.
-/
def joined (p : Participant) (succeeds : RawCall → Bool)
    (res : Option TransactionJoinEvent) : Next :=
  match res with
  | none =>
      let p := p.commit succeeds false
      -- an exception of the rollback comes before the one of the step
      ({ p with thrown := p.thrown <|> some ⟨"notify transaction fail."⟩ }, none)
  | some _ =>
      if p.jdbcTransaction then ({ p with pc := .waiting }, none)
      else ({ p with pc := .ended }, none)

/--
The request that the participant waits for has ended, with a reply or with null.
A reply of another type would cause a `ClassCastException`; a TM sends none.
-/
def resume (p : Participant) (succeeds : RawCall → Bool) (res : Option Message) : Option Next :=
  match p.pc, res with
  | .creating, none => some (p.created none)
  | .creating, some (.create res) => some (p.created (some res))
  | .notifying, none => p.notified succeeds none
  | .notifying, some (.notify res) => p.notified succeeds (some res)
  | .joining, none => some (p.joined succeeds none)
  | .joining, some (.join res) => some (p.joined succeeds (some res))
  | _, _ => none

/--
The rest of the task of `executeJoin`. Without an event it ends; the source has
a note there that the TM should be asked.
-/
def decided (p : Participant) (succeeds : RawCall → Bool)
    (event : Option TransactionCommitEvent) : Participant :=
  match event with
  | some event => p.commit succeeds event.commit
  | none => { p with pc := .ended }

/-! ## What a step keeps -/

/-- The participant is where a participant of the group `g` can be. -/
structure WellFormed (g : String) (creator : Prop) (p : Participant) : Prop where
  groupId : p.transactionInfo.groupId = some g
  creator_state : creator → p.transactionInfo.transactionState = .CREATE
    ∨ p.transactionInfo.transactionState = .NOTIFY
  joiner_state : ¬ creator → p.transactionInfo.transactionState = .JOIN
  creator_pc : p.pc = .creating ∨ p.pc = .notifying → creator
  joiner_pc : p.pc = .joining ∨ p.pc = .waiting → ¬ creator
  /-- The outcome is set when the business is over. -/
  unset : p.pc = .idle ∨ p.pc = .creating ∨ p.pc = .business →
    p.transactionInfo.successReturn = none
  /-- The connection is touched at the very end only. -/
  untouched : p.pc ≠ .ended → ∀ connection, p.connection = some connection → connection.calls = []

/-- The request belongs to the group, and to the one who sends it. -/
def RequestOk (g : String) (creator : Prop) (successReturn : Option Bool) : Message → Prop
  | .create event => event.groupId = some g
  | .join event => event.groupId = some g ∧ ¬ creator
  | .notify event => event.groupId = some g ∧ creator ∧ successReturn = some event.success
  | _ => False

/-- What every step of a participant does. -/
structure Sound (g : String) (creator : Prop) (p : Participant) (next : Next) : Prop where
  wellFormed : next.1.WellFormed g creator
  /-- The outcome is set once. -/
  keeps : p.transactionInfo.successReturn = none
    ∨ next.1.transactionInfo.successReturn = p.transactionInfo.successReturn
  sends : ∀ message, next.2 = some message → next.1.pc ≠ .ended
    ∧ RequestOk g creator next.1.transactionInfo.successReturn message

variable {g : String} {creator : Prop} {p : Participant} {succeeds : RawCall → Bool}

@[simp] theorem commit_pc (state : Bool) : (p.commit succeeds state).pc = .ended := by
  unfold commit
  split <;> rfl

@[simp] theorem commit_transactionInfo (state : Bool) :
    (p.commit succeeds state).transactionInfo = p.transactionInfo := by
  unfold commit
  split <;> rfl

/-- What is called on a connection that nothing has been called on. -/
theorem committed_commit (hp : p.WellFormed g creator) (hpc : p.pc ≠ .ended)
    (succeeds : RawCall → Bool) (state : Bool) :
    (p.commit succeeds state).committed
      = (state && p.connection.isSome && succeeds .delete && succeeds .commit) := by
  cases hc : p.connection with
  | none => simp [commit, LcnCommitor.commit, hc, committed]
  | some connection =>
      -- the calls made at the end are all there are
      obtain ⟨calls⟩ := connection
      obtain rfl : calls = [] := hp.untouched hpc _ hc
      cases state <;> cases hd : succeeds .delete <;> cases hm : succeeds .commit <;>
        simp [commit, LcnCommitor.commit, hc, committed, RawConnection.committed,
          RawConnection.call, hd, hm]

theorem rolledBack_commit (hp : p.WellFormed g creator) (hpc : p.pc ≠ .ended)
    (succeeds : RawCall → Bool) (state : Bool) :
    (p.commit succeeds state).rolledBack
      = (!state && p.connection.isSome && succeeds .rollback) := by
  cases hc : p.connection with
  | none => simp [commit, LcnCommitor.commit, hc, rolledBack]
  | some connection =>
      obtain ⟨calls⟩ := connection
      obtain rfl : calls = [] := hp.untouched hpc _ hc
      cases state <;> cases hd : succeeds .delete <;> cases hr : succeeds .rollback <;>
        simp [commit, LcnCommitor.commit, hc, rolledBack, RawConnection.rolledBack,
          RawConnection.call, hd, hr]

/-- Before the end nothing is committed or rolled back. -/
theorem WellFormed.not_committed (hp : p.WellFormed g creator) (hpc : p.pc ≠ .ended) :
    p.committed = false := by
  cases hc : p.connection with
  | none => simp [committed, hc]
  | some connection =>
      simp [committed, hc, RawConnection.committed, hp.untouched hpc connection hc]

theorem WellFormed.not_rolledBack (hp : p.WellFormed g creator) (hpc : p.pc ≠ .ended) :
    p.rolledBack = false := by
  cases hc : p.connection with
  | none => simp [rolledBack, hc]
  | some connection =>
      simp [rolledBack, hc, RawConnection.rolledBack, hp.untouched hpc connection hc]

theorem wellFormed_creator (h : creator) : (Participant.creator g).WellFormed g creator where
  groupId := rfl
  creator_state _ := Or.inl rfl
  joiner_state hno := absurd h hno
  creator_pc _ := h
  joiner_pc := by simp [Participant.creator]
  unset _ := rfl
  untouched := by simp [Participant.creator]

theorem wellFormed_joiner (h : ¬ creator) : (Participant.joiner g).WellFormed g creator where
  groupId := rfl
  creator_state hcreator := absurd hcreator h
  joiner_state _ := rfl
  creator_pc := by simp [Participant.joiner]
  joiner_pc _ := h
  unset _ := rfl
  untouched := by simp [Participant.joiner]

/-- Having ended, a participant keeps what it is, and sends nothing. -/
theorem sound_ended (hp : p.WellFormed g creator) {q : Participant} (hq : q.pc = .ended)
    (hinfo : q.transactionInfo = p.transactionInfo) : Sound g creator p (q, none) where
  wellFormed :=
    { groupId := by rw [hinfo]; exact hp.groupId
      creator_state := by rw [hinfo]; exact hp.creator_state
      joiner_state := by rw [hinfo]; exact hp.joiner_state
      creator_pc := by simp [hq]
      joiner_pc := by simp [hq]
      unset := by simp [hq]
      untouched := by simp [hq] }
  keeps := Or.inr (by rw [hinfo])
  sends := by simp

theorem sound_commit (hp : p.WellFormed g creator) (state : Bool) :
    Sound g creator p (p.commit succeeds state, none) :=
  sound_ended hp (commit_pc state) (commit_transactionInfo state)

/-- A participant that goes on where it may, with nothing else changed, is still in order. -/
theorem WellFormed.goOn (hp : p.WellFormed g creator) (hpc : p.pc ≠ .ended)
    {pc : ParticipantPc} (hcreator : pc = .creating ∨ pc = .notifying → creator)
    (hjoiner : pc = .joining ∨ pc = .waiting → ¬ creator)
    (hunset : pc = .idle ∨ pc = .creating ∨ pc = .business →
      p.transactionInfo.successReturn = none) : WellFormed g creator { p with pc } where
  groupId := hp.groupId
  creator_state := hp.creator_state
  joiner_state := hp.joiner_state
  creator_pc := hcreator
  joiner_pc := hjoiner
  unset := hunset
  untouched _ := hp.untouched hpc

theorem sound_tryBeginTransaction (hp : p.WellFormed g creator) (hpc : p.pc = .idle) :
    Sound g creator p p.tryBeginTransaction := by
  have hne : p.pc ≠ .ended := by rw [hpc]; simp
  have hunset := hp.unset (Or.inl hpc)
  unfold tryBeginTransaction
  split
  · rename_i hstate
    have hcreator : creator := by
      by_contra hno
      have hjoin := hp.joiner_state hno
      rw [hstate] at hjoin
      cases hjoin
    refine ⟨hp.goOn hne (fun _ => hcreator) (by simp) (fun _ => hunset), Or.inl hunset, ?_⟩
    intro message hm
    cases hm
    exact ⟨by simp, hp.groupId⟩
  · exact ⟨hp.goOn hne (by simp) (by simp) (fun _ => hunset), Or.inl hunset, by simp⟩

/-- The creator ends its transaction. -/
theorem sound_notifying (hp : p.WellFormed g creator) (hpc : p.pc ≠ .ended) (hcreator : creator)
    (hunset : p.transactionInfo.successReturn = none) {success : Bool} {q : Participant}
    (hq : q.pc = .notifying) (hconnection : q.connection = p.connection)
    (hinfo : q.transactionInfo = { p.transactionInfo with
      transactionState := .NOTIFY
      successReturn := some success }) :
    Sound g creator p (q, some (.notify (.new p.transactionInfo.groupId success))) where
  wellFormed :=
    { groupId := by rw [hinfo]; exact hp.groupId
      creator_state := fun _ => Or.inr (by rw [hinfo])
      joiner_state := fun hno => absurd hcreator hno
      creator_pc := fun _ => hcreator
      joiner_pc := by simp [hq]
      unset := by simp [hq]
      untouched := by rw [hconnection]; exact fun _ => hp.untouched hpc }
  keeps := Or.inl hunset
  sends := by
    intro message hm
    cases hm
    exact ⟨by simp [hq], hp.groupId, hcreator, by rw [hinfo]; rfl⟩

/-- A joiner ends its transaction. -/
theorem sound_joining (hp : p.WellFormed g creator) (hpc : p.pc ≠ .ended) (hjoiner : ¬ creator)
    (hunset : p.transactionInfo.successReturn = none) (success : Bool) :
    Sound g creator p ({ p.setSuccessReturn success with pc := .joining },
      some (.join (.new p.transactionInfo.groupId))) where
  wellFormed :=
    { groupId := hp.groupId
      creator_state := fun hcreator => absurd hcreator hjoiner
      joiner_state := hp.joiner_state
      creator_pc := by simp
      joiner_pc := fun _ => hjoiner
      unset := by simp
      untouched := fun _ => hp.untouched hpc }
  keeps := Or.inl hunset
  sends := by
    intro message hm
    cases hm
    exact ⟨by simp, hp.groupId, hjoiner⟩

theorem sound_tryEndTransaction (hp : p.WellFormed g creator) (hpc : p.pc ≠ .ended)
    (hunset : p.transactionInfo.successReturn = none) (success : Bool) :
    Sound g creator p (p.tryEndTransaction success) := by
  by_cases hcreator : creator
  · rcases hp.creator_state hcreator with hstate | hstate
    · simp only [tryEndTransaction, setSuccessReturn, hstate]
      exact sound_notifying hp hpc hcreator hunset rfl rfl rfl
    · simp only [tryEndTransaction, setSuccessReturn, hstate]
      exact sound_notifying hp hpc hcreator hunset rfl rfl (by rw [← hstate])
  · have hstate := hp.joiner_state hcreator
    have hnext : p.tryEndTransaction success = ({ p.setSuccessReturn success with pc := .joining },
        some (.join (.new p.transactionInfo.groupId))) := by
      simp only [tryEndTransaction, setSuccessReturn, hstate]
    rw [hnext]
    exact sound_joining hp hpc hcreator hunset success

/-- With either request the participant goes on waiting. -/
theorem tryEndTransaction_pc (hp : p.WellFormed g creator) (success : Bool) :
    (p.tryEndTransaction success).1.pc ≠ .ended := by
  by_cases hcreator : creator
  · rcases hp.creator_state hcreator with hstate | hstate <;>
      simp [tryEndTransaction, setSuccessReturn, hstate]
  · simp [tryEndTransaction, setSuccessReturn, hp.joiner_state hcreator]

/-- A step from a participant that differs in its connection or its exception only. -/
theorem Sound.of_same {q : Participant} {next : Next} (h : Sound g creator q next)
    (hinfo : q.transactionInfo = p.transactionInfo) : Sound g creator p next where
  wellFormed := h.wellFormed
  keeps := by rw [← hinfo]; exact h.keeps
  sends := h.sends

/-- A connection that has only been captured is untouched. -/
theorem WellFormed.capture (hp : p.WellFormed g creator) (capture : Capture) :
    WellFormed g creator { p with
      jdbcTransaction := capture.jdbcTransaction
      connection := capture.connection } :=
  { hp with
    untouched := by
      intro _ connection hc
      cases capture with
      | captured => cases hc; rfl
      | unopened | opened => cases hc }

theorem sound_endBusiness (hp : p.WellFormed g creator) (hpc : p.pc = .business)
    (success : Bool) (capture : Capture) :
    Sound g creator p (p.endBusiness success capture) := by
  have hunset := hp.unset (Or.inr (Or.inr hpc))
  exact (sound_tryEndTransaction (hp.capture capture) (by simp [hpc]) hunset success).of_same rfl

theorem endBusiness_pc (hp : p.WellFormed g creator) (success : Bool) (capture : Capture) :
    (p.endBusiness success capture).1.pc ≠ .ended :=
  tryEndTransaction_pc (hp.capture capture) success

theorem sound_created (hp : p.WellFormed g creator) (hpc : p.pc = .creating)
    (res : Option TransactionCreateEvent) : Sound g creator p (p.created res) := by
  have hne : p.pc ≠ .ended := by rw [hpc]; simp
  have hunset := hp.unset (Or.inr (Or.inl hpc))
  cases res with
  | none =>
      have hq : WellFormed g creator
          { p with thrown := some ⟨"create transaction fail."⟩ } := { hp with }
      exact (sound_tryEndTransaction hq hne hunset false).of_same rfl
  | some res =>
      exact ⟨hp.goOn hne (by simp) (by simp) (fun _ => hunset), Or.inl hunset, by simp [created]⟩

theorem sound_notified (hp : p.WellFormed g creator) (hpc : p.pc = .notifying)
    {res : Option TransactionNotifyEvent} {next : Next}
    (h : p.notified succeeds res = some next) : Sound g creator p next := by
  unfold notified at h
  split at h
  · cases h
  · rename_i successReturn hset
    split at h
    · -- the same notification once more
      cases h
      refine ⟨hp, Or.inr rfl, ?_⟩
      intro message hm
      cases hm
      exact ⟨by simp [hpc], hp.groupId, hp.creator_pc (Or.inr hpc), hset⟩
    · cases h
      exact sound_commit hp _

theorem sound_joined (hp : p.WellFormed g creator) (hpc : p.pc = .joining)
    (res : Option TransactionJoinEvent) : Sound g creator p (p.joined succeeds res) := by
  have hne : p.pc ≠ .ended := by rw [hpc]; simp
  cases res with
  | none => exact sound_ended hp (commit_pc false) (commit_transactionInfo false)
  | some res =>
      unfold joined
      dsimp only
      split
      · refine ⟨hp.goOn hne (by simp) (fun _ => hp.joiner_pc (Or.inl hpc)) (by simp),
          Or.inr rfl, ?_⟩
        simp
      · exact sound_ended hp rfl rfl

theorem sound_resume (hp : p.WellFormed g creator) {res : Option Message} {next : Next}
    (h : p.resume succeeds res = some next) : Sound g creator p next := by
  unfold resume at h
  split at h
  · rename_i hpc; cases h; exact sound_created hp hpc _
  · rename_i hpc; cases h; exact sound_created hp hpc _
  · rename_i hpc; exact sound_notified hp hpc h
  · rename_i hpc; exact sound_notified hp hpc h
  · rename_i hpc; cases h; exact sound_joined hp hpc _
  · rename_i hpc; cases h; exact sound_joined hp hpc _
  · cases h

theorem created_connection (res : Option TransactionCreateEvent) :
    (p.created res).1.connection = p.connection := by
  cases res with
  | none =>
      simp only [created, tryEndTransaction, setSuccessReturn]
      split <;> rfl
  | some res => rfl

theorem joined_connection (res : TransactionJoinEvent) :
    (p.joined succeeds (some res)).1.connection = p.connection := by
  unfold joined
  dsimp only
  split <;> rfl

theorem notified_committed (hp : p.WellFormed g creator) (hpc : p.pc = .notifying)
    {res : Option TransactionNotifyEvent} {next : Next}
    (h : p.notified succeeds res = some next) (hc : next.1.committed = true) :
    p.transactionInfo.successReturn = some true := by
  have hne : p.pc ≠ .ended := by rw [hpc]; simp
  unfold notified at h
  split at h
  · cases h
  · rename_i successReturn hset
    split at h
    · cases h
      rw [hp.not_committed hne] at hc
      cases hc
    · cases h
      rw [committed_commit hp hne] at hc
      -- what is committed is `needCommit`, which is at most `successReturn`
      rw [hset]
      cases res with
      | none => simp at hc
      | some res => simp at hc; simp [hc]

/-- The result of a request ends the creator, or a joiner without an answer or a connection. -/
theorem resume_ended (hp : p.WellFormed g creator) {res : Option Message} {next : Next}
    (h : p.resume succeeds res = some next) (hended : next.1.pc = .ended) :
    creator ∨ p.pc = .joining ∧ (res = none ∨ p.jdbcTransaction = false) := by
  unfold resume at h
  split at h
  · rename_i hpc; exact Or.inl (hp.creator_pc (Or.inl hpc))
  · rename_i hpc; exact Or.inl (hp.creator_pc (Or.inl hpc))
  · rename_i hpc; exact Or.inl (hp.creator_pc (Or.inr hpc))
  · rename_i hpc; exact Or.inl (hp.creator_pc (Or.inr hpc))
  · rename_i hpc; exact Or.inr ⟨hpc, Or.inl rfl⟩
  · rename_i hpc
    cases h
    refine Or.inr ⟨hpc, Or.inr ?_⟩
    cases hbound : p.jdbcTransaction with
    | false => rfl
    | true => simp [joined, hbound] at hended
  · cases h

/-- The result of a request makes only the creator commit, after a success of its business. -/
theorem resume_committed (hp : p.WellFormed g creator) {res : Option Message} {next : Next}
    (h : p.resume succeeds res = some next) (hc : next.1.committed = true) :
    creator ∧ p.transactionInfo.successReturn = some true := by
  have hsame : p.pc ≠ .ended → next.1.connection ≠ p.connection := by
    intro hne heq
    have hno := hp.not_committed hne
    rw [committed, ← heq, ← committed, hc] at hno
    cases hno
  unfold resume at h
  split at h
  · rename_i hpc
    cases h
    exact absurd (created_connection _) (hsame (by simp [hpc]))
  · rename_i hpc
    cases h
    exact absurd (created_connection _) (hsame (by simp [hpc]))
  · rename_i hpc
    exact ⟨hp.creator_pc (Or.inr hpc), notified_committed hp hpc h hc⟩
  · rename_i hpc
    exact ⟨hp.creator_pc (Or.inr hpc), notified_committed hp hpc h hc⟩
  · rename_i hpc
    cases h
    have hno : (p.commit succeeds false).committed = false := by
      rw [committed_commit hp (by simp [hpc])]
      rfl
    exact absurd (hno.symm.trans hc) (by simp)
  · rename_i hpc
    cases h
    exact absurd (joined_connection _) (hsame (by simp [hpc]))
  · cases h

theorem sound_decided (hp : p.WellFormed g creator) (succeeds : RawCall → Bool)
    (event : Option TransactionCommitEvent) :
    Sound g creator p (p.decided succeeds event, none) := by
  cases event with
  | none => exact sound_ended hp rfl rfl
  | some event => exact sound_commit hp event.commit

end Participant

end TxLcn.Tc
