import TxLcn.Proof.ExitPaths
import TxLcn.Proof.FailedJoin

/-!
# A thread plays its participant

What is said of a group as a whole is said of participants, which take one step
after the other. What runs is an annotated method on a thread, in one go, and for
a joiner a task on another thread. `creator_plays` and `joiner_plays` say that the
one is the other: all that a thread asks of a TM, and all that it calls on a raw
connection, is what a participant does that is answered in the same way. How it is
answered is read off the world: `creatorTurns` and `joinerTurns` say which turns
the replies, the end of the business and the events at the task amount to.

This is so for a business without an annotated method inside, which ends without
an `Error`, and for requests that come back, with a reply or with null. A request
that throws is no step of a participant.
-/

namespace TxLcn.Proof

open TxLcn.Lib TxLcn.Tc TxLcn.Protocol TransactionAspectContext

/-- What makes a participant take a step. -/
inductive Turn where
  | begins
  | ends (success : Bool) (capture : Capture)
  /-- The request ends with that result. -/
  | result (succeeds : RawCall → Bool) (res : Option Message)
  /-- The waiting for the decision ends. -/
  | decided (succeeds : RawCall → Bool) (event : Option TransactionCommitEvent)

/-- A participant, with all the requests it has sent. -/
abbrev Played := Participant × List Message

def Played.advance (s : Played) (next : Participant.Next) : Played :=
  (next.1, s.2 ++ next.2.toList)

def Played.step (s : Played) : Turn → Option Played
  | .begins => if s.1.pc = .idle then some (s.advance s.1.tryBeginTransaction) else none
  | .ends success capture =>
      if s.1.pc = .business then some (s.advance (s.1.endBusiness success capture)) else none
  | .result succeeds res => (s.1.resume succeeds res).map s.advance
  | .decided succeeds event =>
      if s.1.pc = .waiting then some (s.advance (s.1.decided succeeds event, none)) else none

/-- What has been called on the connection of the participant. -/
def callsOf (p : Participant) : List (RawCall × Bool) :=
  p.connection.elim [] RawConnection.calls

/-- What a thread asks of a TM. -/
def sentOf (ms : List Mark) : List Message :=
  ms.filterMap fun
    | .sent message => some message
    | _ => none

/-- What a thread calls on raw connections. -/
def calledOf (ms : List Mark) : List (RawCall × Bool) :=
  ms.filterMap fun
    | .raw _ call succeeded => some (call, succeeded)
    | _ => none

/-- The tasks that a thread leaves behind. -/
def tasksOf (ms : List Mark) : List Task :=
  ms.filterMap fun
    | .executeJoin transactionInfo jdbcTransaction => some (transactionInfo, jdbcTransaction)
    | _ => none

/-- No annotated method is invoked, and nothing ends with an `Error`. -/
def Flat : Business → Prop
  | .ends how => how ≠ .error
  | .code next => Flat next
  | .jdbc _ next => ∀ e, Flat (next e)
  | .outbound _ next => ∀ e, Flat (next e)
  | .call annotated _ body next => annotated = false ∧ Flat body ∧ ∀ e, Flat (next e)

/-- The request comes back. -/
def ComesBack {α : Type} (reply : Reply α) : Prop := ∀ written, reply ≠ .threw written

/-! ## The turns that a world amounts to -/

/-- The result of a request that has come back. -/
def messageOf {α : Type} (f : α → Message) : Reply α → Option Message
  | .answered res => some (f res)
  | _ => none

/-- What has become of the connection, by what the thread and the `JdbcContext` have. -/
def captureOf (jdbcTransaction : Option JdbcTransaction) (context : JdbcContext) (g : String) :
    Capture :=
  if (context g).isSome then .captured
  else if jdbcTransaction.isSome then .opened
  else .unopened

/-- The thread when its business is over, and how it has ended. -/
def afterBusiness (w : World) (body : Business) (t : TcThread) : TcThread × Option Exit :=
  attempt w (enter w t).1 body.run (enter w t).2

/-- The replies to the notification, as many as it is written. -/
def notifyTurns (w : World) (success : Bool) : List Turn :=
  (w.notify.take (TransactionStepNotify.writes success w.notify)).map fun reply =>
    .result w.succeeds (messageOf .notify reply)

/-- How the creator is answered. Without a group the business does not begin. -/
def creatorTurns (w : World) (body : Business) (g : String) (t : TcThread) : List Turn :=
  match w.create with
  | .answered res =>
      let (u, how) := afterBusiness w body t
      let success : Bool := how = some .returned
      [.begins, .result w.succeeds (some (.create res)),
        .ends success (captureOf u.jdbcTransaction u.context g)] ++ notifyTurns w success
  | _ => [.begins, .result w.succeeds none] ++ notifyTurns w false

/--
How a joiner is answered, with its task. The commitor is called by the thread if
the join is not answered, and by the task, which finds another `JdbcContext`, if
an event is for it.
-/
def joinerTurns (w : World) (body : Business) (g : String) (a : JoinWait) (t : TcThread) :
    List Turn :=
  let (u, how) := afterBusiness w body t
  let success : Bool := how = some .returned
  match w.join, u.jdbcTransaction with
  | .answered res, some jdbcTransaction =>
      [.begins, .ends success (captureOf (some jdbcTransaction) a.context g),
        .result a.succeeds (some (.join res)),
        .decided a.succeeds (a.arrivals.find? fun event => event.messageId = some g)]
  -- the task fails before it waits
  | .answered res, none =>
      [.begins, .ends success .unopened, .result a.succeeds (some (.join res))]
  | _, jdbcTransaction =>
      [.begins, .ends success (captureOf jdbcTransaction u.context g), .result w.succeeds none]

variable {t u : TcThread} {w : World} {body : Business} {i : Nat} {g : String} {b : Bool}
  {capture : Capture} {ms ns : List Mark} {succeeds : RawCall → Bool} {p q : Participant}
  {messages : List Message}

/-! ## What can be seen of marks -/

@[simp] theorem sentOf_append : sentOf (ms ++ ns) = sentOf ms ++ sentOf ns :=
  List.filterMap_append

@[simp] theorem calledOf_append : calledOf (ms ++ ns) = calledOf ms ++ calledOf ns :=
  List.filterMap_append

@[simp] theorem tasksOf_append : tasksOf (ms ++ ns) = tasksOf ms ++ tasksOf ns :=
  List.filterMap_append

@[simp] theorem sentOf_replicate (n : Nat) (message : Message) :
    sentOf (List.replicate n (.sent message)) = List.replicate n message := by
  induction n with
  | zero => rfl
  | succ n ih => rw [List.replicate_succ, List.replicate_succ, ← ih]; rfl

@[simp] theorem calledOf_replicate (n : Nat) (message : Message) :
    calledOf (List.replicate n (.sent message)) = [] := by
  induction n with
  | zero => rfl
  | succ n ih => rw [List.replicate_succ, ← ih]; rfl

@[simp] theorem sentOf_rawMarks (calls : List (Nat × RawCall × Bool)) :
    sentOf (calls.map TcThread.rawMark) = [] := by
  induction calls with
  | nil => rfl
  | cons c calls ih => rw [List.map_cons, ← ih]; rfl

@[simp] theorem calledOf_rawMarks (calls : List (Nat × RawCall × Bool)) :
    calledOf (calls.map TcThread.rawMark) = calls.map Prod.snd := by
  induction calls with
  | nil => rfl
  | cons c calls ih => rw [List.map_cons, List.map_cons, ← ih]; rfl

@[simp] theorem tasksOf_rawMarks (calls : List (Nat × RawCall × Bool)) :
    tasksOf (calls.map TcThread.rawMark) = [] := by
  induction calls with
  | nil => rfl
  | cons c calls ih => rw [List.map_cons, ← ih]; rfl

/-- Nothing of the marks is seen by others. -/
structure Unseen (ms : List Mark) : Prop where
  sent : sentOf ms = []
  called : calledOf ms = []
  tasks : tasksOf ms = []

theorem Unseen.append (hms : Unseen ms) (hns : Unseen ns) : Unseen (ms ++ ns) where
  sent := by rw [sentOf_append, hms.sent, hns.sent, List.nil_append]
  called := by rw [calledOf_append, hms.called, hns.called, List.nil_append]
  tasks := by rw [tasksOf_append, hms.tasks, hns.tasks, List.nil_append]

/-- A connection is kept for the group only while the thread has a `JdbcTransaction`. -/
def KeepsOwn (g : String) (t : TcThread) : Prop :=
  t.context g ≠ none → t.jdbcTransaction ≠ none

/-- Without a `JdbcTransaction` nothing is captured. -/
theorem onBeforeCommit_unbound (info : Option TransactionInfo) (saved : Bool)
    (context : JdbcContext) : ∃ thrown,
    TransactionJdbcEventListener.onBeforeCommit info none saved context = .error thrown := by
  unfold TransactionJdbcEventListener.onBeforeCommit
  split
  · exact ⟨_, rfl⟩
  · split <;> exact ⟨_, rfl⟩

theorem onBeforeRollback_unbound (info : Option TransactionInfo) (context : JdbcContext) :
    ∃ thrown, TransactionJdbcEventListener.onBeforeRollback info none context = .error thrown := by
  unfold TransactionJdbcEventListener.onBeforeRollback
  split
  · exact ⟨_, rfl⟩
  · split <;> exact ⟨_, rfl⟩

/-- What is captured is the connection of the thread's own `JdbcTransaction`. -/
theorem keepsOwn_apply {op : JdbcOp} (h : KeepsOwn g t) (happly : op.apply t = .ok u) :
    KeepsOwn g u := by
  cases op with
  | getConnection c =>
      simp only [JdbcOp.apply, TxDataSourceInterceptor.invoke] at happly
      split at happly
      · cases happly
        exact h
      · split at happly
        · cases happly
        · split at happly <;> cases happly
          · exact fun _ => by simp
          · exact h
  | commit saved =>
      have hbound : t.jdbcTransaction ≠ none := by
        intro hnone
        obtain ⟨thrown, hthrown⟩ := onBeforeCommit_unbound t.currentInfo saved t.context
        simp [JdbcOp.apply, hnone, hthrown, Except.map] at happly
      simp only [JdbcOp.apply, Except.map] at happly
      split at happly <;> cases happly
      exact fun _ => hbound
  | rollback =>
      have hbound : t.jdbcTransaction ≠ none := by
        intro hnone
        obtain ⟨thrown, hthrown⟩ := onBeforeRollback_unbound t.currentInfo t.context
        simp [JdbcOp.apply, hnone, hthrown, Except.map] at happly
      simp only [JdbcOp.apply, Except.map] at happly
      split at happly <;> cases happly
      exact fun _ => hbound

theorem keepsOwn_run (op : JdbcOp) (h : KeepsOwn g t) : KeepsOwn g (op.run t).1 := by
  unfold JdbcOp.run
  cases happly : op.apply t with
  | error thrown => exact h
  | ok u => exact keepsOwn_apply h happly

/-- A flat business runs to its end, and nothing of it is seen. -/
theorem flat_run (b : Business) (t : TcThread) (h : Flat b) : ∃ u how ms,
    b.run t = (u, some how) ∧ how ≠ .error ∧ u.marks = t.marks ++ ms ∧ Unseen ms
      ∧ u.current = t.current ∧ ∀ g, KeepsOwn g t → KeepsOwn g u := by
  induction b generalizing t with
  | ends how => exact ⟨t, how, [], rfl, h, by simp, ⟨rfl, rfl, rfl⟩, rfl, fun _ hk => hk⟩
  | code next ih =>
      obtain ⟨u, how, ms, hrun, hhow, hms, hunseen, hc, hk⟩ := ih (t.marked [.code]) h
      have hcode : Unseen [.code] := ⟨rfl, rfl, rfl⟩
      exact ⟨u, how, [.code] ++ ms, hrun, hhow, by simp [hms], hcode.append hunseen, hc, hk⟩
  | jdbc op next ih =>
      obtain ⟨_, _, hc', hm'⟩ := op.run_keeps (t.marked [.code])
      obtain ⟨u, how, ms, hrun, hhow, hms, hunseen, hc, hk⟩ :=
        ih _ (op.run (t.marked [.code])).1 (h _)
      have hcode : Unseen [.code] := ⟨rfl, rfl, rfl⟩
      exact ⟨u, how, [.code] ++ ms, hrun, hhow, by simp [hms, hm'], hcode.append hunseen,
        hc.trans hc', fun g hkeeps => hk g (keepsOwn_run (t := t.marked [.code]) op hkeeps)⟩
  | outbound how next ih =>
      obtain ⟨u, how', ms, hrun, hhow, hms, hunseen, hc, hk⟩ := ih _ (t.outbound how).1 (h _)
      rw [TcThread.outbound_eq] at hms hc hk
      have hcall : Unseen [.outbound (RpcTransactionContext.build t.currentInfo)] :=
        ⟨rfl, rfl, rfl⟩
      refine ⟨u, how', _, hrun, hhow, ?_, hcall.append hunseen, hc, hk⟩
      rw [hms, TcThread.marked_marks, List.append_assoc]
  | call annotated w body next ihb ihn =>
      obtain ⟨rfl, hbody, hnext⟩ := h
      obtain ⟨v, e, ms, hrun, _, hms, hunseen, hc, hk⟩ := ihb t hbody
      obtain ⟨u, how, ns, hrun', hhow, hns, hunseen', hc', hk'⟩ := ihn e v (hnext e)
      refine ⟨u, how, ms ++ ns, ?_, hhow, by rw [hns, hms, List.append_assoc],
        hunseen.append hunseen', hc'.trans hc, fun g hkeeps => hk' g (hk g hkeeps)⟩
      rw [Business.run_call (u := v) (e := e) (by simpa [runWithTransaction] using hrun)]
      exact hrun'

/-! ## What a participant calls -/

/-- The calls of a commit or rollback of the participant are those of `LcnCommitor`. -/
theorem callsOf_commit (h : p.connection = some { calls := [] }) (d : Bool) :
    callsOf (p.commit succeeds d) = LcnCommitor.calls succeeds d := by
  unfold Participant.commit
  rw [h, LcnCommitor.commit_some]
  simp [callsOf]

/-- Without a connection there are none. -/
theorem callsOf_commit_none (h : p.connection = none) (d : Bool) :
    callsOf (p.commit succeeds d) = [] := by
  unfold Participant.commit
  rw [h]
  simp [callsOf, LcnCommitor.commit]

/-! ## The creator -/

/-- The creator while it waits for the result of its notification. -/
def notifying (g : String) (success : Bool) (capture : Capture) (thrown : Option TxException) :
    Participant where
  transactionInfo :=
    { groupId := some g, transactionState := .NOTIFY, successReturn := some success }
  pc := .notifying
  jdbcTransaction := capture.jdbcTransaction
  connection := capture.connection
  thrown := thrown

/-- It notifies as often as the thread does, and then commits or rolls back as the thread does. -/
theorem plays_notify (g : String) (b : Bool) (capture : Capture) (thrown : Option TxException)
    (succeeds : RawCall → Bool) (replies : List (Reply TransactionNotifyEvent))
    (hreturns : ∀ reply ∈ replies, ComesBack reply) (messages : List Message) :
    ∃ n q, TransactionStepNotify.writes b replies = n + 1
      ∧ exec Played.step (notifying g b capture thrown, messages)
          ((replies.take (TransactionStepNotify.writes b replies)).map fun reply =>
            .result succeeds (messageOf .notify reply))
        = some (q, messages ++ List.replicate n (.notify (.new (some g) b)))
      ∧ match TransactionStepNotify.result b replies with
        | none => q = notifying g b capture thrown
        | some (.error _) => False
        | some (.ok res) => q = (notifying g b capture thrown).commit succeeds
            (TransactionStepNotify.needCommit res b) := by
  induction replies generalizing messages with
  | nil => exact ⟨0, _, rfl, by simp, rfl⟩
  | cons reply replies ih =>
      cases reply with
      | threw written => exact absurd rfl (hreturns _ List.mem_cons_self written)
      | answered res =>
          refine ⟨0, _, rfl, ?_, rfl⟩
          simp [TransactionStepNotify.writes, exec, messageOf, Played.step, notifying,
            Participant.resume, Participant.notified, Played.advance,
            TransactionStepNotify.needCommit]
      | lost =>
          cases b with
          | false =>
              refine ⟨0, _, rfl, ?_, rfl⟩
              simp [TransactionStepNotify.writes, exec, messageOf, Played.step, notifying,
                Participant.resume, Participant.notified, Played.advance,
                TransactionStepNotify.needCommit]
          | true =>
              obtain ⟨n, q, hn, hexec, hq⟩ :=
                ih (fun r hr => hreturns r (List.mem_cons_of_mem _ hr))
                  (messages ++ [.notify (.new (some g) true)])
              have hwrites : TransactionStepNotify.writes true (.lost :: replies)
                  = TransactionStepNotify.writes true replies + 1 := rfl
              refine ⟨n + 1, q, by rw [hwrites, hn], ?_, hq⟩
              -- the same notification once more
              have hstep : Played.step (notifying g true capture thrown, messages)
                  (.result succeeds none) = some (notifying g true capture thrown,
                    messages ++ [.notify (.new (some g) true)]) := rfl
              rw [hwrites, List.take_succ_cons, List.map_cons, exec_cons]
              show (Played.step _ (.result succeeds none)).bind _ = _
              rw [hstep, Option.bind_some, hexec, List.append_assoc, List.singleton_append,
                List.replicate_succ]

/-- A participant with no connection kept for it. -/
theorem connection_of_ne (h : capture ≠ .captured) : capture.connection = none := by
  cases capture with
  | captured => exact absurd rfl h
  | unopened | opened => rfl

theorem callsOf_notifying (g : String) (b : Bool) (capture : Capture)
    (thrown : Option TxException) : callsOf (notifying g b capture thrown) = [] := by
  cases capture <;> rfl

/-- The end step of a creator on a thread, and that of its participant. -/
theorem plays_told {exit : Exit} {next : TcThread × Option Exit}
    (htold : Told w g b exit t next) (howned : t.Owned)
    (hreturns : ∀ reply ∈ w.notify, ComesBack reply)
    (hcapture : capture = .captured ↔ ∃ c, FindsConnection t c)
    (hbound : (∃ c, FindsConnection t c) → t.jdbcTransaction ≠ none)
    (thrown : Option TxException) (messages : List Message) :
    ∃ q ms, exec Played.step (notifying g b capture thrown,
          messages ++ [.notify (.new (some g) b)]) (notifyTurns w b)
        = some (q, messages ++ sentOf ms)
      ∧ next.1.marks = t.marks ++ ms ∧ callsOf q = calledOf ms
      ∧ (q.pc = .ended ↔ next.2 ≠ none) := by
  obtain ⟨n, q, hn, hexec, hq⟩ := plays_notify g b capture thrown w.succeeds w.notify hreturns
    (messages ++ [.notify (.new (some g) b)])
  have hmessages : messages ++ [.notify (.new (some g) b)]
      ++ List.replicate n (.notify (.new (some g) b))
      = messages ++ List.replicate (n + 1) (.notify (.new (some g) b)) := by
    rw [List.append_assoc, List.singleton_append, List.replicate_succ]
  have hnotified : exec Played.step (notifying g b capture thrown,
      messages ++ [.notify (.new (some g) b)]) (notifyTurns w b)
      = some (q, messages ++ sentOf (notifications w g b)) := by
    rw [notifyTurns, hexec, hmessages, notifications, hn, sentOf_replicate]
  have hcalled : calledOf (notifications w g b) = [] := by
    rw [notifications, calledOf_replicate]
  cases htold with
  | waiting hres =>
      rw [hres] at hq
      refine ⟨q, notifications w g b, hnotified, rfl, ?_, ?_⟩
      · rw [hq, hcalled, callsOf_notifying]
      · simp [hq, notifying]
  | threw hres =>
      rw [hres] at hq
      exact hq.elim
  | @failed res thrown' hres hc =>
      rw [hres] at hq
      dsimp only at hq
      have hnone : ¬ ∃ c, FindsConnection t c := by
        intro hfound
        rcases commitCalls_owned w.succeeds (TransactionStepNotify.needCommit res b) howned with
          ⟨_, _, _, hok⟩ | ⟨hnot, _⟩
        · rw [hc] at hok
          cases hok
        · obtain ⟨c, hfinds⟩ := hfound
          exact hbound ⟨c, hfinds⟩ (hnot c hfinds).2
      refine ⟨q, notifications w g b ++ [.ended], ?_, rfl, ?_, ?_⟩
      · rw [hnotified, sentOf_append]
        simp [sentOf]
      · rw [hq, callsOf_commit_none (connection_of_ne fun heq => hnone (hcapture.mp heq)),
          calledOf_append, hcalled]
        rfl
      · simp [hq]
  | @ended res calls hres hc =>
      rw [hres] at hq
      dsimp only at hq
      rcases commitCalls_owned w.succeeds (TransactionStepNotify.needCommit res b) howned with
        ⟨c, hfinds, _, hok⟩ | ⟨_, _, herr⟩
      · rw [hc] at hok
        obtain rfl := Except.ok.inj hok
        obtain rfl := hcapture.mpr ⟨c, hfinds⟩
        refine ⟨q, notifications w g b
          ++ ((LcnCommitor.calls w.succeeds (TransactionStepNotify.needCommit res b)).map
            fun call => (c, call)).map TcThread.rawMark ++ [.ended], ?_, by simp, ?_, ?_⟩
        · rw [hnotified, sentOf_append, sentOf_append, sentOf_rawMarks]
          simp [sentOf]
        · rw [hq, callsOf_commit rfl, calledOf_append, calledOf_append, hcalled, calledOf_rawMarks]
          simp [calledOf, Function.comp_def]
        · simp [hq]
      · rw [hc] at herr
        cases herr

/-- Having come to its end step, the thread goes on as its participant does. -/
theorem plays_of_beforeEnd {how : Exit} (h : BeforeEnd w body t u how) (hg : w.groupId = some g)
    (hb : outcome t.allocated how u = some b) (hnotify : ∀ reply ∈ w.notify, ComesBack reply)
    (hmarks : u.marks = t.marks ++ ms) (hcalled : calledOf ms = []) (capture : Capture)
    (hcapture : capture = .captured ↔ ∃ c, FindsConnection u c)
    (hbound : (∃ c, FindsConnection u c) → u.jdbcTransaction ≠ none)
    (thrown : Option TxException) {first : List Turn}
    (hfirst : exec Played.step (Participant.creator g, []) first
      = some (notifying g b capture thrown, sentOf ms ++ [.notify (.new (some g) b)])) :
    ∃ q, exec Played.step (Participant.creator g, []) (first ++ notifyTurns w b)
        = some (q, sentOf (since t (invoke w body t).1))
      ∧ callsOf q = calledOf (since t (invoke w body t).1)
      ∧ (q.pc = .ended ↔ (invoke w body t).2 ≠ none) := by
  rcases h.told with ⟨hno | hno, _⟩ | ⟨b', g', hb', hg', htold⟩
  · rw [hb] at hno; cases hno
  · rw [hg] at hno; cases hno
  · rw [hb] at hb'
    cases hb'
    rw [hg] at hg'
    cases hg'
    obtain ⟨_, hjdbc, _, hmarks', _⟩ := noted_keeps t.allocated how u
    have hsame : (∃ c, FindsConnection (noted t.allocated how u) c) ↔ ∃ c, FindsConnection u c :=
      exists_congr fun c => finds_noted
    obtain ⟨q, ns, hexec, hns, hcalls, hended⟩ := plays_told htold h.owned hnotify
      (hcapture.trans hsame.symm) (fun hfound => by rw [hjdbc]; exact hbound (hsame.mp hfound))
      thrown (sentOf ms)
    have hsince : since t (invoke w body t).1 = ms ++ ns := by
      rw [since, hns, hmarks', hmarks, List.append_assoc, List.drop_left]
    refine ⟨q, ?_, ?_, hended⟩
    · rw [exec_append, hfirst, Option.bind_some, hexec, hsince, sentOf_append]
    · rw [hcalls, hsince, calledOf_append, hcalled, List.nil_append]

theorem captureOf_eq_captured {jdbcTransaction : Option JdbcTransaction} {context : JdbcContext} :
    captureOf jdbcTransaction context g = .captured ↔ ∃ c, context g = some c := by
  unfold captureOf
  cases context g with
  | none => cases jdbcTransaction <;> simp
  | some c => simp

/--
**A thread that begins a transaction plays the creator.** Let a participant be
answered as the thread is: its create and its notifications by the replies that
the world has for them, its business by the end of the thread's. Then what the
thread asks of the TM and calls on a raw connection is what the participant does,
which ends when the thread comes back.
-/
theorem creator_plays (w : World) (body : Business) (t : TcThread) (hidle : t.current = none)
    (hg : w.groupId = some g) (hfresh : t.context g = none) (hflat : Flat body)
    (hcreate : ComesBack w.create) (hnotify : ∀ reply ∈ w.notify, ComesBack reply) :
    ∃ q, exec Played.step (Participant.creator g, []) (creatorTurns w body g t)
        = some (q, sentOf (since t (invoke w body t).1))
      ∧ callsOf q = calledOf (since t (invoke w body t).1)
      ∧ (q.pc = .ended ↔ (invoke w body t).2 ≠ none) := by
  obtain ⟨hi, hin, hmarks, hstate⟩ := enter_fresh hidle hg
  have hcontext : (enter w t).2.context = t.context := by
    simp only [enter, hidle]
    rfl
  have hbegin := tryBeginTransaction_create (w := w) hstate hin.groupId
  unfold creatorTurns afterBusiness
  cases hres : w.create with
  | threw written => exact absurd hres (hcreate written)
  | lost =>
      have hatt : attempt w (enter w t).1 body.run (enter w t).2
          = ((enter w t).2.marked [.sent (.create (.new (some g)))],
            some (.exception (some ⟨"create transaction fail."⟩))) := by
        rw [attempt, hi, hbegin]
        simp [hres, TransactionStepCreate.ends, TcThread.written]
      -- nothing is kept yet for a group that has just been made
      have hnone : ¬ ∃ c, FindsConnection
          ((enter w t).2.marked [.sent (.create (.new (some g)))]) c := by
        rintro ⟨c, j, g', hj, hg', hc⟩
        rw [TcThread.marked_current, hin.current] at hj
        cases hj
        rw [TcThread.marked_infos, hin.groupId] at hg'
        cases hg'
        rw [show ((enter w t).2.marked _).context g = none from
          (congrFun hcontext g).trans hfresh] at hc
        cases hc
      exact plays_of_beforeEnd (beforeEnd hidle hatt) hg rfl hnotify
        (by rw [TcThread.marked_marks, hmarks]) rfl .unopened (by simp [hnone])
        (fun hfound => absurd hfound hnone) (some ⟨"create transaction fail."⟩) rfl
  | answered res =>
      obtain ⟨u, how, ms, hrun, hhow, hms, hunseen, hcurrent, hkeeps⟩ :=
        flat_run body ((enter w t).2.marked [.sent (.create (.new (some g)))]) hflat
      have hatt : attempt w (enter w t).1 body.run (enter w t).2 = (u, some how) := by
        rw [attempt, hi, hbegin]
        simpa [hres, TransactionStepCreate.ends, TcThread.written] using hrun
      have hb : outcome t.allocated how u = some (decide (some how = some .returned)) := by
        cases how with
        | returned => rfl
        | exception thrown => rfl
        | error => exact absurd rfl hhow
      have hbefore : u.marks = t.marks ++ (.sent (.create (.new (some g))) :: ms) := by
        rw [hms, TcThread.marked_marks, hmarks, List.append_assoc, List.singleton_append]
      have hbeforeEnd := beforeEnd hidle hatt
      have hfinds : ∀ c, FindsConnection u c ↔ u.context g = some c := by
        intro c
        have hcur : u.current = some t.allocated := hcurrent.trans hin.current
        simp [FindsConnection, hcur, hbeforeEnd.groupId, hg]
      have hown : KeepsOwn g u :=
        hkeeps g fun hne => absurd ((congrFun hcontext g).trans hfresh) hne
      dsimp only
      rw [hatt]
      refine plays_of_beforeEnd hbeforeEnd hg hb hnotify hbefore hunseen.called
        (captureOf u.jdbcTransaction u.context g) ?_ ?_ none ?_
      · rw [captureOf_eq_captured]
        exact exists_congr fun c => (hfinds c).symm
      · rintro ⟨c, hfound⟩
        exact hown (by rw [(hfinds c).mp hfound]; simp)
      · have hsentAll : sentOf (.sent (.create (.new (some g))) :: ms)
            = [.create (.new (some g))] :=
          congrArg (Message.create (.new (some g)) :: ·) hunseen.sent
        rw [hsentAll]
        rfl

/-! ## A joiner -/

/-- A joiner while it waits for the result of its join. -/
def joining (g : String) (success : Bool) (capture : Capture) : Participant where
  transactionInfo :=
    { groupId := some g, transactionState := .JOIN, successReturn := some success }
  pc := .joining
  jdbcTransaction := capture.jdbcTransaction
  connection := capture.connection

/-- What the commitor of a thread calls, if it gets as far as looking for a connection. -/
theorem commit_rawMarks (succeeds : RawCall → Bool) (d : Bool) (hi : t.current = some i)
    (hlcn : (t.infos i).transactionType = some "lcn") (hg : (t.infos i).groupId = some g)
    (hbound : d = true → t.jdbcTransaction ≠ none) : ∃ calls : List (Nat × RawCall × Bool),
      (t.commit succeeds d).1 = t.marked (calls.map TcThread.rawMark)
      ∧ calls.map Prod.snd
        = if (t.context g).isSome = true then LcnCommitor.calls succeeds d else [] := by
  rcases TcThread.commitCalls_lcn succeeds d hi hlcn hg with ⟨c, hc, _, hok⟩ | ⟨hwhy, thrown, herr⟩
  · exact ⟨_, by rw [TcThread.commit_ok hok], by simp [hc, Function.comp_def]⟩
  · have hnone : t.context g = none := hwhy.resolve_right fun hnull => hbound hnull.1 hnull.2
    exact ⟨[], by rw [TcThread.commit_error herr, List.map_nil, TcThread.marked_nil],
      by simp [hnone]⟩

/-- The participant that has left its connection like that makes these calls. -/
theorem callsOf_captureOf {jdbcTransaction : Option JdbcTransaction} {context : JdbcContext}
    (hp : p.connection = (captureOf jdbcTransaction context g).connection) (d : Bool) :
    callsOf (p.commit succeeds d)
      = if (context g).isSome = true then LcnCommitor.calls succeeds d else [] := by
  by_cases hsome : (context g).isSome = true
  · rw [if_pos hsome]
    exact callsOf_commit (hp.trans (by simp [captureOf, hsome, Capture.connection])) d
  · rw [if_neg hsome]
    refine callsOf_commit_none (hp.trans (connection_of_ne ?_)) d
    rw [Ne, captureOf_eq_captured, ← Option.isSome_iff_exists]
    exact hsome

/-- Whoever has a `JdbcTransaction` has opened a connection. -/
theorem jdbcTransaction_captureOf (jdbcTransaction : JdbcTransaction) (context : JdbcContext) :
    (captureOf (some jdbcTransaction) context g).jdbcTransaction = true := by
  unfold captureOf
  split <;> rfl

/-- The end step of a joiner on a thread. -/
theorem finish_joining (exit : Exit) (hi : t.current = some i)
    (hs : (t.infos i).transactionState = .JOIN) (hg : (t.infos i).groupId = some g)
    (hlcn : (t.infos i).transactionType = some "lcn") :
    (w.join = .lost → ∃ calls : List (Nat × RawCall × Bool),
        (finish w i exit t).1.marks = t.marks
          ++ (.sent (.join (.new (some g))) :: (calls.map TcThread.rawMark ++ [.ended]))
        ∧ calls.map Prod.snd
          = if (t.context g).isSome = true then LcnCommitor.calls w.succeeds false else [])
      ∧ ∀ res, w.join = .answered res → (finish w i exit t).1.marks = t.marks
        ++ [.sent (.join (.new (some g))), .executeJoin (t.infos i) t.jdbcTransaction, .ended] := by
  have hend : TransactionContext.tryEndTransaction w i t
      = ((TransactionStepJoin.run w i t).1, some (TransactionStepJoin.run w i t).2) := by
    simp [TransactionContext.tryEndTransaction, hs]
  have hmarks : (finish w i exit t).1.marks
      = (TransactionStepJoin.run w i t).1.marks ++ [.ended] := by
    rw [finish, hend]
    generalize (TransactionStepJoin.run w i t).2 = ended
    cases ended <;> rfl
  rw [hmarks]
  unfold TransactionStepJoin.run
  rw [hg, TcThread.requestMsg_of_group rfl]
  refine ⟨fun hlost => ?_, fun res hres => ?_⟩
  · rw [hlost]
    obtain ⟨calls, hms, hcalls⟩ :=
      commit_rawMarks (t := t.marked [.sent (.join (.new (some g)))]) w.succeeds false hi hlcn hg
        (by simp)
    refine ⟨calls, ?_, hcalls⟩
    simp only [TcThread.got, TcThread.written]
    split <;> rename_i hc <;> rw [hc] at hms <;> dsimp only at hms <;> simp [hms]
  · rw [hres]
    simp [TcThread.got, TcThread.written]

/-- The answer to its join lets a joiner wait, if it has opened a connection. -/
theorem step_answered (hopened : capture.jdbcTransaction = true) (b : Bool)
    (res : TransactionJoinEvent) : Played.step (joining g b capture, messages)
        (.result succeeds (some (.join res)))
      = some ({ joining g b capture with pc := .waiting }, messages) := by
  simp [Played.step, joining, Participant.resume, Participant.joined, hopened, Played.advance]

/-- The task that a joiner leaves behind does what the joiner does with the decision. -/
theorem plays_task (b : Bool) (a : JoinWait) (task : Task) (hg : task.1.groupId = some g)
    (hlcn : task.1.transactionType = some "lcn") (res : TransactionJoinEvent)
    {jdbcTransaction : JdbcTransaction} (hbound : task.2 = some jdbcTransaction)
    (messages : List Message) : ∃ q,
      exec Played.step (joining g b (captureOf (some jdbcTransaction) a.context g), messages)
          [.result a.succeeds (some (.join res)),
            .decided a.succeeds (a.arrivals.find? fun event => event.messageId = some g)]
        = some (q, messages)
      ∧ q.pc = .ended ∧ callsOf q = calledOf (a.run task).marks := by
  obtain ⟨info, _⟩ := task
  obtain rfl := hbound
  rw [exec_cons, step_answered (jdbcTransaction_captureOf jdbcTransaction a.context),
    Option.bind_some, exec_singleton]
  unfold JoinWait.run TransactionStepJoin.executeJoin
  dsimp only at hg hlcn ⊢
  rw [hg]
  dsimp only
  cases a.arrivals.find? fun event => event.messageId = some g with
  | none =>
      refine ⟨{ joining g b (captureOf (some jdbcTransaction) a.context g) with pc := .ended },
        by simp [Played.step, Participant.decided, Played.advance], rfl, ?_⟩
      generalize captureOf (some jdbcTransaction) a.context g = capture
      cases capture <;> rfl
  | some event =>
      obtain ⟨calls, hms, hcalls⟩ := commit_rawMarks (i := 0) (g := g)
        (t := ({ jdbcTransaction := some jdbcTransaction, context := a.context } :
          TcThread).push info) a.succeeds event.commit rfl
        (by simpa [TcThread.push] using hlcn) (by simpa [TcThread.push] using hg)
        (fun _ => by simp [TcThread.push])
      refine ⟨({ joining g b (captureOf (some jdbcTransaction) a.context g) with
          pc := .waiting } : Participant).commit a.succeeds event.commit,
        by simp [Played.step, Participant.decided, Played.advance], Participant.commit_pc _, ?_⟩
      dsimp only
      rw [TcThread.clearTransaction_marks, hms]
      show _ = calledOf (calls.map TcThread.rawMark)
      rw [calledOf_rawMarks, hcalls]
      exact callsOf_captureOf rfl _

/-- Without a `JdbcTransaction` the task does nothing, and nothing is left of the joiner to do. -/
theorem plays_task_unbound (b : Bool) (a : JoinWait) (task : Task) (hbound : task.2 = none)
    (res : TransactionJoinEvent) (messages : List Message) : ∃ q,
      exec Played.step (joining g b .unopened, messages) [.result a.succeeds (some (.join res))]
        = some (q, messages)
      ∧ q.pc = .ended ∧ callsOf q = calledOf (a.run task).marks := by
  refine ⟨{ joining g b .unopened with pc := .ended }, ?_, rfl, ?_⟩
  · simp [exec_singleton, Played.step, joining, Participant.resume, Participant.joined,
      Capture.jdbcTransaction, Played.advance]
  · obtain ⟨info, _⟩ := task
    obtain rfl := hbound
    rfl

/--
**A thread that has been called with a group plays a joiner**, together with the
task it leaves behind, whatever that task meets. Let a participant be answered as
the two are: its join by the reply that the world has for it, its business by the
end of the thread's, and its wait by the first event that arrives at the task
under the group. Nothing is left of the joiner to do when both have ended.
-/
theorem joiner_plays (w : World) (body : Business) (h : Joining t i g) (hflat : Flat body)
    (hjoin : ComesBack w.join) (a : JoinWait) :
    ∃ q, exec Played.step (Participant.joiner g, []) (joinerTurns w body g a t)
        = some (q, sentOf (since t (invoke w body t).1))
      ∧ q.pc = .ended
      ∧ callsOf q = calledOf (since t (invoke w body t).1)
        ++ (tasksOf (since t (invoke w body t).1)).flatMap
          fun task => calledOf (a.run task).marks := by
  have hobject : (enter w t).1 = i := by simp [enter, h.current]
  have henter : (enter w t).2.current = some i := by
    simp only [enter, h.current]
    exact h.current
  have hstate : ((enter w t).2.infos i).transactionState ≠ .CREATE := by
    simp [enter, h.current, h.state]
  obtain ⟨u, how, ms, hrun, _, hms, hunseen, hcurrent, _⟩ := flat_run body (enter w t).2 hflat
  have hatt : attempt w i body.run (enter w t).2 = (u, some how) := by
    rw [attempt, tryBeginTransaction_else hstate]
    exact hrun
  obtain ⟨hs, hg, hlcn⟩ := joining_attempt h hatt
  obtain ⟨hm, hj, hs', hg', hlcn'⟩ := note_keeps i how u
  have hcontext : (note i how u).context = u.context := by cases how <;> rfl
  have hi : (note i how u).current = some i := by
    have hsame : (note i how u).current = u.current := by cases how <;> rfl
    rw [hsame, hcurrent, henter]
  obtain ⟨hlost, hanswered⟩ := finish_joining (w := w) how hi (hs'.trans hs)
    (hg'.trans hg) (hlcn'.trans hlcn)
  have hbefore : since t u = ms := by
    rw [since, hms, enter_marks, List.drop_left]
  unfold joinerTurns afterBusiness
  rw [hobject, hatt]
  dsimp only
  generalize (decide (some how = some Exit.returned)) = b
  cases hres : w.join with
  | threw written => exact absurd hres (hjoin written)
  | lost =>
      obtain ⟨calls, hfinish, hcalls⟩ := hlost hres
      have hsince := since_invoke h hatt (hfinish.trans (congrArg (· ++ _) hm))
      rw [hbefore] at hsince
      have htasks : tasksOf (since t (invoke w body t).1) = [] := by
        rw [hsince, tasksOf_append, hunseen.tasks]
        show tasksOf (calls.map TcThread.rawMark ++ [.ended]) = []
        rw [tasksOf_append, tasksOf_rawMarks]
        rfl
      have hsent : sentOf (since t (invoke w body t).1) = [.join (.new (some g))] := by
        rw [hsince, sentOf_append, hunseen.sent]
        show Message.join (.new (some g)) :: sentOf (calls.map TcThread.rawMark ++ [.ended]) = _
        rw [sentOf_append, sentOf_rawMarks]
        rfl
      refine ⟨((joining g b (captureOf u.jdbcTransaction u.context g)).joined w.succeeds none).1,
        ?_, ?_, ?_⟩
      · rw [hsent]
        rfl
      · exact Participant.commit_pc false
      · rw [htasks, List.flatMap_nil, List.append_nil, hsince, calledOf_append, hunseen.called]
        show _ = calledOf (calls.map TcThread.rawMark ++ [.ended])
        rw [calledOf_append, calledOf_rawMarks, hcalls, hcontext]
        exact (callsOf_captureOf rfl false).trans (List.append_nil _).symm
  | answered res =>
      have hfinish := hanswered res hres
      have hsince := since_invoke h hatt (hfinish.trans (congrArg (· ++ _) hm))
      rw [hbefore] at hsince
      have hsent : sentOf (since t (invoke w body t).1) = [.join (.new (some g))] := by
        rw [hsince, sentOf_append, hunseen.sent]
        rfl
      have hcalled : calledOf (since t (invoke w body t).1) = [] := by
        rw [hsince, calledOf_append, hunseen.called]
        rfl
      have htasks : tasksOf (since t (invoke w body t).1)
          = [((note i how u).infos i, u.jdbcTransaction)] := by
        rw [hsince, tasksOf_append, hunseen.tasks, hj]
        rfl
      rw [hsent, hcalled, htasks, List.nil_append, List.flatMap_cons, List.flatMap_nil,
        List.append_nil]
      cases hbound : u.jdbcTransaction with
      | none =>
          exact plays_task_unbound b a ((note i how u).infos i, none) rfl res
            [.join (.new (some g))]
      | some jdbcTransaction =>
          exact plays_task b a ((note i how u).infos i, some jdbcTransaction) (hg'.trans hg)
            (hlcn'.trans hlcn) res rfl [.join (.new (some g))]

/-! ## A transaction of two threads -/

/-- The first notification is lost. -/
def oneLost : World where
  groupId := some "g"
  create := .answered (.new (some "g"))
  notify := [.lost, .answered (.new (some "g") true)]
  join := .answered (.new (some "g"))
  succeeds := fun _ => true

/-- A connection is taken and its commit is called. -/
def commitsOnce : Business :=
  .jdbc (.getConnection 7) fun _ => .jdbc (.commit true) fun _ => .ends .returned

theorem flat_commitsOnce : Flat commitsOnce := fun _ _ => by simp [Flat]

theorem creator_notifies_twice : ∃ q,
    exec Played.step (Participant.creator "g", []) (creatorTurns oneLost commitsOnce "g" {})
        = some (q, [.create (.new (some "g")), .notify (.new (some "g") true),
          .notify (.new (some "g") true)])
      ∧ callsOf q = [(.delete, true), (.commit, true), (.close, true)] ∧ q.pc = .ended := by
  obtain ⟨q, hexec, hcalls, hended⟩ :=
    creator_plays (g := "g") oneLost commitsOnce {} rfl rfl rfl flat_commitsOnce
      (fun written => by simp [oneLost]) (by simp [ComesBack, oneLost])
  exact ⟨q, hexec, hcalls, hended.mpr (by decide)⟩

/-- What the task meets: the event it waits for, and the connection. -/
def toldToCommit : JoinWait where
  arrivals := [{ TransactionCommitEvent.new (some "g") true with messageId := some "g" }]
  context := fun _ => some 7
  succeeds := fun _ => true

theorem joiner_told_to_commit : ∃ q,
    exec Played.step (Participant.joiner "g", [])
        (joinerTurns oneLost commitsOnce "g" toldToCommit
          (RpcTransactionContext.invoke (some "g") {})) = some (q, [.join (.new (some "g"))])
      ∧ q.pc = .ended ∧ callsOf q = [(.delete, true), (.commit, true), (.close, true)] := by
  obtain ⟨q, hexec, hended, hcalls⟩ := joiner_plays oneLost commitsOnce
    (joining_invoke (t := {}) (g := "g") rfl (by decide)) flat_commitsOnce
    (fun written => by simp [oneLost]) toldToCommit
  exact ⟨q, hexec, hended, hcalls⟩

end TxLcn.Proof
