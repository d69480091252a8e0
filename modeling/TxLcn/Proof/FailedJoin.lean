import TxLcn.Proof.Nesting

/-!
# What becomes of a joiner whose business has failed

How the business has ended is set in the `TransactionInfo` before the end step.
The end step of a creator reads it; that of a joiner does not, nor does the task
that the joiner leaves behind, which does what the event says. And a rollback on
the proxy keeps the connection as a commit does.
-/

namespace TxLcn.Proof

open TxLcn.Tc TxLcn.Protocol TransactionAspectContext

variable {t u : TcThread} {w : World} {body : Business} {i : Nat} {g : String} {exit : Exit}
  {c : Nat} {b d : Bool} {succeeds : RawCall → Bool}

/-- The thread is in a transaction of that group which it has joined. -/
structure Joining (t : TcThread) (i : Nat) (g : String) : Prop where
  current : t.current = some i
  allocated : i < t.allocated
  groupId : (t.infos i).groupId = some g
  state : (t.infos i).transactionState = .JOIN

/-- It has been called with the group in its header. -/
theorem joining_invoke (hclean : t.current = none) (hg : g ≠ "") :
    Joining (RpcTransactionContext.invoke (some g) t) t.allocated g := by
  unfold RpcTransactionContext.invoke
  rw [hclean]
  dsimp only
  rw [if_neg hg]
  exact ⟨rfl, Nat.lt_succ_self _, by simp [TransactionInfo.ofGroup],
    by simp [TransactionInfo.ofGroup]⟩

/-- The business comes to call `rollback()` on a proxy. -/
inductive RollsBack : Business → TcThread → Prop where
  | here {next : Exit → Business} {t : TcThread} : RollsBack (.jdbc .rollback next) t
  | code {next : Business} {t : TcThread} : RollsBack next (t.marked [.code]) →
      RollsBack (.code next) t
  | jdbc {op : JdbcOp} {next : Exit → Business} {t : TcThread} :
      RollsBack (next (op.run (t.marked [.code])).2) (op.run (t.marked [.code])).1 →
      RollsBack (.jdbc op next) t
  | outbound {how : Exit} {next : Exit → Business} {t : TcThread} :
      RollsBack (next (t.outbound how).2) (t.outbound how).1 → RollsBack (.outbound how next) t
  | inside {w : World} {body : Business} {next : Exit → Business} {t : TcThread} :
      RollsBack body t → RollsBack (.call false w body next) t
  | after {annotated : Bool} {w : World} {body : Business} {next : Exit → Business}
      {t u : TcThread} {e : Exit} : runWithTransaction annotated w body.run t = (u, some e) →
      RollsBack (next e) u → RollsBack (.call annotated w body next) t

/-- What the task of a joiner meets. -/
structure JoinWait where
  /-- The events that arrive while it waits. -/
  arrivals : List TransactionCommitEvent
  context : JdbcContext
  succeeds : RawCall → Bool

/-- A task, by what has been handed over. -/
abbrev Task := TransactionInfo × Option JdbcTransaction

def JoinWait.run (a : JoinWait) (task : Task) : TcThread :=
  TransactionStepJoin.executeJoin a.succeeds task.1 task.2 a.context a.arrivals

/-- What the thread has done since it was `t`. -/
def since (t u : TcThread) : List Mark := u.marks.drop t.marks.length

/--
No `commit` is called on the connection kept for the group, neither while the
method is invoked nor by a task that has been handed over meanwhile.
-/
def NeverCommits (t : TcThread) (w : World) (g : String) (body : Business) (u : TcThread)
    (waits : Task → JoinWait) : Prop :=
  ∀ c b, u.context g = some c → .raw c .commit b ∉ since t (invoke w body t).1
    ∧ ∀ task : Task, .executeJoin task.1 task.2 ∈ since t (invoke w body t).1 →
      .raw c .commit b ∉ ((waits task).run task).marks

/--
The task has a connection to commit: an event says so, the connection is the one
kept for the group then, and the log rows can be deleted.
-/
structure TaskCommits (a : JoinWait) (task : Task) (c : Nat) : Prop where
  bound : task.2 ≠ none
  lcn : task.1.transactionType = some "lcn"
  decided : ∃ g event, task.1.groupId = some g
    ∧ (a.arrivals.find? fun event => event.messageId = some g) = some event
    ∧ event.commit = true ∧ a.context g = some c
  deleted : a.succeeds .delete = true

/-- What the end of the invocation hands over, from where the business has left the thread. -/
def lastTask (i : Nat) (exit : Exit) (u : TcThread) : Task :=
  ((note i exit u).infos i, u.jdbcTransaction)

/-- The join is answered and its task has something to commit, or an inner invocation has. -/
def ReachesCommit (t : TcThread) (w : World) (i : Nat) (g : String) (exit : Exit) (u : TcThread)
    (waits : Task → JoinWait) : Prop :=
  ∃ c, u.context g = some c
    ∧ ((∃ res, w.join = .answered res)
          ∧ TaskCommits (waits (lastTask i exit u)) (lastTask i exit u) c
      ∨ (∃ b, .raw c .commit b ∈ since t u)
      ∨ ∃ task : Task, .executeJoin task.1 task.2 ∈ since t u ∧ TaskCommits (waits task) task c)

/-! ## The end step -/

/-- The commitor makes none but the calls of `LcnCommitor`. -/
theorem mem_commitCalls {calls : List (Nat × RawCall × Bool)}
    (h : t.commitCalls succeeds d = .ok calls) :
    ∀ call ∈ calls, call.2 ∈ LcnCommitor.calls succeeds d := by
  unfold TcThread.commitCalls TransactionCommitorStrategy.commit at h
  intro call hcall
  split at h
  · cases h
  · split at h
    · split at h
      · cases h
      · split at h
        · cases h
        · split at h
          · cases h
          · rw [LcnCommitor.commit_some] at h
            cases h
            obtain ⟨call', hcall', rfl⟩ := List.mem_map.mp hcall
            exact hcall'
    · cases h
      cases hcall

/-- To roll back is to call no `commit`. -/
theorem not_mem_rawMark_false {calls : List (Nat × RawCall × Bool)}
    (h : t.commitCalls succeeds false = .ok calls) :
    .raw c .commit b ∉ calls.map TcThread.rawMark := by
  intro hmem
  obtain ⟨call, hcall, heq⟩ := List.mem_map.mp hmem
  -- without the decision to commit the calls are `rollback` and `close`
  have hraw := mem_commitCalls h call hcall
  obtain ⟨c', k, s⟩ := call
  cases heq
  simp [LcnCommitor.calls] at hraw

/-- The end step of a joiner, by the reply it gets. -/
theorem finish_join (w : World) (exit : Exit) (hs : (t.infos i).transactionState = .JOIN)
    (hg : (t.infos i).groupId = some g) :
    ∃ ms, (finish w i exit t).1.marks = t.marks ++ ms ∧ (∀ c b, .raw c .commit b ∉ ms)
      ∧ ∀ info jdbcTransaction, .executeJoin info jdbcTransaction ∈ ms
        ↔ (∃ res, w.join = .answered res) ∧ info = t.infos i
          ∧ jdbcTransaction = t.jdbcTransaction := by
  have hend : TransactionContext.tryEndTransaction w i t
      = ((TransactionStepJoin.run w i t).1, some (TransactionStepJoin.run w i t).2) := by
    simp [TransactionContext.tryEndTransaction, hs]
  rw [finish, hend]
  unfold TransactionStepJoin.run
  rw [hg, TcThread.requestMsg_of_group rfl]
  cases hjoin : w.join with
  | threw written => cases written <;> simp [TcThread.written, TcThread.got]
  | lost =>
      -- without an answer the commitor is run at once, to roll back
      simp only [TcThread.written, TcThread.got]
      cases hc : t.commitCalls w.succeeds false with
      | error thrown =>
          rw [TcThread.commit_error (by rw [TcThread.commitCalls_marked, hc])]
          simp
      | ok calls =>
          rw [TcThread.commit_ok (by rw [TcThread.commitCalls_marked, hc])]
          refine ⟨.sent (.join (.new (some g))) :: calls.map TcThread.rawMark ++ [.ended],
            by simp, fun c b hmem => ?_, by simp [TcThread.rawMark]⟩
          simp only [List.cons_append, List.mem_cons, reduceCtorEq, List.mem_append,
            List.not_mem_nil, or_false, false_or] at hmem
          exact not_mem_rawMark_false hc hmem
  | answered res => simp [TcThread.written, TcThread.got]

/-- The commitor comes to commit if it is to, and can delete the rows. -/
theorem exists_commit_mem_calls :
    (∃ b, (.commit, b) ∈ LcnCommitor.calls succeeds d) ↔ d = true ∧ succeeds .delete = true := by
  cases d with
  | false => simp [LcnCommitor.calls]
  | true => cases hdelete : succeeds .delete <;> simp [LcnCommitor.calls, hdelete]

/-- What it takes the commitor of an LCN transaction to commit. -/
theorem mem_commit_lcn (hi : t.current = some i) (hlcn : (t.infos i).transactionType = some "lcn")
    (hg : (t.infos i).groupId = some g) (hbound : t.jdbcTransaction ≠ none)
    (hmarks : t.marks = []) :
    (∃ b, .raw c .commit b ∈ (t.commit succeeds d).1.marks)
      ↔ d = true ∧ t.context g = some c ∧ succeeds .delete = true := by
  rcases TcThread.commitCalls_lcn succeeds d hi hlcn hg with
    ⟨c', hc', _, heq⟩ | ⟨hwhy, thrown, heq⟩
  · rw [TcThread.commit_ok heq, TcThread.marked_marks, hmarks, List.nil_append]
    have hmem : ∀ b, .raw c .commit b
        ∈ ((LcnCommitor.calls succeeds d).map fun call => (c', call)).map TcThread.rawMark
        ↔ c' = c ∧ (.commit, b) ∈ LcnCommitor.calls succeeds d := by
      intro b
      constructor
      · intro h
        obtain ⟨_, h, hcall⟩ := List.mem_map.mp h
        obtain ⟨⟨k, s⟩, hk, rfl⟩ := List.mem_map.mp h
        cases hcall
        exact ⟨rfl, hk⟩
      · rintro ⟨rfl, hk⟩
        exact List.mem_map.mpr ⟨_, List.mem_map.mpr ⟨_, hk, rfl⟩, rfl⟩
    simp only [hmem, exists_and_left, exists_commit_mem_calls, hc', Option.some_inj]
    tauto
  · have hnone : t.context g = none := by
      rcases hwhy with hno | ⟨_, hnull⟩
      · exact hno
      · exact absurd hnull hbound
    rw [TcThread.commit_error heq, hmarks]
    simp [hnone]

/-- What is left of the condition, with the event that has been found. -/
theorem taskCommits_iff_of_found {a : JoinWait} {info : TransactionInfo} {j : JdbcTransaction}
    {g : String} {event : TransactionCommitEvent} (hg : info.groupId = some g)
    (hfind : (a.arrivals.find? fun event => event.messageId = some g) = some event) :
    TaskCommits a (info, some j) c
      ↔ info.transactionType = some "lcn" ∧ event.commit = true ∧ a.context g = some c
        ∧ a.succeeds .delete = true := by
  constructor
  · rintro ⟨_, hlcn, ⟨g', event', hg', hfind', hcommit, hc⟩, hdelete⟩
    rw [hg] at hg'
    cases hg'
    rw [hfind] at hfind'
    cases hfind'
    exact ⟨hlcn, hcommit, hc, hdelete⟩
  · rintro ⟨hlcn, hcommit, hc, hdelete⟩
    exact ⟨by simp, hlcn, ⟨g, event, hg, hfind, hcommit, hc⟩, hdelete⟩

/-- The task commits exactly if an event that says so is found, and it gets so far. -/
theorem mem_run {a : JoinWait} {task : Task} :
    (∃ b, .raw c .commit b ∈ (a.run task).marks) ↔ TaskCommits a task c := by
  obtain ⟨info, jdbcTransaction⟩ := task
  unfold JoinWait.run TransactionStepJoin.executeJoin
  cases jdbcTransaction with
  | none => exact iff_of_false (by simp) fun h => h.bound rfl
  | some j =>
  cases hg : info.groupId with
  | none => exact iff_of_false (by simp) fun ⟨_, _, ⟨g, _, hg', _⟩, _⟩ => by simp [hg] at hg'
  | some g =>
  dsimp only
  cases hfind : a.arrivals.find? fun event => event.messageId = some g with
  | none =>
      refine iff_of_false (by simp) fun ⟨_, _, ⟨g', _, hg', hfind', _⟩, _⟩ => ?_
      rw [hg] at hg'
      cases hg'
      rw [hfind] at hfind'
      cases hfind'
  | some event =>
  rw [taskCommits_iff_of_found hg hfind]
  simp only [TcThread.clearTransaction_marks]
  by_cases hlcn : info.transactionType = some "lcn"
  · rw [mem_commit_lcn (i := 0) (g := g) rfl hlcn hg (by simp [TcThread.push]) rfl,
      and_iff_right hlcn]
    rfl
  · -- a transaction of another type is nobody's
    have hnothing : (TcThread.push { jdbcTransaction := some j, context := a.context }
        info).commitCalls a.succeeds event.commit = .ok [] := by
      simp [TcThread.commitCalls, TcThread.currentInfo, TcThread.push, Except.map,
        TransactionCommitorStrategy.commit, TransactionConstant.LCN, hlcn]
    rw [TcThread.commit_ok hnothing]
    simp [hlcn]

/-! ## The business and the end -/

/-- What the business leaves of the object. -/
theorem joining_attempt (h : Joining t i g)
    (hbody : attempt w i body.run (enter w t).2 = (u, some exit)) :
    (u.infos i).transactionState = .JOIN ∧ (u.infos i).groupId = some g
      ∧ (u.infos i).transactionType = some "lcn" := by
  have henter : (enter w t).2 = t.setTransactionType i TransactionConstant.LCN := by
    unfold enter
    rw [h.current]
  have hframe : TcThread.Frame (enter w t).2 u := by
    have hf := frame_attempt (t := (enter w t).2) (w := w) (i := i) body.frame_run
    rwa [hbody] at hf
  rw [henter] at hframe
  -- the frame holds of the objects that were there before, and `i` is one of them
  have hi : i < (t.setTransactionType i TransactionConstant.LCN).allocated := h.allocated
  refine ⟨?_, ?_, hframe.lcn i hi (by simp [TransactionConstant.LCN])⟩
  · rcases hframe.state i hi with hsame | ⟨hcreate, _⟩
    · rw [hsame, TcThread.setTransactionType_infos_self]
      exact h.state
    · rw [TcThread.setTransactionType_infos_self] at hcreate
      cases hcreate.symm.trans h.state
  · rw [hframe.groupId i hi, TcThread.setTransactionType_infos_self]
    exact h.groupId

/-- To note the outcome changes nothing else. -/
theorem note_keeps (i : Nat) (exit : Exit) (u : TcThread) : (note i exit u).marks = u.marks
    ∧ (note i exit u).jdbcTransaction = u.jdbcTransaction
    ∧ ((note i exit u).infos i).transactionState = (u.infos i).transactionState
    ∧ ((note i exit u).infos i).groupId = (u.infos i).groupId
    ∧ ((note i exit u).infos i).transactionType = (u.infos i).transactionType := by
  cases exit <;> simp [note, TcThread.setSuccessReturn]

/-- The marks of an invocation are those of its business and those of its end. -/
theorem since_invoke (h : Joining t i g)
    (hbody : attempt w i body.run (enter w t).2 = (u, some exit)) {ms : List Mark}
    (hms : (finish w i exit (note i exit u)).1.marks = u.marks ++ ms) :
    since t (invoke w body t).1 = since t u ++ ms := by
  have henter : enter w t = (i, (enter w t).2) := by simp [enter, h.current]
  have hprefix : t.marks <+: u.marks := by
    have hf := frame_attempt (t := (enter w t).2) (w := w) (i := i) body.frame_run
    rw [hbody] at hf
    exact (frame_enter.trans hf).marks
  obtain ⟨ns, hns⟩ := hprefix
  rw [invoke_eq henter hbody, since, since, hms, ← hns, List.append_assoc, List.drop_left,
    List.drop_left]

/--
**No `commit` is called for a joiner exactly when** it does not come to that: the
join is not answered, no connection is kept for it, no event arrives that says
so, or the log rows cannot be deleted; and the same goes for the annotated
methods that its business invokes. How the business has ended is not asked.
-/
theorem failed_join_iff (waits : Task → JoinWait) (h : Joining t i g)
    (hbody : attempt w i body.run (enter w t).2 = (u, some exit)) :
    NeverCommits t w g body u waits ↔ ¬ ReachesCommit t w i g exit u waits := by
  obtain ⟨hs, hg, _⟩ := joining_attempt h hbody
  obtain ⟨hmarks, hjdbc, hs', hg', _⟩ := note_keeps i exit u
  rw [hs] at hs'
  rw [hg] at hg'
  obtain ⟨ms, hfinish, hno, htask⟩ := finish_join w exit hs' hg'
  rw [hmarks] at hfinish
  rw [hjdbc] at htask
  unfold NeverCommits ReachesCommit
  rw [since_invoke h hbody hfinish]
  simp only [List.mem_append]
  -- a mark is one of the business or one of the end, and the end has no `commit` of its own
  constructor
  · intro hnever ⟨c, hc, hcommits⟩
    rcases hcommits with ⟨hanswered, hlast⟩ | ⟨b, hraw⟩ | ⟨task, hmem, htask'⟩
    · obtain ⟨b, hmem⟩ := mem_run.mpr hlast
      exact (hnever c b hc).2 _ (Or.inr ((htask _ _).mpr ⟨hanswered, rfl, rfl⟩)) hmem
    · exact (hnever c b hc).1 (Or.inl hraw)
    · obtain ⟨b, hmem'⟩ := mem_run.mpr htask'
      exact (hnever c b hc).2 task (Or.inl hmem) hmem'
  · intro hnot c b hc
    refine ⟨?_, ?_⟩
    · rintro (hraw | hraw)
      · exact hnot ⟨c, hc, Or.inr (Or.inl ⟨b, hraw⟩)⟩
      · exact hno c b hraw
    · rintro ⟨info, j⟩ (hmem | hmem) hcommit
      · exact hnot ⟨c, hc, Or.inr (Or.inr ⟨_, hmem, mem_run.mp ⟨b, hcommit⟩⟩)⟩
      · obtain ⟨hanswered, rfl, rfl⟩ := (htask info j).mp hmem
        exact hnot ⟨c, hc, Or.inl ⟨hanswered, mem_run.mp ⟨b, hcommit⟩⟩⟩

/-- A world that answers a join. -/
def answering : World where
  groupId := none
  create := .lost
  notify := []
  join := .answered { groupId := some "g", result := some "ok" }
  succeeds _ := true

/-- Called with a group in the header. -/
def calledWithGroup : TcThread := RpcTransactionContext.invoke (some "g") {}

/-- Business that rolls back and throws. -/
def failing : Business :=
  .jdbc (.getConnection 0) fun _ => .jdbc .rollback fun _ => .ends (.exception none)

/-- A joiner that has failed, and is told to commit. -/
def told (event : TransactionCommitEvent) : JoinWait where
  arrivals := [event]
  context g := if g = "g" then some 0 else none
  succeeds _ := true

theorem joining_calledWithGroup : Joining calledWithGroup 0 "g" := joining_invoke rfl (by decide)

/-- An event as a TM sends it does not get into the lock. -/
theorem failed_join_unread : ∃ u,
    attempt answering 0 failing.run (enter answering calledWithGroup).2
        = (u, some (.exception none))
      ∧ NeverCommits calledWithGroup answering "g" failing u fun _ =>
        told (.new (some "g") true) := by
  have hbody : attempt answering 0 failing.run (enter answering calledWithGroup).2
      = ((attempt answering 0 failing.run (enter answering calledWithGroup).2).1,
        some (.exception none)) := rfl
  have hsince : since calledWithGroup
      (attempt answering 0 failing.run (enter answering calledWithGroup).2).1 = [.code, .code] :=
    rfl
  refine ⟨_, hbody, (failed_join_iff _ joining_calledWithGroup hbody).mpr ?_⟩
  rintro ⟨c, _, ⟨_, h⟩ | ⟨b, hraw⟩ | ⟨task, hmem, _⟩⟩
  · obtain ⟨g, event, _, hfind, _⟩ := h.decided
    cases hfind
  · rw [hsince] at hraw
    simp at hraw
  · rw [hsince] at hmem
    simp at hmem

/-- One that gets there makes the joiner commit. -/
theorem not_failed_join : ¬ ∀ (w : World) (t u : TcThread) (i : Nat) (g : String)
    (body : Business) (exit : Exit) (waits : Task → JoinWait), Joining t i g →
    attempt w i body.run (enter w t).2 = (u, some exit) →
    (∃ thrown, exit = .exception thrown) ∨ RollsBack body (enter w t).2 →
    NeverCommits t w g body u waits := by
  intro h
  have hnever := h answering calledWithGroup _ 0 "g" failing (.exception none)
    (fun _ => told { groupId := some "g", messageId := some "g", commit := true })
    joining_calledWithGroup rfl (Or.inl ⟨none, rfl⟩)
  have hlast := (hnever 0 true rfl).2 (lastTask 0 (.exception none)
    (attempt answering 0 failing.run (enter answering calledWithGroup).2).1) ?_
  · exact hlast (by decide)
  · decide

end TxLcn.Proof
