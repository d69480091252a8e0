import TxLcn.Lib.Exec
import TxLcn.Tc.Proxied

/-!
# What is left of the log

The rows of `transaction_log` are saved when the business commits, by a session
that makes them durable at once. They are deleted in the transaction of the
business, if that is committed. The commitor does not delete them when it rolls
back, since they have not been stored, it says.
-/

namespace TxLcn.Proof

open TxLcn.Lib TxLcn.Tc Proxied

variable {β : Type} {s t : Proxied β} {e : Event β} {ids : List Long}

/-- `commit()` has been called on the raw connection, and has thrown. -/
def CommitFailed (s : Proxied β) : Prop := (.commit, false) ∈ s.raw.calls

/-- There are rows only before the decision, or if it could not be committed. -/
def RowsGone (s : Proxied β) : Prop :=
  Written.rows s.session.durable = [] ∨ s.participation.decision = none ∨ CommitFailed s

/--
There is no row when it is decided, or the commitor gets as far as to commit;
and no row is saved after that.
-/
def PutAway (s : Proxied β) : Event β → Prop
  | .commit saved => s.logIds.take saved = [] ∨ s.participation.decision = none ∨ CommitFailed s
  | .decide d succeeds => Written.rows s.session.durable = []
      ∨ d = true ∧ s.context s.participation.groupId ≠ none
        ∧ s.participation.jdbcTransaction ≠ none ∧ succeeds .delete = true
  | _ => True

/-! ## The rows -/

theorem rows_append {xs ys : List (Written β)} :
    Written.rows (xs ++ ys) = ys.foldl Written.apply (Written.rows xs) :=
  List.foldl_append

theorem rows_append_business {xs ys : List (Written β)}
    (h : ∀ w ∈ ys, ∃ change, w = .business change) :
    Written.rows (xs ++ ys) = Written.rows xs := by
  rw [rows_append]
  induction ys with
  | nil => rfl
  | cons w ys ih =>
      obtain ⟨change, rfl⟩ := h w List.mem_cons_self
      exact ih fun w' hmem => h w' (List.mem_cons_of_mem _ hmem)

theorem rows_append_inserted {xs : List (Written β)} :
    Written.rows (xs ++ ids.map .inserted) = Written.rows xs ++ ids := by
  induction ids generalizing xs with
  | nil => simp
  | cons id ids ih =>
      have hstep : Written.rows (xs ++ [Written.inserted id]) = Written.rows xs ++ [id] := by
        rw [rows_append]
        rfl
      rw [List.map_cons, List.append_cons, ih, hstep, List.append_assoc, List.singleton_append]

theorem rows_append_deleted {xs : List (Written β)} (h : ∀ id ∈ Written.rows xs, id ∈ ids) :
    Written.rows (xs ++ [.deleted ids]) = [] := by
  rw [rows_append]
  exact List.filter_eq_nil_iff.mpr fun id hmem => by simpa using h id hmem

/-! ## The session -/

/-- The session has nothing to commit but business, and all rows are among the recorded ones. -/
structure Recorded (ids : List Long) (session : Session (Written β)) : Prop where
  business : ∀ w ∈ session.uncommitted, ∃ change, w = .business change
  rows : ∀ id ∈ Written.rows session.durable, id ∈ ids

variable {session : Session (Written β)}

theorem Recorded.mono {ids' : List Long} (h : Recorded ids session)
    (hsub : ∀ id ∈ ids, id ∈ ids') : Recorded ids' session :=
  ⟨h.business, fun id hid => hsub id (h.rows id hid)⟩

/-- What is written of the business changes no row. -/
theorem Recorded.write {changes : List (Written β)} (h : Recorded ids session)
    (hchanges : ∀ w ∈ changes, ∃ change, w = .business change) :
    Recorded ids (session.write changes) := by
  unfold Session.write
  split
  · exact h
  · split
    · exact ⟨h.business, by rw [rows_append_business hchanges]; exact h.rows⟩
    · refine ⟨fun w hw => ?_, h.rows⟩
      rcases List.mem_append.mp hw with hw | hw
      · exact h.business w hw
      · exact hchanges w hw

theorem Recorded.commit (h : Recorded ids session) : Recorded ids session.commit := by
  unfold Session.commit
  split
  · exact h
  · exact ⟨by simp, by rw [rows_append_business h.business]; exact h.rows⟩

theorem Recorded.setAutoCommit {b : Bool} (h : Recorded ids session) :
    Recorded ids (session.setAutoCommit b) := by
  unfold Session.setAutoCommit
  split
  · exact h
  · exact ⟨h.commit.business, h.commit.rows⟩

theorem Recorded.rollback (h : Recorded ids session) : Recorded ids session.rollback := by
  unfold Session.rollback
  split
  · exact h
  · exact ⟨by simp, h.rows⟩

theorem Recorded.close (h : Recorded ids session) : Recorded ids session.close :=
  ⟨by simp [Session.close], h.rows⟩

theorem business_map (changes : List β) :
    ∀ w ∈ changes.map Written.business, ∃ change, w = .business change := by
  intro w hw
  obtain ⟨change, _, rfl⟩ := List.mem_map.mp hw
  exact ⟨change, rfl⟩

/-- The analysis executes statements of the business only. -/
theorem stable_recorded (execution : Execution β) :
    Stable execution.database (Recorded ids) where
  setAutoCommit _ _ h := h.setAutoCommit
  rollback _ h := h.rollback
  insert _ s' sql r hr h := by
    obtain ⟨⟨changes, rows⟩, _, rfl⟩ := Option.map_eq_some_iff.mp hr
    exact h.write (business_map changes)

theorem stable_open (execution : Execution β) :
    Stable execution.database (fun session => session.closed = false) where
  setAutoCommit _ _ h := by rwa [Session.setAutoCommit_closed]
  rollback _ h := by rwa [Session.rollback_closed]
  insert _ _ _ _ _ h := by rwa [Session.write_closed]

theorem execute_recorded {execution : Execution β} (h : Recorded ids s.session) :
    Recorded ids (s.execute execution).session := by
  rw [execute_session]
  exact ((stable_recorded execution).keeps_onAfterAnyExecute _
    (h.write (business_map _))).state

theorem execute_open {execution : Execution β} (h : s.session.closed = false) :
    (s.execute execution).session.closed = false := by
  rw [execute_session]
  refine ((stable_open execution).keeps_onAfterAnyExecute _ ?_).state
  rwa [Session.write_closed]

/-- Nothing that is recorded is forgotten. -/
theorem mem_execute_logIds {execution : Execution β} {id : Long} (h : id ∈ s.logIds) :
    id ∈ (s.execute execution).logIds := by
  unfold execute
  split
  · rename_i jdbcTransaction session heq
    rcases ends_recorded.of_ok heq with rfl | ⟨j, transactionLog, hj, rfl⟩
    · exact h
    · unfold logIds transactionLogs at h ⊢
      rw [hj] at h
      simp only [List.map_append, List.mem_append]
      exact Or.inl h
  · exact h

/-! ## The run -/

/-- How far it has come, as long as every event has met the condition. -/
inductive RowsSettled (s : Proxied β) : Prop where
  | undecided (hnone : s.participation.decision = none) (hraw : s.raw.calls = [])
      (hopen : s.session.closed = false) (hrows : Recorded s.logIds s.session)
  | decided (hdecided : s.participation.decision ≠ none) (hrows : Recorded [] s.session)
  | failed (hdecided : s.participation.decision ≠ none) (hfailed : CommitFailed s)

theorem Recorded.rows_eq_nil (h : Recorded [] session) : Written.rows session.durable = [] :=
  List.eq_nil_iff_forall_not_mem.mpr fun id hid => by simpa using h.rows id hid

theorem Recorded.of_rows_eq_nil (h : Recorded ids session)
    (hnil : Written.rows session.durable = []) : Recorded [] session :=
  ⟨h.business, fun id hid => by rwa [hnil] at hid⟩

theorem RowsSettled.rowsGone (hs : RowsSettled s) : RowsGone s := by
  cases hs with
  | undecided hnone => exact Or.inr (Or.inl hnone)
  | decided _ hrows => exact Or.inl hrows.rows_eq_nil
  | failed _ hfailed => exact Or.inr (Or.inr hfailed)

theorem settled_execute {execution : Execution β} (hs : RowsSettled s) :
    RowsSettled (s.execute execution) := by
  cases hs with
  | undecided hnone hraw hopen hrows =>
      exact .undecided (by rwa [execute_decision]) (by rwa [execute_raw]) (execute_open hopen)
        ((execute_recorded hrows).mono fun id hid => mem_execute_logIds hid)
  | decided hdecided hrows =>
      exact .decided (by rwa [execute_decision]) (execute_recorded hrows)
  | failed hdecided hfailed =>
      exact .failed (by rwa [execute_decision]) (by rwa [CommitFailed, execute_raw])

theorem settled_setAutoCommit (hs : RowsSettled s) :
    RowsSettled { s with session := s.session.setAutoCommit false } := by
  cases hs with
  | undecided hnone hraw hopen hrows =>
      exact .undecided hnone hraw (by rwa [Session.setAutoCommit_closed]) hrows.setAutoCommit
  | decided hdecided hrows => exact .decided hdecided hrows.setAutoCommit
  | failed hdecided hfailed => exact .failed hdecided hfailed

theorem settled_commit {saved : Nat} (hs : RowsSettled s) (hC : PutAway s (.commit saved)) :
    RowsSettled (s.commit saved) := by
  cases hs with
  | undecided hnone hraw hopen hrows =>
      refine .undecided hnone hraw hopen ⟨hrows.business, fun id hid => ?_⟩
      rw [commit_session, Session.elsewhere, rows_append_inserted] at hid
      rcases List.mem_append.mp hid with hid | hid
      · exact hrows.rows id hid
      · exact List.mem_of_mem_take hid
  | decided hdecided hrows =>
      rcases hC with hnil | hnone | hfailed
      · -- nothing is saved after the decision
        refine .decided hdecided ⟨hrows.business, fun id hid => ?_⟩
        rw [commit_session, hnil] at hid
        simp [Session.elsewhere, hrows.rows_eq_nil] at hid
      · exact absurd hnone hdecided
      · exact .failed hdecided hfailed
  | failed hdecided hfailed => exact .failed hdecided hfailed

/-- What the commitor does unless it commits leaves the rows that there are. -/
theorem recorded_called {call : RawCall × Bool} {ids' : List Long} (h : Recorded ids' session)
    (hdelete : call ≠ (.delete, true)) : Recorded ids' (called ids session call) := by
  obtain ⟨c, b⟩ := call
  cases b with
  | false => rwa [called_failed]
  | true =>
      cases c with
      | delete => exact absurd rfl hdelete
      | commit => exact h.commit
      | rollback => exact h.rollback
      | close => exact h.close

theorem recorded_foldl_called {calls : List (RawCall × Bool)} (h : Recorded [] session)
    (hcalls : ∀ call ∈ calls, call.1 ≠ .commit ∧ call ≠ (.delete, true)) :
    Recorded [] (calls.foldl (called ids) session) := by
  induction calls generalizing session with
  | nil => exact h
  | cons call calls ih =>
      exact ih (recorded_called h (hcalls call List.mem_cons_self).2)
        fun call' hmem => hcalls call' (List.mem_cons_of_mem _ hmem)

/-- All recorded rows are deleted with the commit of the business. -/
theorem recorded_deleted (h : Recorded ids session) (hopen : session.closed = false) :
    Recorded [] ((session.write [.deleted ids]).commit) := by
  have hdeleted : ∀ xs : List (Written β), (∀ id ∈ Written.rows xs, id ∈ ids) →
      ∀ ys, (∀ w ∈ ys, ∃ change, w = .business change) →
      Written.rows (xs ++ [.deleted ids] ++ ys) = [] := by
    intro xs hxs ys hys
    rw [rows_append_business hys, rows_append_deleted hxs]
  cases hflag : session.autoCommit with
  | true =>
      -- the rows are gone at once, and what is committed after that is of the business
      have hnil := hdeleted session.durable h.rows session.uncommitted h.business
      simp only [List.append_assoc, List.singleton_append] at hnil
      simp only [Session.write, Session.commit, hopen, hflag, Bool.false_eq_true, if_false,
        if_true]
      exact ⟨by simp, by simp [hnil]⟩
  | false =>
      have hnil := hdeleted (session.durable ++ session.uncommitted)
        (by rw [rows_append_business h.business]; exact h.rows) [] (by simp)
      simp only [List.append_nil, List.append_assoc] at hnil
      simp only [Session.write, Session.commit, hopen, hflag, Bool.false_eq_true, if_false]
      exact ⟨by simp, by simp [hnil]⟩

theorem settled_decide {d : Bool} {succeeds : RawCall → Bool}
    (hopen : s.session.closed = false) (hrows : Recorded s.logIds s.session)
    (hC : PutAway s (.decide d succeeds)) :
    RowsSettled (s.decide d succeeds) := by
  have hdecided : (s.decide d succeeds).participation.decision ≠ none := by simp
  rcases decide_cases s d succeeds with
    ⟨_, hraw, hsession⟩ | ⟨hwhy, hraw, hsession⟩
  · by_cases hcommits : d = true ∧ succeeds .delete = true
    · -- the rows are deleted, but it takes the commit to make that last
      obtain ⟨rfl, hdelete⟩ := hcommits
      have hcalls : LcnCommitor.calls succeeds true
          = [(.delete, true), (.commit, succeeds .commit), (.close, succeeds .close)] := by
        rw [LcnCommitor.calls, if_pos hdelete]
      cases hcommit : succeeds .commit with
      | false =>
          refine .failed hdecided ?_
          rw [CommitFailed, hraw, hcalls, hcommit]
          simp
      | true =>
          refine .decided hdecided ?_
          rw [hsession, hcalls, hcommit]
          have hclose : ((.close, succeeds .close) : RawCall × Bool) ≠ (.delete, true) := by simp
          exact recorded_called (recorded_deleted hrows hopen) hclose
    · -- then the condition is that there are none
      have hnil : Written.rows s.session.durable = [] := by
        rcases hC with hnil | ⟨hd, _, _, hdelete⟩
        · exact hnil
        · exact absurd ⟨hd, hdelete⟩ hcommits
      refine .decided hdecided ?_
      rw [hsession]
      exact recorded_foldl_called (hrows.of_rows_eq_nil hnil) (not_mem_calls hcommits)
  · have hnil : Written.rows s.session.durable = [] := by
      rcases hC with hnil | ⟨hd, hcontext, hthere, _⟩
      · exact hnil
      · rcases hwhy with hcontext' | ⟨_, hnull⟩
        · exact absurd hcontext' hcontext
        · exact absurd hnull hthere
    refine .decided hdecided ?_
    rw [hsession]
    exact hrows.of_rows_eq_nil hnil

theorem settled_step (hs : RowsSettled s) (hC : PutAway s e) (h : s.step e = some t) :
    RowsSettled t := by
  cases e with
  | execute execution =>
      cases h
      exact settled_execute hs
  | setAutoCommit autoCommit =>
      cases h
      exact settled_setAutoCommit hs
  | commit saved =>
      cases h
      exact settled_commit hs hC
  | rollback =>
      cases h
      cases hs with
      | undecided hnone hraw hopen hrows => exact .undecided hnone hraw hopen hrows
      | decided hdecided hrows => exact .decided hdecided hrows
      | failed hdecided hfailed => exact .failed hdecided hfailed
  | close =>
      cases h
      exact hs
  | decide d succeeds =>
      simp only [step] at h
      split at h
      · rename_i hnone
        cases h
        cases hs with
        | undecided _ _ hopen hrows => exact settled_decide hopen hrows hC
        | decided hdecided => exact absurd hnone hdecided
        | failed hdecided => exact absurd hnone hdecided
      · cases h

/-- Rows that a decision does not delete stay. -/
theorem not_rowsGone_decide {d : Bool} {succeeds : RawCall → Bool} (hraw : s.raw.calls = [])
    (hC : ¬ PutAway s (.decide d succeeds)) : ¬ RowsGone (s.decide d succeeds) := by
  simp only [PutAway, not_or] at hC
  obtain ⟨hsome, hno⟩ := hC
  -- what is durable changes with a commit only, and there is none, nor one that fails
  have hstays : (s.decide d succeeds).session.durable = s.session.durable
      ∧ ¬ CommitFailed (s.decide d succeeds) := by
    rcases decide_cases s d succeeds with
      ⟨⟨hcontext, hthere⟩, hcalls, hsession⟩ | ⟨_, hcalls, hsession⟩
    · have hcommits : ¬ (d = true ∧ succeeds .delete = true) :=
        fun ⟨hd, hdelete⟩ => hno ⟨hd, hcontext, hthere hd, hdelete⟩
      refine ⟨by rw [hsession, foldl_called_durable (not_mem_calls hcommits)], fun hfailed => ?_⟩
      rw [CommitFailed, hcalls] at hfailed
      exact (not_mem_calls hcommits _ hfailed).1 rfl
    · refine ⟨by rw [hsession], fun hfailed => ?_⟩
      rw [CommitFailed, hcalls, hraw] at hfailed
      cases hfailed
  rintro (hnil | hnone | hfailed)
  · exact hsome (by rwa [hstays.1] at hnil)
  · simp at hnone
  · exact hstays.2 hfailed

theorem not_rowsGone_step (hs : RowsSettled s) (hC : ¬ PutAway s e) (h : s.step e = some t) :
    ¬ RowsGone t := by
  cases e with
  | execute | setAutoCommit | rollback | close => exact absurd trivial hC
  | commit saved =>
      cases h
      simp only [PutAway, not_or] at hC
      obtain ⟨hsaved, hdecided, hnot⟩ := hC
      rintro (hnil | hnone | hfailed)
      · rw [commit_session, Session.elsewhere, rows_append_inserted] at hnil
        exact hsaved (List.append_eq_nil_iff.mp hnil).2
      · exact hdecided hnone
      · exact hnot hfailed
  | decide d succeeds =>
      simp only [step] at h
      split at h
      · rename_i hnone
        cases h
        cases hs with
        | undecided _ hraw => exact not_rowsGone_decide hraw hC
        | decided hdecided => exact absurd hnone hdecided
        | failed hdecided => exact absurd hnone hdecided
      · cases h

/--
**The rows that are saved are gone after the decision, unless the commit has
failed, exactly when** there is no row when it is decided, or the commitor
deletes them to commit; and no row is saved after that.
-/
theorem rows_gone_iff (groupId : String) (transactionState : TransactionState)
    (es : List (Event β)) :
    AllStates step RowsGone (init groupId transactionState) es
      ↔ AllSteps step PutAway (init groupId transactionState) es :=
  allStates_iff_allSteps (fun _ hs => hs.rowsGone) (fun _ _ _ hs hC h => settled_step hs hC h)
    (fun _ _ _ hs hC h => not_rowsGone_step hs hC h)
    (.undecided rfl rfl rfl ⟨by simp [init], by simp [init, Written.rows]⟩)

/-- A platform on which an `UPDATE` is analysed, but cannot be rewritten. -/
def recording (id : Long) : Execution Nat where
  changes := [0]
  sql := "UPDATE account SET balance = 0"
  platform :=
    { toUpperCase := fun sql => sql
      equalsIgnoreCase := (· == ·)
      parse _ := some .other
      print _ := ""
      stringValue := fun sql => sql }
  insert _ _ := none
  query _ _ := none
  refuses _ := false
  sqlType := "mysql"
  analyseHandlers := []
  tableList := none
  newLog sql := some { id, groupId := some "g", sql, time := 0, flag := 0 }

/-- One statement, and the decision against it. -/
theorem not_rows_gone : ¬ ∀ es : List (Event Nat),
    AllStates step RowsGone (init "g" .CREATE) es := by
  intro h
  have hlast := (h [.setAutoCommit false, .execute (recording 1), .commit 1,
    .decide false fun _ => true]).last rfl
  rcases hlast with hnil | hnone | hfailed
  · cases hnil
  · cases hnone
  · exact absurd hfailed (by unfold CommitFailed; decide)

end TxLcn.Proof
