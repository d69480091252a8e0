import TxLcn.Proof.Durability
import TxLcn.Proof.LogRows

/-!
# The log and the business change together

A row of `transaction_log` says that a statement has been executed and is not yet
decided. What is left in the database if it stops at some moment is of use only
if it is not contradictory: there must not be rows of a participation whose
changes are there for good.

The rows are deleted in the transaction of the business, so the two become
durable at once. `log_excludes_changes_iff` says when that is enough, at every
moment, those between two calls of the commitor included; `all_or_nothing` says
what the decision leaves of the business.
-/

namespace TxLcn.Proof

open TxLcn.Lib TxLcn.Tc Proxied

variable {β : Type} {s t : Proxied β} {e : Event β} {ids : List Long}

/-- What is durable if the database stops within the step, after `n` of its calls. -/
def durableAfter (s : Proxied β) (n : Nat) : Event β → List (Written β)
  -- the statement is one call, and what the analysis calls after it makes nothing durable
  | .execute execution => (s.execute execution).session.durable
  | .setAutoCommit _ => (s.session.setAutoCommit false).durable
  -- the rows are saved one by one
  | .commit saved => (s.session.elsewhere ((s.logIds.take (min n saved)).map .inserted)).durable
  | .rollback | .close => s.session.durable
  | .decide d succeeds =>
      (((s.decide d succeeds).raw.calls.take n).foldl (called s.logIds) s.session).durable

/-- There are not both rows of the log and changes of the business. -/
def NotBoth (ws : List (Written β)) : Prop :=
  Written.changes ws = [] ∨ Written.rows ws = []

/--
A statement that changes something is held back, or there is no row; and no row
is saved if changes are there.
-/
def OneOrTheOther (s : Proxied β) : Event β → Prop
  | .execute e => e.changes = [] ∨ s.session.autoCommit = false ∨ s.session.closed = true
      ∨ Written.rows s.session.durable = []
  | .commit saved => s.logIds.take saved = [] ∨ Written.changes s.session.durable = []
  | _ => True

/-- What holds as long as every event has met the condition. -/
structure LogBefore (s : Proxied β) : Prop where
  clean : s.session.Clean
  exclusive : NotBoth s.session.durable
  /-- Until it is decided the rows are recorded, and nothing but business is uncommitted. -/
  undecided : s.participation.decision = none →
    s.raw.calls = [] ∧ s.session.closed = false ∧ Recorded s.logIds s.session

/-! ## Statements -/

/-- What is durable after a statement: its changes, if they are so at once. -/
theorem execute_durable (execution : Execution β) (hclean : s.session.Clean) :
    (s.execute execution).session.Clean ∧ (s.execute execution).session.durable
      = (s.session.write (execution.changes.map .business)).durable := by
  obtain ⟨_, hsafe⟩ := safe_execute s execution
  exact hsafe (Session.clean_write hclean)

theorem rows_append_map_business {xs : List (Written β)} {changes : List β} :
    Written.rows (xs ++ changes.map .business) = Written.rows xs :=
  rows_append_business (business_map changes)

theorem exclusive_execute {execution : Execution β} (hs : LogBefore s) :
    NotBoth (s.execute execution).session.durable
      ↔ OneOrTheOther s (.execute execution) := by
  rw [(execute_durable execution hs.clean).2]
  by_cases hheld : execution.changes = [] ∨ s.session.autoCommit = false
      ∨ s.session.closed = true
  · -- nothing becomes durable
    have hsame : (s.session.write (execution.changes.map .business)).durable
        = s.session.durable := by
      refine Session.write_durable ?_
      rcases hheld with hnone | hflag | hclosed
      · exact Or.inl (by rw [hnone]; rfl)
      · exact Or.inr (Or.inr hflag)
      · exact Or.inr (Or.inl hclosed)
    rw [hsame]
    refine ⟨fun _ => ?_, fun _ => hs.exclusive⟩
    rcases hheld with hnone | hflag | hclosed
    · exact Or.inl hnone
    · exact Or.inr (Or.inl hflag)
    · exact Or.inr (Or.inr (Or.inl hclosed))
  · simp only [not_or, Bool.not_eq_false, Bool.not_eq_true] at hheld
    obtain ⟨hchanges, hflag, hopen⟩ := hheld
    rw [Session.write_durable_of hopen hflag, NotBoth, changes_append, changes_business,
      rows_append_map_business, OneOrTheOther]
    simp [hchanges, hflag, hopen]

/-! ## Rows that are saved -/

theorem exclusive_commit {saved : Nat} (hs : LogBefore s) :
    (∀ n, NotBoth (durableAfter s n (.commit saved))) ↔ OneOrTheOther s (.commit saved) := by
  have hdurable : ∀ n, durableAfter s n (.commit saved)
      = s.session.durable ++ (s.logIds.take (min n saved)).map .inserted := fun n => rfl
  refine ⟨fun h => ?_, fun hC n => ?_⟩
  · have hlast := h saved
    rw [hdurable, min_self, NotBoth, changes_append, changes_inserted, rows_append_inserted,
      List.append_nil] at hlast
    rcases hlast with hchanges | hrows
    · exact Or.inr hchanges
    · exact Or.inl (List.append_eq_nil_iff.mp hrows).2
  · rw [hdurable, NotBoth, changes_append, changes_inserted, rows_append_inserted,
      List.append_nil]
    rcases hC with hnone | hchanges
    · -- with none of them in the end there is none on the way
      have hfirst : s.logIds.take (min n saved) = [] := by
        rw [← List.take_take, hnone, List.take_nil]
      rw [hfirst, List.append_nil]
      exact hs.exclusive
    · exact Or.inl hchanges

/-! ## The decision -/

variable {session : Session (Written β)}

/-- To delete the rows, durably or not, leaves no contradiction. -/
theorem exclusive_delete (h : Recorded ids session) (hexcl : NotBoth session.durable) :
    NotBoth (session.write [.deleted ids]).durable := by
  by_cases hheld : session.closed = true ∨ session.autoCommit = false
  · rw [Session.write_durable (Or.inr hheld)]
    exact hexcl
  · simp only [not_or, Bool.not_eq_false, Bool.not_eq_true] at hheld
    rw [Session.write_durable_of hheld.1 hheld.2]
    exact Or.inr (rows_append_deleted h.rows)

/-- The commitor leaves no contradiction between any two of its calls. -/
theorem exclusive_calls (d : Bool) (succeeds : RawCall → Bool) (h : Recorded ids session)
    (hopen : session.closed = false) (hexcl : NotBoth session.durable) (n : Nat) :
    NotBoth (((LcnCommitor.calls succeeds d).take n).foldl (called ids) session).durable := by
  by_cases hcommits : d = true ∧ succeeds .delete = true
  · obtain ⟨rfl, hdelete⟩ := hcommits
    rw [LcnCommitor.calls, if_pos hdelete]
    have hdeleted := exclusive_delete h hexcl
    have hcommitted : NotBoth
        (called ids (session.write [.deleted ids]) (.commit, succeeds .commit)).durable := by
      cases succeeds .commit with
      | false => exact hdeleted
      | true => exact Or.inr (recorded_deleted h hopen).rows_eq_nil
    rcases n with _ | _ | _ | n
    · exact hexcl
    · exact hdeleted
    · exact hcommitted
    · rw [List.take_of_length_le (by simp)]
      show NotBoth (called ids (called ids (session.write [.deleted ids])
        (.commit, succeeds .commit)) (.close, succeeds .close)).durable
      cases succeeds .close with
      | false => exact hcommitted
      | true => exact hcommitted
  · rw [foldl_called_durable]
    · exact hexcl
    · exact fun call hmem => not_mem_calls hcommits call (List.mem_of_mem_take hmem)

theorem exclusive_decide {d : Bool} {succeeds : RawCall → Bool} (hs : LogBefore s)
    (hnone : s.participation.decision = none) (n : Nat) :
    NotBoth (durableAfter s n (.decide d succeeds)) := by
  obtain ⟨hraw, hopen, hrecorded⟩ := hs.undecided hnone
  rw [durableAfter]
  rcases decide_cases s d succeeds with ⟨_, hcalls, _⟩ | ⟨_, hcalls, _⟩
  · rw [hcalls]
    exact exclusive_calls d succeeds hrecorded hopen hs.exclusive n
  · rw [hcalls, hraw, List.take_nil]
    exact hs.exclusive

/-! ## The run -/

theorem exclusive_iff (hs : LogBefore s) (h : s.step e = some t) :
    (∀ n, NotBoth (durableAfter s n e)) ↔ OneOrTheOther s e := by
  cases e with
  | execute execution =>
      rw [← exclusive_execute hs]
      exact ⟨fun hall => hall 0, fun hlast _ => hlast⟩
  | setAutoCommit autoCommit =>
      refine ⟨fun _ => trivial, fun _ n => ?_⟩
      rw [durableAfter, Session.setAutoCommit_false_durable hs.clean]
      exact hs.exclusive
  | commit saved => exact exclusive_commit hs
  | rollback => exact ⟨fun _ => trivial, fun _ _ => hs.exclusive⟩
  | close => exact ⟨fun _ => trivial, fun _ _ => hs.exclusive⟩
  | decide d succeeds =>
      simp only [step] at h
      split at h
      · rename_i hnone
        exact ⟨fun _ => trivial, fun _ n => exclusive_decide hs hnone n⟩
      · cases h

theorem logBefore_decide {d : Bool} {succeeds : RawCall → Bool} (hs : LogBefore s)
    (hnone : s.participation.decision = none) : LogBefore (s.decide d succeeds) := by
  have hlate : (s.decide d succeeds).participation.decision = none →
      (s.decide d succeeds).raw.calls = [] ∧ (s.decide d succeeds).session.closed = false
        ∧ Recorded (s.decide d succeeds).logIds (s.decide d succeeds).session := by
    intro hd
    rw [decide_decision] at hd
    cases hd
  obtain ⟨_, hopen, hrecorded⟩ := hs.undecided hnone
  rcases decide_cases s d succeeds with ⟨_, _, hsession⟩ | ⟨_, _, hsession⟩
  · refine ⟨by rw [hsession]; exact clean_foldl_called hs.clean, ?_, hlate⟩
    -- after the last of its calls
    have hlast := exclusive_calls d succeeds hrecorded hopen hs.exclusive
      (LcnCommitor.calls succeeds d).length
    rwa [List.take_length, ← hsession] at hlast
  · exact ⟨by rw [hsession]; exact hs.clean, by rw [hsession]; exact hs.exclusive, hlate⟩

theorem logBefore_step (hs : LogBefore s) (hC : OneOrTheOther s e) (h : s.step e = some t) :
    LogBefore t := by
  cases e with
  | execute execution =>
      cases h
      refine ⟨(execute_durable _ hs.clean).1, (exclusive_execute hs).mpr hC, fun hd => ?_⟩
      rw [execute_decision] at hd
      obtain ⟨hraw, hopen, hrecorded⟩ := hs.undecided hd
      exact ⟨by rwa [execute_raw], execute_open hopen,
        (execute_recorded hrecorded).mono fun id hid => mem_execute_logIds hid⟩
  | setAutoCommit autoCommit =>
      cases h
      refine ⟨Session.clean_setAutoCommit hs.clean, ?_, fun hd => ?_⟩
      · show NotBoth (s.session.setAutoCommit false).durable
        rw [Session.setAutoCommit_false_durable hs.clean]
        exact hs.exclusive
      · obtain ⟨hraw, hopen, hrecorded⟩ := hs.undecided hd
        exact ⟨hraw, by rwa [Session.setAutoCommit_closed], hrecorded.setAutoCommit⟩
  | commit saved =>
      cases h
      have hexcl := (exclusive_commit hs).mpr hC saved
      rw [durableAfter, min_self] at hexcl
      refine ⟨hs.clean, hexcl, fun hd => ?_⟩
      obtain ⟨hraw, hopen, hrecorded⟩ := hs.undecided hd
      refine ⟨hraw, hopen, hrecorded.business, fun id hid => ?_⟩
      rw [commit_session, Session.elsewhere, rows_append_inserted] at hid
      rcases List.mem_append.mp hid with hid | hid
      · exact hrecorded.rows id hid
      · exact List.mem_of_mem_take hid
  | rollback =>
      cases h
      exact ⟨hs.clean, hs.exclusive, hs.undecided⟩
  | close =>
      cases h
      exact hs
  | decide d succeeds =>
      simp only [step] at h
      split at h
      · rename_i hnone
        cases h
        exact logBefore_decide hs hnone
      · cases h

/--
**At whatever call the database stops, it does not hold both changes of a
participation and rows of its log, exactly when** each statement that changes
something is held back, or there is no row yet; and no row is saved once there
are changes.
-/
theorem log_excludes_changes_iff (groupId : String) (transactionState : TransactionState)
    (es : List (Event β)) :
    AllSteps step (fun s e => ∀ n, NotBoth (durableAfter s n e))
        (init groupId transactionState) es
      ↔ AllSteps step OneOrTheOther (init groupId transactionState) es :=
  allSteps_congr_of_invariant (fun _ _ _ hs hC h => logBefore_step hs hC h)
    (fun _ _ _ hs h => exclusive_iff hs h)
    ⟨fun _ => rfl, Or.inl rfl, fun _ => ⟨rfl, rfl, by simp [init], by simp [init, Written.rows]⟩⟩

/-! ## All of it or nothing -/

/-- A statement that changes something finds the auto-commit flag taken away, or comes too late. -/
def TakenAway (s : Proxied β) : Event β → Prop
  | .execute e => e.changes = [] ∨ s.session.autoCommit = false ∨ s.session.closed = true
  | _ => True

/-- The commitor gets as far as to commit, and does. -/
structure Committed (s : Proxied β) (d : Bool) (succeeds : RawCall → Bool) : Prop where
  decision : d = true
  context : s.context s.participation.groupId ≠ none
  jdbcTransaction : s.participation.jdbcTransaction ≠ none
  delete : succeeds .delete = true
  commit : succeeds .commit = true

/-- No event but the decision makes a change of the business durable. -/
theorem changes_step (hclean : s.session.Clean) (hC : TakenAway s e) (h : s.step e = some t)
    (hne : ∀ d succeeds, e ≠ .decide d succeeds) : t.session.Clean
      ∧ Written.changes t.session.durable = Written.changes s.session.durable
      ∧ t.participation.decision = s.participation.decision
      ∧ (s.session.closed = false → t.session.closed = false) := by
  cases e with
  | execute execution =>
      cases h
      obtain ⟨hclean', hdurable⟩ := execute_durable execution hclean
      refine ⟨hclean', ?_, execute_decision, execute_open⟩
      rw [hdurable, Session.write_durable]
      rcases hC with hnone | hflag | hclosed
      · exact Or.inl (by rw [hnone]; rfl)
      · exact Or.inr (Or.inr hflag)
      · exact Or.inr (Or.inl hclosed)
  | setAutoCommit autoCommit =>
      cases h
      refine ⟨Session.clean_setAutoCommit hclean, ?_, rfl, fun ho => ?_⟩
      · show Written.changes (s.session.setAutoCommit false).durable = _
        rw [Session.setAutoCommit_false_durable hclean]
      · show (s.session.setAutoCommit false).closed = false
        rwa [Session.setAutoCommit_closed]
  | commit saved =>
      cases h
      refine ⟨hclean, ?_, rfl, fun ho => ho⟩
      rw [commit_session, Session.elsewhere, changes_append, changes_inserted, List.append_nil]
  | rollback =>
      cases h
      exact ⟨hclean, rfl, rfl, fun ho => ho⟩
  | close =>
      cases h
      exact ⟨hclean, rfl, rfl, fun ho => ho⟩
  | decide d succeeds => exact absurd rfl (hne d succeeds)

theorem changes_deleted {xs : List (Written β)} :
    Written.changes (xs ++ [.deleted ids]) = Written.changes xs := by
  rw [changes_append]
  exact List.append_nil _

/-- The deletion changes nothing of the business, neither what is durable nor what is not. -/
theorem changes_write_deleted (ids : List Long) (hopen : session.closed = false) :
    Written.changes (session.write [.deleted ids]).durable = Written.changes session.durable
      ∧ Written.changes (session.write [.deleted ids]).uncommitted
        = Written.changes session.uncommitted
      ∧ (session.write [.deleted ids]).closed = false := by
  refine ⟨?_, ?_, by rwa [Session.write_closed]⟩
  · cases hflag : session.autoCommit with
    | true => rw [Session.write_durable_of hopen hflag, changes_deleted]
    | false => rw [Session.write_durable (Or.inr (Or.inr hflag))]
  · cases hflag : session.autoCommit with
    | true => simp [Session.write, hopen, hflag]
    | false => simp [Session.write, hopen, hflag, changes_deleted]

theorem changes_close {b : Bool} : Written.changes (called ids session (.close, b)).durable
    = Written.changes session.durable := by
  cases b <;> rfl

/-- **The calls of the commitor make all there is durable, or nothing.** -/
theorem changes_calls (d : Bool) (succeeds : RawCall → Bool) (hopen : session.closed = false) :
    Written.changes ((LcnCommitor.calls succeeds d).foldl (called ids) session).durable
      = Written.changes session.durable
        ++ if d && succeeds .delete && succeeds .commit
            then Written.changes session.uncommitted else [] := by
  by_cases hcommits : d = true ∧ succeeds .delete = true
  · obtain ⟨rfl, hdelete⟩ := hcommits
    obtain ⟨hdurable, huncommitted, hopen'⟩ := changes_write_deleted ids hopen
    have hcalls : Written.changes ((LcnCommitor.calls succeeds true).foldl (called ids)
          session).durable
        = Written.changes (called ids (session.write [.deleted ids])
          (.commit, succeeds .commit)).durable := by
      rw [LcnCommitor.calls, if_pos hdelete]
      exact changes_close
    rw [hcalls, hdelete, ← hdurable, ← huncommitted]
    cases hcommit : succeeds .commit with
    | true => simp only [called, Session.commit, hopen', Bool.false_eq_true, if_false,
        changes_append, Bool.and_self, if_true]
    | false => simp [called]
  · rw [foldl_called_durable (not_mem_calls hcommits), if_neg, List.append_nil]
    intro hall
    simp only [Bool.and_eq_true] at hall
    exact hcommits hall.1

theorem changes_decide (d : Bool) (succeeds : RawCall → Bool) (hopen : s.session.closed = false) :
    (Committed s d succeeds → Written.changes (s.decide d succeeds).session.durable
        = Written.changes s.session.durable ++ Written.changes s.session.uncommitted)
      ∧ (¬ Committed s d succeeds → Written.changes (s.decide d succeeds).session.durable
        = Written.changes s.session.durable) := by
  rcases decide_cases s d succeeds with ⟨⟨hcontext, hjdbc⟩, _, hsession⟩ | ⟨hwhy, _, hsession⟩
  · rw [hsession, changes_calls d succeeds hopen]
    refine ⟨fun hdone => ?_, fun hnot => ?_⟩
    · rw [hdone.decision, hdone.delete, hdone.commit]
      rfl
    · rw [if_neg, List.append_nil]
      intro hall
      simp only [Bool.and_eq_true] at hall
      obtain ⟨⟨hd, hdelete⟩, hcommit⟩ := hall
      exact hnot ⟨hd, hcontext, hjdbc hd, hdelete, hcommit⟩
  · refine ⟨fun hdone => ?_, fun _ => by rw [hsession]⟩
    rcases hwhy with hcontext | ⟨_, hjdbc⟩
    · exact absurd hcontext hdone.context
    · exact absurd hjdbc hdone.jdbcTransaction

/-- Before the decision nothing is there, and the session is open. -/
def Pending (s : Proxied β) : Prop := s.session.Clean ∧ (s.participation.decision = none →
  Written.changes s.session.durable = [] ∧ s.session.closed = false)

theorem pending_step (hs : Pending s) (hC : TakenAway s e) (h : s.step e = some t) :
    Pending t := by
  obtain ⟨hclean, hnone⟩ := hs
  by_cases hdecide : ∃ d succeeds, e = .decide d succeeds
  · obtain ⟨d, succeeds, rfl⟩ := hdecide
    simp only [step] at h
    split at h
    · cases h
      refine ⟨?_, fun hd => by rw [decide_decision] at hd; cases hd⟩
      rcases decide_cases s d succeeds with ⟨_, _, hsession⟩ | ⟨_, _, hsession⟩
      · rw [hsession]
        exact clean_foldl_called hclean
      · rw [hsession]
        exact hclean
    · cases h
  · have hne : ∀ d succeeds, e ≠ .decide d succeeds :=
      fun d succeeds he => hdecide ⟨d, succeeds, he⟩
    obtain ⟨hclean', hchanges, hdecision, hopen⟩ := changes_step hclean hC h hne
    refine ⟨hclean', fun hd => ?_⟩
    obtain ⟨hnil, ho⟩ := hnone (hdecision ▸ hd)
    exact ⟨hchanges.trans hnil, hopen ho⟩

/-- After the decision nothing is added. -/
theorem decided_step {changes : List β}
    (hs : s.session.Clean ∧ s.participation.decision ≠ none
      ∧ Written.changes s.session.durable = changes)
    (hC : TakenAway s e) (h : s.step e = some t) :
    t.session.Clean ∧ t.participation.decision ≠ none
      ∧ Written.changes t.session.durable = changes := by
  obtain ⟨hclean, hdecided, hsame⟩ := hs
  have hne : ∀ d succeeds, e ≠ .decide d succeeds := by
    rintro d succeeds rfl
    simp only [step] at h
    split at h
    · rename_i hnone
      exact hdecided hnone
    · cases h
  obtain ⟨hclean', hchanges, hdecision, _⟩ := changes_step hclean hC h hne
  exact ⟨hclean', hdecision ▸ hdecided, hchanges.trans hsame⟩

/--
**All of the business or nothing.**

In a run in which each statement that changes something finds the auto-commit
flag taken away, what is durable of the business at any time after the decision
is all that was uncommitted when it came, if the commitor commits, and nothing
otherwise.
-/
theorem all_or_nothing (groupId : String) (transactionState : TransactionState)
    (pre post : List (Event β)) (d : Bool) (succeeds : RawCall → Bool) (s t : Proxied β)
    (hC : AllSteps step TakenAway (init groupId transactionState)
      (pre ++ .decide d succeeds :: post))
    (hpre : exec step (init groupId transactionState) pre = some s)
    (hrun : exec step (init groupId transactionState)
      (pre ++ .decide d succeeds :: post) = some t) :
    (Committed s d succeeds →
        Written.changes t.session.durable = Written.changes s.session.uncommitted)
      ∧ (¬ Committed s d succeeds → Written.changes t.session.durable = []) := by
  obtain ⟨s', hs', hrest⟩ := exec_append_some.mp hrun
  obtain rfl : s = s' := Option.some.inj (hpre.symm.trans hs')
  obtain ⟨u, hu, hpost⟩ := exec_cons_some.mp hrest
  obtain ⟨hCpre, hCrest⟩ := (allSteps_append hpre).mp hC
  have hCpost := (hCrest u hu).2
  obtain ⟨hclean, hpending⟩ := exec_invariant_of_allSteps (I := Pending)
    (fun _ _ _ hI hc hstep => pending_step hI hc hstep)
    ⟨fun _ => rfl, fun _ => ⟨rfl, rfl⟩⟩ hCpre hpre
  have hlast : t.session.Clean ∧ t.participation.decision ≠ none
      ∧ Written.changes t.session.durable = Written.changes u.session.durable := by
    refine exec_invariant_of_allSteps
      (fun _ _ _ hI hc hstep => decided_step hI hc hstep) ⟨?_, ?_, rfl⟩ hCpost hpost
    · exact (pending_step ⟨hclean, hpending⟩ (hCrest u hu).1 hu).1
    · simp only [step] at hu
      split at hu
      · cases hu
        simp
      · cases hu
  simp only [step] at hu
  split at hu
  · rename_i hnone
    cases hu
    obtain ⟨hnil, hopen⟩ := hpending hnone
    obtain ⟨hall, hnothing⟩ := changes_decide d succeeds hopen
    rw [hlast.2.2]
    refine ⟨fun hdone => ?_, fun hnot => ?_⟩
    · rw [hall hdone, hnil, List.nil_append]
    · rw [hnothing hnot, hnil]
  · cases hu

/-- One statement that is recorded, the local commit, and the decision to commit. -/
theorem all_of_one : ∃ t : Proxied Nat,
    exec step (init "g" .CREATE) [.setAutoCommit false, .execute (recording 1), .commit 1,
        .decide true fun _ => true] = some t
      ∧ Written.changes t.session.durable = [0] := by
  have hC : AllSteps step TakenAway (init "g" .CREATE)
      ([.setAutoCommit false, .execute (recording 1), .commit 1]
        ++ .decide true (fun _ => true) :: []) := by
    refine (allSteps_cons rfl).mpr ⟨trivial, (allSteps_cons rfl).mpr ⟨?_, ?_⟩⟩
    · exact Or.inr (Or.inl rfl)
    · exact (allSteps_cons rfl).mpr ⟨trivial, (allSteps_cons rfl).mpr ⟨trivial, trivial⟩⟩
  obtain ⟨hall, _⟩ := all_or_nothing "g" .CREATE
    [.setAutoCommit false, .execute (recording 1), .commit 1] [] true (fun _ => true) _ _ hC rfl rfl
  refine ⟨_, rfl, hall ⟨rfl, ?_, ?_, rfl, rfl⟩⟩
  · rw [Option.ne_none_iff_isSome]
    rfl
  · rw [Option.ne_none_iff_isSome]
    rfl

end TxLcn.Proof
