import TxLcn.Tc.LogExecutor

/-!
# Whether a decision to commit is carried out

`LcnCommitor` commits after it has deleted the log rows, and where the deletion
throws it does not commit. The statement that deletes no rows at all is not well
formed, and that is the statement of a participant that has logged nothing.
-/

namespace TxLcn.Proof

open TxLcn.Tc

/-- Raw `commit` has been called since, and raw `close` not before it. -/
def CommitsBeforeClose (before after : RawConnection) : Prop :=
  ∃ pre result post, after.calls = before.calls ++ pre ++ (.commit, result) :: post
    ∧ ∀ call ∈ pre, call.1 ≠ .close

/-- The rows are deleted, or the commit is not reached. -/
theorem commitsBeforeClose_iff_delete {succeeds : RawCall → Bool}
    {before after : RawConnection}
    (h : after.calls = before.calls ++ LcnCommitor.calls succeeds true) :
    CommitsBeforeClose before after ↔ succeeds .delete = true := by
  cases hdelete : succeeds .delete with
  | true =>
      refine ⟨fun _ => rfl, fun _ => ?_⟩
      refine ⟨[(.delete, true)], succeeds .commit, [(.close, succeeds .close)], ?_, ?_⟩
      · simp [h, LcnCommitor.calls, hdelete]
      · simp
  | false =>
      refine ⟨?_, fun hfalse => absurd hfalse (by simp)⟩
      rintro ⟨pre, result, post, hcalls, _⟩
      have hsuffix : LcnCommitor.calls succeeds true = pre ++ (.commit, result) :: post := by
        rw [h, List.append_assoc] at hcalls
        exact List.append_cancel_left hcalls
      have hmem : (.commit, result) ∈ LcnCommitor.calls succeeds true := by
        rw [hsuffix]
        exact List.mem_append_right _ List.mem_cons_self
      simp [LcnCommitor.calls, hdelete] at hmem

/--
**A decision to commit is carried out exactly on those who have logged a statement.**

`others` says how the calls go that are not statements.
-/
theorem commit_decision_iff {executes : String → Bool} (hdb : ExecutesWellFormed executes)
    (jdbcTransaction : JdbcTransaction) (others : RawCall → Bool) (connection : RawConnection) :
    (∃ after, LcnCommitor.commit (LcnCommitor.succeeds executes jdbcTransaction others)
        (some connection) true = .ok after ∧ CommitsBeforeClose connection after)
      ↔ jdbcTransaction.transactionLogs ≠ [] := by
  have hdelete : LcnCommitor.succeeds executes jdbcTransaction others .delete
      = !jdbcTransaction.transactionLogs.isEmpty := TransactionLogExecutor.delete_eq hdb _
  generalize LcnCommitor.succeeds executes jdbcTransaction others = succeeds at hdelete ⊢
  have hiff : CommitsBeforeClose connection
        { calls := connection.calls ++ LcnCommitor.calls succeeds true }
      ↔ jdbcTransaction.transactionLogs ≠ [] := by
    rw [commitsBeforeClose_iff_delete rfl, hdelete]
    simp
  rw [LcnCommitor.commit_some]
  refine ⟨?_, ?_⟩
  · intro ⟨after, hok, hcommits⟩
    cases hok
    exact hiff.mp hcommits
  · intro hne
    exact ⟨_, rfl, hiff.mpr hne⟩

/-- One row has been logged. -/
theorem commit_decision_one :
    ∃ after, LcnCommitor.commit (LcnCommitor.succeeds
        (wellFormedIn "delete from `transaction_log` where id in (")
        { connection := 0, transactionLogs := [⟨7, some "g", "delete from t", 0, 0⟩] }
        fun _ => true) (some {}) true = .ok after ∧ CommitsBeforeClose {} after :=
  (commit_decision_iff executesWellFormed_wellFormedIn _ _ {}).mpr (by simp)

/-- Nothing has been logged: the connection is closed and not committed. -/
theorem commit_decision_lost :
    ¬ ∀ (executes : String → Bool), ExecutesWellFormed executes →
      ∀ (jdbcTransaction : JdbcTransaction) (others : RawCall → Bool)
        (connection : RawConnection),
        ∃ after, LcnCommitor.commit (LcnCommitor.succeeds executes jdbcTransaction others)
          (some connection) true = .ok after ∧ CommitsBeforeClose connection after := by
  intro h
  obtain ⟨after, hok, hcommits⟩ := h _ executesWellFormed_wellFormedIn
    { connection := 0 } (fun _ => true) {}
  have hempty : TransactionLogExecutor.delete
      (wellFormedIn "delete from `transaction_log` where id in (") { connection := 0 } = false :=
    wellFormedIn_append _ ""
  rw [LcnCommitor.commit_some] at hok
  cases hok
  have hdelete := (commitsBeforeClose_iff_delete rfl).mp hcommits
  exact absurd (hdelete.symm.trans hempty) (by simp)

end TxLcn.Proof
