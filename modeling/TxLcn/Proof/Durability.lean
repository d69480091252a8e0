import TxLcn.Proof.Analysis
import TxLcn.Tc.Proxied

/-!
# Whether a write is held back until the decision

Nothing that is called on a proxy makes the session commit, and the analysis
gives the flag back behind a rollback. What decides is whether the flag is still
the one with which the pool has handed the connection out.
-/

namespace TxLcn.Proof

open TxLcn.Lib TxLcn.Tc Proxied

variable {β : Type} {s t : Proxied β} {e : Event β}

/-- No change of the business is durable unless that was decided. -/
def Held (s : Proxied β) : Prop :=
  s.participation.decision ≠ some true → Written.changes s.session.durable = []

/-- A statement that changes something finds the flag taken away, or comes too late to matter. -/
def FlagTaken (s : Proxied β) : Event β → Prop
  | .execute e => e.changes = [] ∨ s.session.autoCommit = false ∨ s.session.closed = true
      ∨ s.participation.decision = some true
  | _ => True

/-- What holds as long as every statement has met the condition. -/
structure HeldBack (s : Proxied β) : Prop where
  clean : s.session.Clean
  held : Held s

@[simp] theorem changes_business {xs : List β} :
    Written.changes (xs.map Written.business) = xs := by
  unfold Written.changes
  rw [List.filterMap_map]
  exact List.filterMap_some

theorem changes_append {xs ys : List (Written β)} :
    Written.changes (xs ++ ys) = Written.changes xs ++ Written.changes ys :=
  List.filterMap_append

@[simp] theorem changes_inserted {ids : List Long} :
    Written.changes (ids.map (Written.inserted (β := β))) = [] := by
  simp [Written.changes, List.filterMap_map, Function.comp_def, Written.business?]

/-- The analysis is safe for the session that the statement leaves. -/
theorem safe_execute (s : Proxied β) (execution : Execution β) :
    Safe (s.session.write (execution.changes.map .business)) (s.execute execution).session := by
  rw [execute_session]
  exact (ends_onAfterAnyExecute.mono (fun _ _ h => h.safe) fun _ h => h).state

theorem heldBack_execute {execution : Execution β} (hs : HeldBack s)
    (hC : FlagTaken s (.execute execution)) : HeldBack (s.execute execution) := by
  have hclean : (s.session.write (execution.changes.map .business)).Clean :=
    Session.clean_write hs.clean
  obtain ⟨_, hsafe⟩ := safe_execute s execution
  obtain ⟨hclean', hdurable⟩ := hsafe hclean
  refine ⟨hclean', fun hd => ?_⟩
  rw [execute_decision] at hd
  have hwrite : (s.session.write (execution.changes.map .business)).durable
      = s.session.durable := by
    refine Session.write_durable ?_
    rcases hC with hnone | hflag | hclosed | hdecided
    · exact Or.inl (by rw [hnone]; rfl)
    · exact Or.inr (Or.inr hflag)
    · exact Or.inr (Or.inl hclosed)
    · exact absurd hdecided hd
  rw [hdurable, hwrite]
  exact hs.held hd

theorem clean_called {ids : List Long} {session : Session (Written β)} {call : RawCall × Bool}
    (h : session.Clean) : (called ids session call).Clean := by
  obtain ⟨c, b⟩ := call
  cases b with
  | false => rwa [called_failed]
  | true =>
      cases c with
      | delete => exact Session.clean_write h
      | commit => exact Session.clean_commit h
      | rollback => exact Session.clean_rollback h
      | close => exact Session.clean_close

theorem clean_foldl_called {ids : List Long} {calls : List (RawCall × Bool)}
    {session : Session (Written β)} (h : session.Clean) :
    (calls.foldl (called ids) session).Clean := by
  induction calls generalizing session with
  | nil => exact h
  | cons call calls ih => exact ih (clean_called h)

/-- To decide against it commits nothing. -/
theorem heldBack_decide {d : Bool} {succeeds : RawCall → Bool} (hs : HeldBack s)
    (hnone : s.participation.decision = none) : HeldBack (s.decide d succeeds) := by
  have hheld := hs.held (by simp [hnone])
  rcases decide_cases s d succeeds with
    ⟨_, _, hsession⟩ | ⟨_, _, hsession⟩
  · refine ⟨by rw [hsession]; exact clean_foldl_called hs.clean, fun hd => ?_⟩
    rw [decide_decision] at hd
    have hfalse : d = false := by simpa using hd
    rw [hsession, foldl_called_durable (not_mem_calls (by simp [hfalse]))]
    exact hheld
  · refine ⟨by rw [hsession]; exact hs.clean, fun _ => ?_⟩
    rw [hsession]
    exact hheld

theorem heldBack_step (hs : HeldBack s) (hC : FlagTaken s e) (h : s.step e = some t) :
    HeldBack t := by
  cases e with
  | execute execution =>
      cases h
      exact heldBack_execute hs hC
  | setAutoCommit autoCommit =>
      cases h
      refine ⟨Session.clean_setAutoCommit hs.clean, fun hd => ?_⟩
      dsimp only
      rw [Session.setAutoCommit_false_durable hs.clean]
      exact hs.held hd
  | commit saved =>
      cases h
      refine ⟨hs.clean, fun hd => ?_⟩
      simp only [commit_session, Session.elsewhere, changes_append, changes_inserted,
        List.append_nil]
      exact hs.held hd
  | rollback =>
      cases h
      exact ⟨hs.clean, hs.held⟩
  | close =>
      cases h
      exact hs
  | decide d succeeds =>
      simp only [step] at h
      split at h
      · rename_i hnone
        cases h
        exact heldBack_decide hs hnone
      · cases h

/-- Under the flag the changes of a statement are durable at once, whatever the analysis does. -/
theorem not_held_step (hs : HeldBack s) (hC : ¬ FlagTaken s e) (h : s.step e = some t) :
    ¬ Held t := by
  cases e with
  | execute execution =>
      cases h
      simp only [FlagTaken, not_or, Bool.not_eq_false, Bool.not_eq_true] at hC
      obtain ⟨hchanges, hflag, hopen, hundecided⟩ := hC
      intro hheld
      have hclean : (s.session.write (execution.changes.map .business)).Clean :=
        Session.clean_write hs.clean
      obtain ⟨_, hsafe⟩ := safe_execute s execution
      have hdurable := (hsafe hclean).2
      rw [Session.write_durable_of hopen hflag] at hdurable
      have hnone := hheld (by rwa [execute_decision])
      rw [hdurable, changes_append, changes_business] at hnone
      exact hchanges (List.append_eq_nil_iff.mp hnone).2
  | setAutoCommit | commit | rollback | close | decide => exact absurd trivial hC

/--
**Nothing is durable before it is decided, nor after it is decided against it,
exactly when** each statement that changes something finds the auto-commit flag
taken away, or the session closed, or the decision made to commit.
-/
theorem held_iff (groupId : String) (transactionState : TransactionState) (es : List (Event β)) :
    AllStates step Held (init groupId transactionState) es
      ↔ AllSteps step FlagTaken (init groupId transactionState) es :=
  allStates_iff_allSteps (fun _ hs => hs.held) (fun _ _ _ hs hC h => heldBack_step hs hC h)
    (fun _ _ _ hs hC h => not_held_step hs hC h) ⟨fun _ => rfl, fun _ => rfl⟩

/-- A statement with one change for which there is no handler: it is recorded as it is. -/
def plain (change : β) : Execution β where
  changes := [change]
  sql := "UPDATE account SET balance = 0 WHERE id = 1"
  platform :=
    { toUpperCase := id
      equalsIgnoreCase := (· == ·)
      parse _ := some .other
      print _ := ""
      stringValue := id }
  insert _ _ := none
  query _ _ := none
  refuses _ := false
  sqlType := MysqlSqlAnalyse.sqlType
  analyseHandlers := []
  tableList := none
  newLog sql := some { id := 1, groupId := some "g", sql, time := 0, flag := 0 }

/-- Business code that opens no local transaction. -/
theorem not_held : ¬ ∀ es : List (Event Nat),
    AllStates step Held (init "g" .CREATE) es := by
  intro h
  have hlast := (h [.execute (plain 0)]).last rfl
  cases hlast (by decide)

end TxLcn.Proof
