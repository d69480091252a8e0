import TxLcn.Tc.Reporter
import TxLcn.Tm.Reporter

/-!
# Messages and the table of connections

A reporter selects from the table if there is something in it. If there is not,
it sends on the connection that it has selected in an earlier call, which has
been closed since.

`on_registered_iff` says that nothing else goes wrong, for the reporters of a TC
and of a TM.
-/

namespace TxLcn.Proof

open TxLcn.Lib TxLcn.Protocol TxLcn.Tc TxLcn.Tm

variable {Ch Call : Type}

/-- What a reporter does in a call. -/
abbrev Calls (Ch Call : Type) :=
  Call → ConnectionService Ch → Option (Connection Ch) → Option (Connection Ch) × Attempt Ch

/-- What the reporters have in common. -/
structure Selecting (calls : Calls Ch Call) : Prop where
  /-- With nothing to select from the leader stays, and is checked. -/
  empty : ∀ call table leader, table.connections = [] →
    ∃ message, calls call table leader = (leader, checkLeader leader message)
  /-- Otherwise a message is sent on one of the connections. -/
  selected : ∀ call table leader connection message, table.connections ≠ [] →
    (calls call table leader).2 = .sent connection message → connection ∈ table.connections

/-- A message is sent on a registered connection, and not without one. -/
def OnRegistered (s : Reporter Ch) : Prop :=
  ∀ table attempt, s.last = some (table, attempt) →
    (∀ connection message, attempt = .sent connection message → connection ∈ table.connections)
      ∧ (table.connections = [] → attempt = .noLeader)

/-- No call finds an empty table and a leader from before. -/
def Unstale (s : Reporter Ch) : Reporter.Event Ch Call → Prop
  | .call _ _ => s.protocoler.connectionService.connections = [] → s.leader = none
  | _ => True

variable {calls : Calls Ch Call} {s t : Reporter Ch} {e : Reporter.Event Ch Call}

/-! ## One step -/

theorem onRegistered_step (hcalls : Selecting calls) (hs : OnRegistered s) (hC : Unstale s e)
    (h : s.step calls e = some t) : OnRegistered t := by
  cases e with
  | handleConnectionOpened connection =>
      cases h
      exact hs
  | handleConnectionClosed connection =>
      cases h
      exact hs
  | call iteration call =>
      cases h
      intro table attempt hlast
      cases hlast
      cases hempty : s.protocoler.connectionService.connections with
      | nil =>
          -- there is no leader from before either, so `checkLeader` throws
          obtain ⟨message, heq⟩ := hcalls.empty call (iteration.table _) s.leader
            (Iteration.table_nil.mpr hempty)
          rw [heq, hC hempty]
          refine ⟨?_, fun _ => rfl⟩
          intro connection message' hsent
          cases hsent
      | cons c connections =>
          refine ⟨?_, fun hnil => by cases hnil⟩
          intro connection message hsent
          have hne : (iteration.table s.protocoler.connectionService).connections ≠ [] := by
            rw [ne_eq, Iteration.table_nil, hempty]
            exact List.cons_ne_nil _ _
          rw [← hempty, ← Iteration.mem_table]
          exact hcalls.selected call _ _ connection message hne hsent

/-- The stale leader is sent to. -/
theorem not_onRegistered_step (hcalls : Selecting calls) (hC : ¬ Unstale s e)
    (h : s.step calls e = some t) : ¬ OnRegistered t := by
  cases e with
  | handleConnectionOpened | handleConnectionClosed => exact absurd trivial hC
  | call iteration call =>
      cases h
      simp only [Unstale, Classical.not_imp] at hC
      obtain ⟨hempty, hleader⟩ := hC
      obtain ⟨c, hc⟩ := Option.ne_none_iff_exists'.mp hleader
      obtain ⟨message, heq⟩ := hcalls.empty call (iteration.table _) s.leader
        (Iteration.table_nil.mpr hempty)
      intro hregistered
      have hsent := (hregistered _ _ rfl).2 hempty
      rw [heq, hc] at hsent
      cases hsent

theorem onRegistered_iff_of_selecting (hcalls : Selecting calls)
    (es : List (Reporter.Event Ch Call)) :
    AllStates (Reporter.step calls) OnRegistered {} es
      ↔ AllSteps (Reporter.step calls) Unstale {} es :=
  allStates_iff_allSteps (fun _ hs => hs) (fun _ _ _ hs hC h => onRegistered_step hcalls hs hC h)
    (fun _ _ _ _ hC h => not_onRegistered_step hcalls hC h)
    (fun _ _ hlast => by cases hlast)

/-! ## The two reporters -/

theorem selecting_tc : Selecting (TxManagerReporter.Call.run : Calls Ch _) where
  empty := by
    intro call table leader hempty
    refine ⟨call.message, ?_⟩
    unfold TxManagerReporter.Call.run TxManagerReporter.selectLeader
    rw [hempty]
    rfl
  selected := by
    intro call table leader connection message hne hsent
    have hselects := @TxManagerReporter.selectLeader_some _ call.random _ leader hne
    obtain ⟨c, hc, hselect⟩ := hselects
    unfold TxManagerReporter.Call.run at hsent
    rw [hselect] at hsent
    cases hsent
    exact hc

theorem selecting_tm : Selecting (TmManagerReporter.Call.run : Calls Ch _) where
  empty := by
    intro call table leader hempty
    cases call with
    | sendMsg message =>
        refine ⟨message, ?_⟩
        unfold TmManagerReporter.Call.run
        rw [hempty]
        rfl
    | requestMsg ctx connection absMessage otherNodeList =>
        refine ⟨TmManagerReporter.requested ctx.randomUUID absMessage, ?_⟩
        unfold TmManagerReporter.Call.run TmManagerReporter.requestOn
          TmManagerReporter.selectLeaderWithoutTc
        dsimp only
        rw [hempty]
        rfl
  selected := by
    intro call table leader connection message hne hsent
    obtain ⟨first, rest, hcons⟩ := List.exists_cons_of_ne_nil hne
    rw [hcons]
    cases call with
    | sendMsg message =>
        unfold TmManagerReporter.Call.run at hsent
        rw [hcons] at hsent
        cases hsent
        exact List.mem_cons_self
    | requestMsg ctx connection' absMessage otherNodeList =>
        unfold TmManagerReporter.Call.run TmManagerReporter.requestOn at hsent
        dsimp only at hsent
        split at hsent
        · cases hsent
        · -- the TM that was selected is given up for the first connection
          rw [hcons] at hsent
          cases hsent
          exact List.mem_cons_self

/--
**A message goes to a registered connection, and none is sent without one, for
as long as** no call finds the table empty after another one has found a leader.
-/
theorem on_registered_iff :
    (∀ es, AllStates (Reporter.step (TxManagerReporter.Call.run : Calls Ch _)) OnRegistered {} es
        ↔ AllSteps (Reporter.step TxManagerReporter.Call.run) Unstale {} es)
      ∧ ∀ es, AllStates (Reporter.step (TmManagerReporter.Call.run : Calls Ch _)) OnRegistered {} es
        ↔ AllSteps (Reporter.step TmManagerReporter.Call.run) Unstale {} es :=
  ⟨onRegistered_iff_of_selecting selecting_tc, onRegistered_iff_of_selecting selecting_tm⟩

/-- A TC's only connection. -/
def onlyConnection : Connection Nat :=
  { channel := 0, remoteHost := "10.0.0.1", remotePort := 8070 }

/-- A call that draws the first connection. -/
def sendFirst : TxManagerReporter.Call :=
  .sendMsg (.create {}) { nextInt := fun _ => 0, lt := fun _ hpos => hpos }

/-- A TC sends, its only connection is closed, and it sends on it once more. -/
theorem not_on_registered : ¬ ∀ es,
    AllStates (Reporter.step (TxManagerReporter.Call.run : Calls Nat _)) OnRegistered {} es := by
  intro h
  have hrun : ∃ s, exec (Reporter.step TxManagerReporter.Call.run) {}
      [.handleConnectionOpened onlyConnection, .call .kept sendFirst,
        .handleConnectionClosed (some onlyConnection), .call .kept sendFirst] = some s
      ∧ s.last = some ({}, .sent onlyConnection (.create {})) := ⟨_, rfl, rfl⟩
  obtain ⟨s, hrun, hsent⟩ := hrun
  have hlast := (h _).last hrun
  exact List.not_mem_nil ((hlast _ _ hsent).1 onlyConnection (.create {}) rfl)

end TxLcn.Proof
