import TxLcn.Tm.LoadBalancer

/-!
# A TM that is alone

Whether there is another TM is not what the load balancer looks at: it counts
the connections. With one TC a lonely TM executes what it is asked to. With two
it requests the event of one of the TCs, which does nothing with it.
-/

namespace TxLcn.Proof

open TxLcn.Protocol TxLcn.Tm LoadBalancerInterceptor

variable {Ch : Type} [DecidableEq Ch]

/--
The business of the message is executed once, its TC gets one event, which is
the answer, and nobody else gets any.
-/
def Serves (ctx : TmContext Ch) (connection : Connection Ch) (leader : Option (Connection Ch))
    (m : Message) : Prop :=
  ∃ acts, (handle ctx connection leader m).2 = .returned acts ∧ executions acts = [m]
    ∧ (eventsOn connection acts).length = 1 ∧ ∀ c, c ≠ connection → eventsOn c acts = []

variable {ctx : TmContext Ch} {connection c : Connection Ch} {leader : Option (Connection Ch)}
  {m : Message}

/-- Nothing is put on a connection that is not in the table. -/
theorem eventsOn_execute_of_not_mem (hc : c ∉ ctx.table.connections) :
    eventsOn c (ctx.execute connection m).1 = [] := by
  have hsend : ∀ k m', eventsOn c (ctx.sendMsg k m') = [] := by
    intro k m'
    unfold TmContext.sendMsg
    split
    · rename_i c' hget
      have hne : c' ≠ c := fun heq =>
        hc (heq ▸ ConnectionService.mem_of_getConnection hget)
      simp [eventsOn, hne]
    · rfl
  unfold TmContext.execute
  split
  · rfl
  · rename_i m' out hexec
    rw [eventsOn_executed]
    clear hexec
    induction out with
    | nil => rfl
    | cons msg out ih => rw [List.flatMap_cons, eventsOn_append, hsend, ih]; rfl

omit [DecidableEq Ch] in
/-- The first TM, if it has not just one connection, does not get to executing anything. -/
theorem handle_first_not_returned (hn : ctx.table.getNumberOfConnections ≠ 1)
    (hfirst : m.absMessage.isFirstNode = true) (acts : List (Act Ch)) :
    (handle ctx connection leader m).2 ≠ .returned acts := by
  unfold handle
  rw [if_neg hn, if_pos hfirst]
  dsimp only
  split
  · simp
  · split <;> simp

/-- **A TM serves the event of a TC just in case that is its only connection.** -/
theorem single_tm_iff (hc : connection ∈ ctx.table.connections)
    (hfirst : m.absMessage.isFirstNode = true) :
    Serves ctx connection leader m ↔ ctx.table.getNumberOfConnections = 1
      ∧ (EventService.execute ctx.services connection.uniqueKey m).isSome = true := by
  by_cases hn : ctx.table.getNumberOfConnections = 1
  · have hhandle : (handle ctx connection leader m).2
        = EventStatusHandler.onOneConnection ctx connection m := by
      unfold handle
      rw [if_pos hn]
    cases hexec : EventService.execute ctx.services connection.uniqueKey m with
    | none =>
        refine ⟨?_, fun h => absurd h.2 (by simp)⟩
        intro ⟨acts, hret, _⟩
        rw [hhandle, EventStatusHandler.onOneConnection, TmContext.execute, hexec] at hret
        cases hret
    | some result =>
        obtain ⟨m', out⟩ := result
        refine ⟨fun _ => ⟨hn, rfl⟩, fun _ => ⟨(ctx.execute connection m).1, ?_, ?_, ?_, ?_⟩⟩
        · rw [hhandle, EventStatusHandler.onOneConnection, TmContext.execute, hexec]
        · exact executions_execute
        · rw [eventsOn_execute hc hexec]
          rfl
        · intro c hne
          -- the table holds no other connection
          obtain ⟨only, honly⟩ := List.length_eq_one_iff.mp hn
          refine eventsOn_execute_of_not_mem ?_
          rw [honly, List.mem_singleton] at hc ⊢
          exact fun hmem => hne (hmem.trans hc.symm)
  · refine ⟨?_, fun h => absurd h.1 hn⟩
    intro ⟨acts, hret, _⟩
    exact absurd hret (handle_first_not_returned hn hfirst acts)

/-- A TM that finds nobody else in the registry. -/
def lonelyTm (table : ConnectionService Bool) : TmContext Bool where
  table
  node := { id := "10.0.0.1:8070", registry := [], addressFormat := fun _ => none }
  services := .willing
  randomUUID := "uuid"

/-- Two TCs, the second of which asks. -/
def twoTcs : ConnectionService Bool where
  connections := [⟨false, "10.0.0.2", 50001⟩, ⟨true, "10.0.0.3", 50002⟩]
  distinct := by decide

/-- With one TC the event is executed and answered. -/
theorem single_tm_one : Serves (lonelyTm { connections := [⟨true, "10.0.0.3", 50002⟩] })
    ⟨true, "10.0.0.3", 50002⟩ none (.create { groupId := some "g", isFirstNode := true }) :=
  (single_tm_iff (by simp [lonelyTm]) rfl).mpr ⟨rfl, rfl⟩

/-- With two the event of the second is requested of the first. -/
theorem single_tm_forwards :
    ¬ ∀ (Ch : Type) [DecidableEq Ch] (ctx : TmContext Ch) (connection : Connection Ch)
      (leader : Option (Connection Ch)) (m : Message),
      ctx.node.getOtherNodeList = some [] → connection ∈ ctx.table.connections →
      m.balanced = true → m.absMessage.isFirstNode = true → Serves ctx connection leader m := by
  intro h
  have hserves := h Bool (lonelyTm twoTcs) ⟨true, "10.0.0.3", 50002⟩ none
    (.create { groupId := some "g", isFirstNode := true }) rfl (by simp [lonelyTm, twoTcs]) rfl rfl
  obtain ⟨acts, hret, _⟩ := hserves
  exact handle_first_not_returned (by decide) rfl acts hret

end TxLcn.Proof
