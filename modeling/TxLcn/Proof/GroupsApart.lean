import TxLcn.Lib.KeyedProg
import TxLcn.Tm.Event

/-!
# Groups do not meet in the store

The messages of many groups are handled at the same time, by the threads of one
TM and by several TMs on one store, and the Redis commands of one call fall
between those of another. All commands of a call are about the key of its group,
so the calls about different groups do not meet: `groups_independent`.

What goes wrong in the store goes wrong between two calls about one group. A TM
that handled the messages of each group one at a time, and those of different
groups in any order it likes, would return and store what a TM does that handles
all messages one at a time: `handled_one_at_a_time`.
-/

namespace TxLcn.Proof

open TxLcn.Lib TxLcn.Tm TxLcn.Protocol Prog

/-- The key a message is about. One without a group takes no command, so any key will do. -/
def groupKey (ev : Event) : String := ev.groupId.getD ""

theorem groupKey_of_some {ev : Event} {g : String} (h : ev.groupId = some g) :
    groupKey ev = g := by
  rw [groupKey, h]
  rfl

/-- **Every command of a message's business is about its group.** -/
theorem business_onKey (ev : Event) : ev.business.OnKey (groupKey ev) := by
  cases hg : ev.groupId with
  | none =>
      have hpure : ev.business = pure [] := by
        cases ev <;> simp only [Event.groupId] at hg <;>
          simp only [Event.business, TransactionCreateEvent.business,
            TransactionJoinEvent.business, TransactionNotifyEvent.business, hg, refuseNullKey]
      rw [hpure]
      exact .pure _ _
  | some g =>
      rw [groupKey_of_some hg]
      cases ev with
      | create event k now =>
          have hgroup : event.groupId = some g := hg
          simp only [Event.business, TransactionCreateEvent.business, hgroup]
          exact (OnKey.setValue g _).bind fun _ => .pure g _
      | join event k now =>
          have hgroup : event.groupId = some g := hg
          simp only [Event.business, TransactionJoinEvent.business, hgroup]
          refine OnKey.bind ?_ fun _ => .pure g _
          refine (OnKey.getValue g).bind fun v => ?_
          cases v with
          | none => exact .pure g _
          | some G => exact .setValue g _
      | notify event k =>
          have hgroup : event.groupId = some g := hg
          simp only [Event.business, TransactionNotifyEvent.business, hgroup]
          refine OnKey.bind ?_ fun r => ?_
          · refine (OnKey.getValue g).bind fun v => ?_
            cases v with
            | none => exact .pure g _
            | some G => exact (OnKey.setValue g _).bind fun _ => .pure g _
          · cases r with
            | none => exact .pure g _
            | some G => exact .pure g _

variable {ι : Type} [DecidableEq ι] {messages : ι → Event} {s : String → Option TransactionGroup}
  {es : List ι} {P : Pool ι String TransactionGroup Outbox}

/-- The messages, none of them begun, on the store `s`. -/
abbrev unhandled (messages : ι → Event) (s : String → Option TransactionGroup) :
    Pool ι String TransactionGroup Outbox :=
  Pool.start (fun i => (messages i).business) s

/-- The pools agree on the record of `g`, and on how far the messages about `g` are. -/
def AgreeOn (messages : ι → Event) (g : String)
    (P Q : Pool ι String TransactionGroup Outbox) : Prop :=
  Pool.SameAt (fun i => groupKey (messages i)) g P Q

/--
**Groups are independent.**

What becomes of the record of `g`, and what is sent about `g`, is what the
commands about `g` alone make of it; and so in whatever order they are
interleaved with those about other groups.
-/
theorem groups_independent (messages : ι → Event) (s : String → Option TransactionGroup)
    (es : List ι) (P : Pool ι String TransactionGroup Outbox) (g : String)
    (hrun : exec Pool.step (unhandled messages s) es = some P) :
    (∃ Q, exec Pool.step (unhandled messages s) (es.filter fun i => groupKey (messages i) = g)
        = some Q ∧ AgreeOn messages g P Q)
      ∧ ∀ fs P', exec Pool.step (unhandled messages s) fs = some P' →
        (es.filter fun i => groupKey (messages i) = g)
          = fs.filter (fun i => groupKey (messages i) = g) → AgreeOn messages g P P' := by
  have hkeyed : Pool.Keyed (fun i => groupKey (messages i)) (unhandled messages s) :=
    fun i => business_onKey (messages i)
  refine ⟨?_, ?_⟩
  · exact (Pool.partOf_key _ g).exec_filter hkeyed (Pool.SameAt.refl _ g _) hrun
  · intro fs P' hrun' hes
    exact Pool.sameAt_of_filter_eq hkeyed hrun hrun' hes

/-! ## Kept apart within each group -/

/-- What the handling of a message has returned. -/
def outboxOf (P : Pool ι String TransactionGroup Outbox) (i : ι) : Outbox :=
  match P.rest i with
  | .ret out => out
  | _ => []

omit [DecidableEq ι] in
/-- One at a time, in a given order: what is stored is what the calls make of it in turn. -/
theorem exec_one_at_a_time (connections : String → Bool) (out : ι → Outbox) :
    ∀ (order : List ι) (s : String → Option TransactionGroup) (sent : Outbox),
      (∀ before i after, order = before ++ i :: after → out i =
        ((messages i).business.eval
          (Pool.sequential (fun i => (messages i).business) s before)).1) →
      exec (TmState.step connections) { store := s, sent } (order.map messages)
        = some { store := Pool.sequential (fun i => (messages i).business) s order
                 sent := sent ++ order.flatMap fun i => sendMsg connections (out i) } := by
  intro order
  induction order with
  | nil => intro s sent _; simp [Pool.sequential]
  | cons i order ih =>
      intro s sent hout
      have hi : out i = ((messages i).business.eval s).1 := hout [] i order rfl
      rw [List.map_cons, exec_cons, step_eq, Option.bind_some, ih]
      · rw [List.flatMap_cons, ← List.append_assoc, hi]
        rfl
      · intro before j after hsplit
        exact hout (i :: before) j after (by rw [hsplit]; rfl)

/--
**To handle one message of each group at a time is to handle one at a time.**

As long as no message of a group has a command between those of another one, the
TMs return what a single TM returns that handles the messages whole, in the order
in which they were done with. A group no message is underway about is stored as
that TM stores it.
-/
theorem handled_one_at_a_time (messages : ι → Event) (s : String → Option TransactionGroup)
    (connections : String → Bool) (es : List ι) (P : Pool ι String TransactionGroup Outbox)
    (hC : AllSteps Pool.step
      (Pool.Apart (fun i => groupKey (messages i)) fun i => (messages i).business)
      (unhandled messages s) es)
    (hrun : exec Pool.step (unhandled messages s) es = some P) :
    (∀ i ∈ P.done, P.rest i = .ret (outboxOf P i))
      ∧ ∃ tm, exec (TmState.step connections) { store := s } (P.done.map messages) = some tm
        ∧ tm.sent = (P.done.flatMap fun i => sendMsg connections (outboxOf P i))
        ∧ ∀ g, (∀ i, groupKey (messages i) = g →
            Pool.Idle (fun i => (messages i).business) P i) → P.store g = tm.store g := by
  have hserial := Pool.serial_of_apart (fun i => business_onKey (messages i)) hC hrun
  have hreturned : ∀ before i after, P.done = before ++ i :: after → outboxOf P i
      = ((messages i).business.eval
          (Pool.sequential (fun i => (messages i).business) s before)).1 := by
    intro before i after hsplit
    rw [outboxOf, hserial.returned before i after hsplit]
  refine ⟨?_, _, exec_one_at_a_time connections (outboxOf P) P.done s [] hreturned, rfl, ?_⟩
  · intro i hi
    obtain ⟨before, after, hsplit⟩ := List.append_of_mem hi
    rw [hserial.returned before i after hsplit, hreturned before i after hsplit]
  · intro g hidle
    exact hserial.store g hidle

/-! ## A join of one group between the commands of a notification of another -/

/-- Two groups, each stored with its creator. -/
def twoGroups : String → Option TransactionGroup :=
  Function.update (Function.update (fun _ => none) "g" (some (.new "g" "a" none .REQUEST 0)))
    "h" (some (.new "h" "b" none .REQUEST 0))

/-- A join of the one and the notification of the other. -/
def oneOfEach : Bool → Event
  | false => .join { groupId := some "g", moduleName := none } "c" 1
  | true => .notify { groupId := some "h", success := true } "b"

theorem join_seen_alone : ∃ P Q,
    exec Pool.step (unhandled oneOfEach twoGroups) [false, true, false, true] = some P
      ∧ exec Pool.step (unhandled oneOfEach twoGroups) [false, false] = some Q
      ∧ AgreeOn oneOfEach "g" P Q := by
  obtain ⟨⟨Q, hQ, hagree⟩, _⟩ :=
    groups_independent oneOfEach twoGroups [false, true, false, true] _ "g" rfl
  exact ⟨_, Q, rfl, hQ, hagree⟩

/-- A join and then the notification of one group, and beside them that of the other. -/
def threeOf : Fin 3 → Event
  | 0 => .join { groupId := some "g", moduleName := none } "c" 1
  | 1 => .notify { groupId := some "h", success := true } "b"
  | 2 => .notify { groupId := some "g", success := true } "a"

theorem both_handled : ∃ P tm,
    exec Pool.step (unhandled threeOf twoGroups) [0, 1, 0, 2, 1, 2] = some P
      ∧ exec (TmState.step fun _ => true) { store := twoGroups } (P.done.map threeOf) = some tm
      ∧ P.done = [0, 1, 2] ∧ P.store "g" = tm.store "g" ∧ P.store "h" = tm.store "h" := by
  have hnone : ∀ j, j ≠ 1 → groupKey (threeOf j) ≠ groupKey (threeOf 1) := by decide
  have hfirst : ∀ j, j ≠ 0 → groupKey (threeOf j) = groupKey (threeOf 0) → j = 2 := by decide
  have hsecond : ∀ j, j ≠ 2 → groupKey (threeOf j) = groupKey (threeOf 2) → j = 0 := by decide
  have hC : AllSteps Pool.step
      (Pool.Apart (fun i => groupKey (threeOf i)) fun i => (threeOf i).business)
      (unhandled threeOf twoGroups) [0, 1, 0, 2, 1, 2] := by
    -- while the join has a command, the notification of its group has not begun
    refine (allSteps_cons rfl).mpr ⟨fun j hj hkey => ?_, ?_⟩
    · rw [hfirst j hj hkey]
      exact Or.inl rfl
    refine (allSteps_cons rfl).mpr ⟨fun j hj hkey => absurd hkey (hnone j hj), ?_⟩
    refine (allSteps_cons rfl).mpr ⟨fun j hj hkey => ?_, ?_⟩
    · rw [hfirst j hj hkey]
      exact Or.inl rfl
    -- and while that has one, the join is done with
    refine (allSteps_cons rfl).mpr ⟨fun j hj hkey => ?_, ?_⟩
    · rw [hsecond j hj hkey]
      exact Or.inr rfl
    refine (allSteps_cons rfl).mpr ⟨fun j hj hkey => absurd hkey (hnone j hj), ?_⟩
    refine (allSteps_cons rfl).mpr ⟨fun j hj hkey => ?_, trivial⟩
    rw [hsecond j hj hkey]
    exact Or.inr rfl
  obtain ⟨_, tm, htm, _, hstore⟩ :=
    handled_one_at_a_time threeOf twoGroups (fun _ => true) _ _ hC rfl
  refine ⟨_, tm, rfl, htm, rfl, hstore "g" fun i _ => Or.inr ?_, hstore "h" fun i _ => Or.inr ?_⟩
  -- in the end all messages are done with
  · revert i
    decide
  · revert i
    decide

end TxLcn.Proof
