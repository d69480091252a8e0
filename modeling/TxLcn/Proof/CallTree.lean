import TxLcn.Proof.FailedJoin
import TxLcn.Proof.Isolation

/-!
# A tree of calls is one group

An annotated method that begins a transaction calls other modules, which call
others in turn. Each call carries the group in its header, and the thread that
serves it takes the group over. Nothing else is agreed between the modules.

`call_tree_in_one_group` says that this is enough: however deep the tree, all
that is asked of a TM in it is about the one group, only the method at the root
asks for the group and notifies it, and all other methods join it. It holds of
each thread until an annotated method has ended there.
-/

namespace TxLcn.Proof

open TxLcn.Tc TxLcn.Protocol TransactionAspectContext

variable {t u v : TcThread} {w : World} {body : Business} {i : Nat} {g : String} {exit : Exit}
  {creator : Bool} {ms ns : List Mark} {next : TcThread × Option Exit}

/-- What is asked of a TM by the creator of the group, and by the others. -/
def Asks (g : String) (creator : Bool) (message : Message) : Prop :=
  if creator = true then
    message = .create (.new (some g)) ∨ ∃ b, message = .notify (.new (some g) b)
  else message = .join (.new (some g))

/-- What a thread does for the group: what it asks for, calls and leaves to a task. -/
def MarkOf (g : String) (creator : Bool) : Mark → Prop
  | .sent message => Asks g creator message
  | .outbound header => header = .ok (some g)
  | .executeJoin transactionInfo _ => creator = false ∧ transactionInfo.groupId = some g
      ∧ transactionInfo.transactionState = .JOIN
  | _ => True

/-- The states of the creator of a group, and of the others. -/
def StateOf (creator : Bool) (state : TransactionState) : Prop :=
  if creator = true then state = .CREATE ∨ state = .NOTIFY else state = .JOIN

/-- The thread refers to a transaction of the group. -/
structure InGroup (g : String) (creator : Bool) (t : TcThread) (i : Nat) : Prop where
  current : t.current = some i
  allocated : i < t.allocated
  groupId : (t.infos i).groupId = some g
  state : StateOf creator (t.infos i).transactionState

/--
A request that is made in the course of what `root` tells, and the thread that
serves it: directly, or in the course of such a request. The thread refers to no
transaction when the request comes in.
-/
inductive InCallTree (root : List Mark) : RpcRequest → TcThread → Prop where
  | direct {r : RpcRequest} {u : TcThread} (hcall : .outbound (.ok r.groupId) ∈ untilEnded root)
      (hidle : u.current = none) : InCallTree root r u
  | further {r r' : RpcRequest} {u u' : TcThread} (hserved : InCallTree root r u)
      (hcall : .outbound (.ok r'.groupId) ∈ r.begins u) (hidle : u'.current = none) :
      InCallTree root r' u'

/-! ## A thread in a group -/

theorem StateOf.notify (h : StateOf creator .CREATE) :
    StateOf creator .NOTIFY := by
  cases creator with
  | true => exact Or.inr rfl
  | false => cases h

theorem InGroup.of_frame (h : InGroup g creator t i) (hf : TcThread.Frame t u)
    (hc : u.current = t.current) : InGroup g creator u i where
  current := hc.trans h.current
  allocated := h.allocated.trans_le hf.allocated
  groupId := (hf.groupId i h.allocated).trans h.groupId
  state := by
    rcases hf.state i h.allocated with hsame | ⟨hcreate, hnotify⟩
    · rw [hsame]
      exact h.state
    · have hold := h.state
      rw [hcreate] at hold
      rw [hnotify]
      exact hold.notify

/-- Marks of the group, until an annotated method has ended. -/
def AllMarksOf (g : String) (creator : Bool) (ms : List Mark) : Prop :=
  ∀ m ∈ untilEnded ms, MarkOf g creator m

theorem AllMarksOf.of_forall (h : ∀ m ∈ ms, MarkOf g creator m) : AllMarksOf g creator ms :=
  fun m hm => h m ((List.takeWhile_prefix _).subset hm)

theorem AllMarksOf.append (hms : AllMarksOf g creator ms)
    (hns : .ended ∉ ms → AllMarksOf g creator ns) : AllMarksOf g creator (ms ++ ns) := by
  by_cases hended : .ended ∈ ms
  · intro m hm
    rw [untilEnded_append_of_mem hended] at hm
    exact hms m hm
  · intro m hm
    rw [untilEnded_append_of_not_mem hended] at hm
    rcases List.mem_append.mp hm with hm | hm
    · exact hms m (by rwa [untilEnded_of_not_mem hended])
    · exact hns hended m hm

/-- What a piece of code does is of the group, and unless a method has ended, so is the thread. -/
def StaysInGroup (g : String) (creator : Bool) (i : Nat) (t : TcThread)
    (next : TcThread × Option Exit) : Prop :=
  ∃ ms, next.1.marks = t.marks ++ ms ∧ AllMarksOf g creator ms
    ∧ (next.2 ≠ none → .ended ∉ ms → InGroup g creator next.1 i)

theorem StaysInGroup.trans {e : Exit} (h : StaysInGroup g creator i t (u, some e))
    (hmarks : u.marks <+: next.1.marks)
    (hnext : InGroup g creator u i → StaysInGroup g creator i u next) :
    StaysInGroup g creator i t next := by
  obtain ⟨ms, hms, hwithin, hlast⟩ := h
  dsimp only at hms hlast
  by_cases hended : .ended ∈ ms
  · obtain ⟨ns, hns⟩ := hmarks
    refine ⟨ms ++ ns, by rw [← hns, hms, List.append_assoc], ?_, ?_⟩
    · exact hwithin.append fun hnot => absurd hended hnot
    · exact fun _ hnot => absurd (List.mem_append_left _ hended) hnot
  · obtain ⟨ns, hns, hwithin', hlast'⟩ := hnext (hlast (by simp) hended)
    refine ⟨ms ++ ns, by rw [hns, hms, List.append_assoc], hwithin.append fun _ => hwithin', ?_⟩
    exact fun hnone hnot => hlast' hnone fun hmem => hnot (List.mem_append_right _ hmem)

/-! ## The two ends of a method -/

theorem markOf_rawMark (c : Nat × RawCall × Bool) : MarkOf g creator (TcThread.rawMark c) := trivial

theorem markOf_written {message : Message} {α : Type} {reply : Reply α}
    (h : Asks g creator message) : ∀ m ∈ TcThread.written message reply, MarkOf g creator m := by
  intro m hm
  unfold TcThread.written at hm
  split at hm
  · cases hm
  · cases List.mem_singleton.mp hm
    exact h

/-- The create request of a method that begins, if it is one of the creator. -/
theorem begin_marks (h : InGroup g creator t i) :
    ∃ ms, (TransactionContext.tryBeginTransaction w i t).1 = t.marked ms
      ∧ ∀ m ∈ ms, MarkOf g creator m := by
  by_cases hs : (t.infos i).transactionState = .CREATE
  · refine ⟨_, by rw [tryBeginTransaction_create hs h.groupId], markOf_written ?_⟩
    have hstate := h.state
    rw [hs] at hstate
    cases creator with
    | true => exact Or.inl rfl
    | false => cases hstate
  · exact ⟨[], by rw [tryBeginTransaction_else hs, TcThread.marked_nil], by simp⟩

/-- The end step of the creator writes its notification. -/
theorem finish_notify_marks (w : World) (exit : Exit) (hg : (t.infos i).groupId = some g)
    (hs : (t.infos i).transactionState = .NOTIFY) :
    ∃ ms, (finish w i exit t).1.marks = t.marks ++ ms ∧ ∀ m ∈ ms, MarkOf g true m := by
  cases hb : (t.infos i).successReturn with
  | none =>
      refine ⟨[.ended], by rw [finish_unset hs hb]; rfl, ?_⟩
      intro m hm
      cases List.mem_singleton.mp hm
      trivial
  | some b =>
      have htold : Told w g b exit t (finish w i exit t) := finish_told hs hb hg
      obtain ⟨calls, last, hm, hlast, _⟩ := htold.marks
      refine ⟨_, hm, fun m hmem => ?_⟩
      rcases List.mem_append.mp hmem with hmem | hmem
      · obtain ⟨_, rfl⟩ := List.mem_replicate.mp hmem
        exact Or.inr ⟨b, rfl⟩
      · rcases List.mem_append.mp hmem with hmem | hmem
        · obtain ⟨c, _, rfl⟩ := List.mem_map.mp hmem
          exact markOf_rawMark c
        · rcases hlast with rfl | rfl
          · cases hmem
          · cases List.mem_singleton.mp hmem
            trivial

theorem commit_marks (t : TcThread) (succeeds : RawCall → Bool) (d : Bool) :
    ∃ ms, (t.commit succeeds d).1 = t.marked ms ∧ ∀ m ∈ ms, MarkOf g creator m := by
  cases hc : t.commitCalls succeeds d with
  | error thrown => exact ⟨[], by rw [TcThread.commit_error hc, TcThread.marked_nil], by simp⟩
  | ok calls =>
      refine ⟨calls.map TcThread.rawMark, by rw [TcThread.commit_ok hc], fun m hm => ?_⟩
      obtain ⟨c, _, rfl⟩ := List.mem_map.mp hm
      exact markOf_rawMark c

theorem append_marks (hms : ∀ m ∈ ms, MarkOf g creator m) (hns : ∀ m ∈ ns, MarkOf g creator m) :
    ∀ m ∈ ms ++ ns, MarkOf g creator m := fun m hm =>
  (List.mem_append.mp hm).elim (hms m) (hns m)

/-- The end step of a joiner asks to join, and leaves the rest to a task or rolls back. -/
theorem run_join_marks (w : World) (hg : (t.infos i).groupId = some g)
    (hs : (t.infos i).transactionState = .JOIN) :
    ∃ ms, (TransactionStepJoin.run w i t).1 = t.marked ms ∧ ∀ m ∈ ms, MarkOf g false m := by
  have hwritten : ∀ m ∈ TcThread.written (.join (.new (some g))) w.join, MarkOf g false m :=
    markOf_written rfl
  unfold TransactionStepJoin.run
  rw [hg, TcThread.requestMsg_of_group rfl]
  generalize TcThread.written (.join (.new (some g))) w.join = ms at hwritten ⊢
  split <;> rename_i heq <;> obtain ⟨rfl, _⟩ := Prod.mk.inj heq
  · exact ⟨ms, rfl, hwritten⟩
  · obtain ⟨ns, hns, hraw⟩ := commit_marks (g := g) (t.marked ms) w.succeeds false
    split <;> rename_i hc <;> rw [hc] at hns <;> dsimp only at hns <;> subst hns <;>
      exact ⟨ms ++ ns, TcThread.marked_marked, append_marks hwritten hraw⟩
  · refine ⟨ms ++ [.executeJoin (t.infos i) t.jdbcTransaction], TcThread.marked_marked,
      append_marks hwritten fun m hm => ?_⟩
    cases List.mem_singleton.mp hm
    exact ⟨rfl, hg, hs⟩

/-- The end of a method in the group, whoever it is. -/
theorem finish_markOf (h : InGroup g creator t i) (w : World) (exit : Exit) :
    ∃ ms, (finish w i exit t).1.marks = t.marks ++ ms ∧ ∀ m ∈ ms, MarkOf g creator m := by
  have hstate := h.state
  cases creator with
  | true =>
      rcases hstate with hs | hs
      · rw [finish_create hs]
        exact finish_notify_marks (t := t.setTransactionState i .NOTIFY) w exit
          (by simp [h.groupId]) (by simp)
      · exact finish_notify_marks w exit h.groupId hs
  | false =>
      have hs : (t.infos i).transactionState = .JOIN := hstate
      have hend : TransactionContext.tryEndTransaction w i t
          = ((TransactionStepJoin.run w i t).1, some (TransactionStepJoin.run w i t).2) := by
        simp [TransactionContext.tryEndTransaction, hs]
      obtain ⟨ms, hms, hall⟩ := run_join_marks w h.groupId hs
      refine ⟨ms ++ [.ended], ?_, append_marks hall fun m hm => ?_⟩
      · rw [finish, hend, hms]
        generalize (TransactionStepJoin.run w i t).2 = ended
        cases ended <;> simp
      · cases List.mem_singleton.mp hm
        trivial

/-! ## An annotated method -/

/-- From where it has entered a method is of the group, and then it has ended. -/
theorem invoke_marks (h : InGroup g creator (enter w t).2 (enter w t).1)
    (hbody : ∀ u, InGroup g creator u (enter w t).1 →
      StaysInGroup g creator (enter w t).1 u (body.run u)) :
    ∃ ms, (runWithTransaction true w body.run t).1.marks = t.marks ++ ms
      ∧ AllMarksOf g creator ms
      ∧ ((runWithTransaction true w body.run t).2 ≠ none → .ended ∈ ms) := by
  have hattempt : ∃ ms, (attempt w (enter w t).1 body.run (enter w t).2).1.marks = t.marks ++ ms
      ∧ AllMarksOf g creator ms
      ∧ ((attempt w (enter w t).1 body.run (enter w t).2).2 ≠ none → .ended ∉ ms →
        InGroup g creator (attempt w (enter w t).1 body.run (enter w t).2).1 (enter w t).1) := by
    obtain ⟨ms, hms, hall⟩ := begin_marks (w := w) h
    have hbegun : InGroup g creator ((enter w t).2.marked ms) (enter w t).1 :=
      h.of_frame (TcThread.Frame.marked ms) rfl
    unfold attempt
    split <;> rename_i heq <;> rw [heq] at hms <;> dsimp only at hms <;> subst hms
    · obtain ⟨ns, hns, hwithin, hlast⟩ := hbody _ hbegun
      refine ⟨ms ++ ns, by simp [hns], (AllMarksOf.of_forall hall).append fun _ => hwithin, ?_⟩
      exact fun hnone hnot => hlast hnone fun hmem => hnot (List.mem_append_right _ hmem)
    · exact ⟨ms, by simp, AllMarksOf.of_forall hall, fun _ _ => hbegun⟩
  obtain ⟨ms, hms, hwithin, hlast⟩ := hattempt
  unfold runWithTransaction
  simp only [if_true]
  split <;> rename_i heq <;> rw [heq] at hms hlast <;> dsimp only at hms hlast
  · exact ⟨ms, hms, hwithin, fun h => absurd rfl h⟩
  · rename_i v exit
    obtain ⟨ns, hns, _, hended⟩ := finish_ended w (enter w t).1 exit (note (enter w t).1 exit v)
    refine ⟨ms ++ ns, by rw [hns, note_marks, hms, List.append_assoc], ?_,
      fun hnone => List.mem_append_right _ (hended hnone)⟩
    refine hwithin.append fun hnot => ?_
    have hin : InGroup g creator (note (enter w t).1 exit v) (enter w t).1 := by
      refine (hlast (by simp) hnot).of_frame frame_note ?_
      cases exit <;> rfl
    obtain ⟨ns', hns', hall⟩ := finish_markOf hin w exit
    obtain rfl : ns' = ns := List.append_cancel_left (hns'.symm.trans hns)
    exact AllMarksOf.of_forall hall

/-- A method that is entered in the group has entered it. -/
theorem InGroup.enter (h : InGroup g creator t i) (w : World) :
    (TransactionAspectContext.enter w t).1 = i
      ∧ InGroup g creator (TransactionAspectContext.enter w t).2 i := by
  have hcurrent : (TransactionAspectContext.enter w t).2.current = t.current := by
    simp [TransactionAspectContext.enter, h.current, TcThread.setTransactionType]
  exact ⟨by simp [TransactionAspectContext.enter, h.current], h.of_frame frame_enter hcurrent⟩

/-- **Whatever runs on a thread in a group is of that group, until a method has ended.** -/
theorem staysInGroup_run (b : Business) (t : TcThread) (h : InGroup g creator t i) :
    StaysInGroup g creator i t (b.run t) := by
  induction b generalizing t with
  | ends how => exact ⟨[], by simp [Business.run], .of_forall (by simp), fun _ _ => h⟩
  | code next ih =>
      have hstep : StaysInGroup g creator i t (t.marked [.code], some .returned) :=
        ⟨[.code], rfl, .of_forall (by simp [MarkOf]),
          fun _ _ => h.of_frame (TcThread.Frame.marked _) rfl⟩
      exact hstep.trans (next.frame_run _).marks (ih _)
  | jdbc op next ih =>
      obtain ⟨hi, ha, hc, hm⟩ := op.run_keeps (t.marked [.code])
      have hin : InGroup g creator (op.run (t.marked [.code])).1 i :=
        h.of_frame (TcThread.Frame.of_infos (by rw [hm]; exact List.prefix_append _ _) hi ha) hc
      have hstep : StaysInGroup g creator i t ((op.run (t.marked [.code])).1, some .returned) :=
        ⟨[.code], hm, .of_forall (by simp [MarkOf]), fun _ _ => hin⟩
      rw [Business.run_jdbc]
      exact hstep.trans ((next _).frame_run _).marks (ih _ _)
  | outbound how next ih =>
      have hheader : RpcTransactionContext.build t.currentInfo = .ok (some g) := by
        rw [TcThread.currentInfo_eq h.current, RpcTransactionContext.build, h.groupId]
      have hstep : StaysInGroup g creator i t ((t.outbound how).1, some .returned) := by
        rw [TcThread.outbound_eq, hheader]
        exact ⟨[.outbound (.ok (some g))], rfl, .of_forall (by simp [MarkOf]),
          fun _ _ => h.of_frame (TcThread.Frame.marked _) rfl⟩
      rw [Business.run_outbound]
      exact hstep.trans ((next _).frame_run _).marks (ih _ _)
  | call annotated w body next ihb ihn =>
      have hstep : StaysInGroup g creator i t (runWithTransaction annotated w body.run t) := by
        cases annotated with
        | false => exact ihb t h
        | true =>
            obtain ⟨hi, hin⟩ := h.enter w
            rw [← hi] at hin ihb
            obtain ⟨ms, hms, hwithin, hended⟩ := invoke_marks hin ihb
            exact ⟨ms, hms, hwithin, fun hnone hnot => absurd (hended hnone) hnot⟩
      unfold Business.run
      split <;> rename_i heq <;> rw [heq] at hstep
      · exact hstep
      · exact hstep.trans ((next _).frame_run _).marks (ihn _ _)

/-! ## The tree -/

/-- A request with the group is served in the group. -/
theorem begins_markOf {r : RpcRequest} (hg : r.groupId = some g) (hne : g ≠ "")
    (hidle : u.current = none) : ∀ m ∈ r.begins u, MarkOf g false m := by
  obtain ⟨hcurrent, hallocated, hgroup, hstate⟩ := joining_invoke hidle hne
  have hin : InGroup g false (r.invoked u) u.allocated := by
    rw [RpcRequest.invoked, hg]
    exact ⟨hcurrent, hallocated, hgroup, hstate⟩
  obtain ⟨ms, hms, hwithin, _⟩ := staysInGroup_run r.business _ hin
  unfold RpcRequest.begins RpcRequest.served
  rw [hms, List.drop_left]
  exact hwithin

/--
**Everything in a tree of calls is about the one group.** The method at the root
begins a transaction. What it asks of the TM is to create its group and to notify
it, every request below it carries the group, however far below, and what is
asked there is to join it.
-/
theorem call_tree_in_one_group (w : World) (body : Business) (t : TcThread)
    (hidle : t.current = none) (hg : w.groupId = some g) (hne : g ≠ "") :
    (∀ m ∈ untilEnded (since t (invoke w body t).1), MarkOf g true m)
      ∧ ∀ r u, InCallTree (since t (invoke w body t).1) r u →
        r.groupId = some g ∧ ∀ m ∈ r.begins u, MarkOf g false m := by
  have hroot : ∀ m ∈ untilEnded (since t (invoke w body t).1), MarkOf g true m := by
    obtain ⟨hi, hin, _, hstate⟩ := enter_fresh hidle hg
    have hentered : InGroup g true (enter w t).2 (enter w t).1 := by
      rw [hi]
      exact ⟨hin.current, hin.allocated, hin.groupId, Or.inl hstate⟩
    obtain ⟨ms, hms, hwithin, _⟩ :=
      invoke_marks hentered fun u hu => staysInGroup_run body u hu
    rw [since, invoke, hms, List.drop_left]
    exact hwithin
  refine ⟨hroot, fun r u hcalled => ?_⟩
  -- a header is set from the group of the thread that calls
  induction hcalled with
  | @direct r u hcall hidle =>
      have hheader : r.groupId = some g := Except.ok.inj (hroot _ hcall)
      exact ⟨hheader, begins_markOf hheader hne hidle⟩
  | @further r r' u u' _ hcall hidle ih =>
      have hheader : r'.groupId = some g := Except.ok.inj (ih.2 _ hcall)
      exact ⟨hheader, begins_markOf hheader hne hidle⟩

/-- A method that calls a module, which calls another one before its own method runs. -/
theorem called_twice : ∃ (w : World) (body : Business) (r r' : RpcRequest),
    InCallTree (since {} (invoke w body {}).1) r {}
      ∧ InCallTree (since {} (invoke w body {}).1) r' {}
      ∧ .sent (.join (.new (some "g"))) ∈ r'.begins {}
      ∧ ∀ m ∈ r'.begins {}, MarkOf "g" false m := by
  let w : World := {
    groupId := some "g"
    create := .answered (.new (some "g"))
    notify := [.answered (.new (some "g") true)]
    join := .answered (.new (some "g"))
    succeeds := fun _ => true }
  let body : Business := .outbound .returned .ends
  have hdirect : InCallTree (since {} (invoke w body {}).1) ⟨some "g", body⟩ {} :=
    .direct (by decide) rfl
  have hfurther : InCallTree (since {} (invoke w body {}).1)
      ⟨some "g", .call true w (.ends .returned) .ends⟩ {} :=
    .further hdirect (by decide) rfl
  exact ⟨w, body, _, _, hdirect, hfurther, by decide,
    ((call_tree_in_one_group w body {} rfl rfl (by decide)).2 _ _ hfurther).2⟩

end TxLcn.Proof
