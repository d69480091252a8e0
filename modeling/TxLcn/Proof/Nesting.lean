import TxLcn.Tc.Invocation

/-!
# Nested invocations

The state strategy says `JOIN` for an annotated method that is invoked by
another one, but nothing is done with its answer: the inner invocation goes on
with the object of the outer one. It creates the group once more, or not, if it
is not the first; it notifies the TM, commits and clears the thread, all while
the outer business is still running.

`one_create_one_notify_iff` says when an invocation does what it should.
-/

namespace TxLcn.Proof

open TxLcn.Tc TxLcn.Protocol TransactionAspectContext

/-- An invocation of an annotated method. -/
def invoke (w : World) (body : Business) (t : TcThread) : TcThread × Option Exit :=
  runWithTransaction true w body.run t

/--
`V` holds of every annotated invocation that takes place while `b` runs, with
whether it is inside another one and the thread as it finds it.
-/
def EachCall (V : Bool → TcThread → World → Business → Prop) :
    Bool → Business → TcThread → Prop
  | _, .ends _, _ => True
  | inside, .code next, t => EachCall V inside next (t.marked [.code])
  | inside, .jdbc op next, t =>
      EachCall V inside (next (op.run (t.marked [.code])).2) (op.run (t.marked [.code])).1
  | inside, .outbound how next, t =>
      EachCall V inside (next (t.outbound how).2) (t.outbound how).1
  | inside, .call false _ body next, t =>
      EachCall V inside body t ∧ ∀ u e, body.run t = (u, some e) → EachCall V inside (next e) u
  | inside, .call true w body next, t =>
      (V inside t w body
        ∧ ∀ u, TransactionContext.tryBeginTransaction w (enter w t).1 (enter w t).2
            = (u, .returned) → EachCall V true body u)
        ∧ ∀ u e, invoke w body t = (u, some e) → EachCall V inside (next e) u

/-! ## What is asked of an invocation -/

/-- No request is written. -/
def Silent (ms : List Mark) : Prop := ∀ message, .sent message ∉ ms

/-- Nothing of the business runs. -/
def BusinessOver (ms : List Mark) : Prop := Mark.code ∉ ms ∧ ∀ header, .outbound header ∉ ms

/-- Nor is anything committed. -/
def Calm (ms : List Mark) : Prop := Silent ms ∧ ∀ c succeeded, .raw c .commit succeeded ∉ ms

/-- One create request, then the business, then one notification and its repetitions. -/
def Once (t : TcThread) (w : World) (body : Business) : Prop :=
  ∃ g b ms n rest, Silent ms ∧ Silent rest ∧ BusinessOver rest
    ∧ (invoke w body t).1.marks = t.marks ++ (.sent (.create (.new (some g))) :: (ms
      ++ (List.replicate (n + 1) (.sent (.notify (.new (some g) b))) ++ rest)))

/-- No request, no commit, and the object of the outer invocation is still the current one. -/
def Quiet (t : TcThread) (w : World) (body : Business) : Prop :=
  (∃ ms, Calm ms ∧ (invoke w body t).1.marks = t.marks ++ ms)
    ∧ (invoke w body t).1.current = t.current

/-- What is asked of an invocation, by whether it is inside another one. -/
def AsNested (inside : Bool) (t : TcThread) (w : World) (body : Business) : Prop :=
  if inside then Quiet t w body else Once t w body

/--
An outer invocation finds no object, gets a group, and writes both requests; and
its business has not ended by an `Error` before any outcome was noted.
-/
structure OuterInOrder (t : TcThread) (w : World) (body : Business) : Prop where
  clean : t.current = none
  groupId : w.groupId ≠ none
  create : w.create ≠ .threw false
  notify : w.notify.head? ≠ some (.threw false)
  outcome : ∀ u, attempt w (enter w t).1 body.run (enter w t).2 = (u, some .error) →
    (u.infos (enter w t).1).successReturn ≠ none

/-- Neither request of an inner invocation can be written. -/
structure InnerInOrder (t : TcThread) (w : World) : Prop where
  create : ∀ info, t.currentInfo = some info → info.transactionState = .CREATE →
    w.create = .threw false
  notify : w.notify.head? = some (.threw false)

/-- The condition, by whether the invocation is inside another one. -/
def InOrder (inside : Bool) (t : TcThread) (w : World) (body : Business) : Prop :=
  if inside then InnerInOrder t w else OuterInOrder t w body

/-! ## Threads inside and outside an invocation -/

variable {t u : TcThread} {w : World} {body : Business} {i : Nat} {g : String} {b : Bool}
  {ms ns : List Mark}

/-- An invocation with the object `i` and the group `g` is running. -/
structure Inside (i : Nat) (g : String) (t : TcThread) : Prop where
  current : t.current = some i
  allocated : i < t.allocated
  groupId : (t.infos i).groupId = some g
  state : (t.infos i).transactionState = .CREATE
    ∨ (t.infos i).transactionState = .NOTIFY ∧ (t.infos i).successReturn ≠ none

/-- None is; what the last one has left behind, if anything, has been through to its end. -/
def Outside (t : TcThread) : Prop :=
  t.current = none ∨ ∃ i g, Inside i g t ∧ (t.infos i).transactionState = .NOTIFY

/-- Only what `Inside` speaks about matters to it. -/
theorem Inside.of_eq (h : Inside i g t) (hi : u.infos = t.infos) (hc : u.current = t.current)
    (ha : u.allocated = t.allocated) : Inside i g u where
  current := hc.trans h.current
  allocated := ha ▸ h.allocated
  groupId := by rw [hi]; exact h.groupId
  state := by rw [hi]; exact h.state

theorem Inside.marked (h : Inside i g t) (ms : List Mark) : Inside i g (t.marked ms) :=
  h.of_eq rfl rfl rfl

theorem Inside.setTransactionType (h : Inside i g t) :
    Inside i g (t.setTransactionType i TransactionConstant.LCN) where
  current := h.current
  allocated := h.allocated
  groupId := by simpa using h.groupId
  state := by simpa using h.state

/-- The object with an outcome is inside, and so it is once its state is `NOTIFY`. -/
theorem Inside.setNotify (h : Inside i g t) (hb : (t.infos i).successReturn = some b) :
    Inside i g (t.setTransactionState i .NOTIFY) where
  current := h.current
  allocated := h.allocated
  groupId := by simpa using h.groupId
  state := Or.inr (by simp [hb])

theorem Inside.note (h : Inside i g t) (exit : Exit) : Inside i g (note i exit t) where
  current := by cases exit <;> exact h.current
  allocated := by cases exit <;> exact h.allocated
  groupId := by
    cases exit <;> simp [TransactionAspectContext.note, h.groupId]
  state := by
    cases exit with
    | error => exact h.state
    | _ =>
        rcases h.state with hs | ⟨hs, _⟩ <;>
          simp [TransactionAspectContext.note, hs]

theorem enter_inside (h : Inside i g t) :
    enter w t = (i, t.setTransactionType i TransactionConstant.LCN) := by
  simp [enter, h.current]

theorem silent_append : Silent (ms ++ ns) ↔ Silent ms ∧ Silent ns := by
  simp [Silent, forall_and]

theorem calm_append : Calm (ms ++ ns) ↔ Calm ms ∧ Calm ns := by
  simp only [Calm, silent_append, List.mem_append, not_or, forall_and]
  tauto

theorem calm_nil : Calm [] := by simp [Calm, Silent]

theorem calm_ended : Calm [.ended] := by simp [Calm, Silent]

/-- The notification is silent if it is not written. -/
theorem silent_notifications :
    Silent (notifications w g b) ↔ w.notify.head? = some (.threw false) := by
  rw [← TransactionStepNotify.writes_eq_zero (b := b)]
  simp [Silent, notifications, List.mem_replicate]

/-! ## The two halves of an invocation -/

/-- The create request of an invocation that finds the object `i`. -/
def begunMarks (w : World) (g : String) (i : Nat) (t : TcThread) : List Mark :=
  if (t.infos i).transactionState = .CREATE then
    TcThread.written (.create (.new (some g))) w.create
  else []

theorem begunMarks_eq_nil : begunMarks w g i t = []
    ↔ ((t.infos i).transactionState = .CREATE → w.create = .threw false) := by
  unfold begunMarks
  split <;> rename_i hs
  · simp [TcThread.written_eq_nil, hs]
  · simp [hs]

theorem silent_begunMarks : Silent (begunMarks w g i t) ↔ begunMarks w g i t = [] := by
  refine ⟨?_, fun h => by simp [h, Silent]⟩
  intro h
  rw [begunMarks_eq_nil]
  intro hs
  by_contra hne
  refine h (.create (.new (some g))) ?_
  rw [begunMarks, if_pos hs, TcThread.written]
  · exact List.mem_singleton_self _
  · exact hne

/-- The business runs to its end without a request, and leaves the thread inside. -/
def RunsQuietly (i : Nat) (g : String) (run : TcThread → TcThread × Option Exit)
    (t : TcThread) : Prop :=
  ∃ u e ms, run t = (u, some e) ∧ Inside i g u ∧ Calm ms ∧ u.marks = t.marks ++ ms

/-- Every `Exception`, and the end, give the object an outcome. -/
theorem note_successReturn {exit : Exit} (h : exit ≠ .error) :
    ((note i exit t).infos i).successReturn ≠ none := by
  cases exit with
  | error => exact absurd rfl h
  | _ => simp [note]

/--
Up to the end of the business nothing but the create request is written. An
invocation that does not write it has an outcome then.
-/
theorem attempt_inside (h : Inside i g t)
    (hbody : ∀ u, TransactionContext.tryBeginTransaction w i t = (u, .returned) →
      RunsQuietly i g body.run u) :
    ∃ u e ms, attempt w i body.run t = (u, some e) ∧ Inside i g u ∧ Calm ms
      ∧ u.marks = t.marks ++ (begunMarks w g i t ++ ms)
      ∧ (begunMarks w g i t = [] → ((note i e u).infos i).successReturn ≠ none) := by
  rw [attempt, begunMarks_eq_nil, begunMarks]
  rcases h.state with hs | ⟨hs, _⟩
  · rw [if_pos hs]
    rw [tryBeginTransaction_create hs h.groupId] at hbody ⊢
    cases hends : TransactionStepCreate.ends w with
    | returned =>
        rw [hends] at hbody
        obtain ⟨u, e, ms, hrun, hu, hms, hmarks⟩ := hbody _ rfl
        refine ⟨u, e, ms, hrun, hu, hms, by simp [hmarks], ?_⟩
        intro hthrew
        rw [TransactionStepCreate.ends, hthrew hs] at hends
        cases hends
    | exception thrown =>
        exact ⟨_, _, [], rfl, h.marked _, calm_nil, by simp,
          fun _ => note_successReturn (by simp)⟩
    | error =>
        unfold TransactionStepCreate.ends at hends
        split at hends <;> cases hends
  · rw [if_neg (by simp [hs])]
    rw [tryBeginTransaction_else (by simp [hs])] at hbody ⊢
    obtain ⟨u, e, ms, hrun, hu, hms, hmarks⟩ := hbody t rfl
    refine ⟨u, e, ms, hrun, hu, hms, by simpa using hmarks, fun _ => ?_⟩
    -- the state `NOTIFY` is kept, and with it goes an outcome
    have hframe := body.frame_run t
    rw [hrun] at hframe
    have hu' : (u.infos i).transactionState = .NOTIFY := by
      rcases hframe.state i h.allocated with hk | ⟨_, hk⟩
      · exact hk.trans hs
      · exact hk
    have hset : (u.infos i).successReturn ≠ none := by
      rcases hu.state with hc | ⟨_, hset⟩
      · rw [hu'] at hc; cases hc
      · exact hset
    cases e with
    | error => exact hset
    | _ => exact note_successReturn (by simp)

/-- The end step finds the object in the state `NOTIFY`. -/
theorem told_inside (h : Inside i g t) (hb : (t.infos i).successReturn = some b) (exit : Exit) :
    Told w g b exit (t.setTransactionState i .NOTIFY) (finish w i exit t) := by
  have hu : ((t.setTransactionState i .NOTIFY).infos i).transactionState = .NOTIFY := by
    simp [TcThread.setTransactionState]
  have hb' : ((t.setTransactionState i .NOTIFY).infos i).successReturn = some b := by
    simp [TcThread.setTransactionState, hb]
  have hg' : ((t.setTransactionState i .NOTIFY).infos i).groupId = some g := by
    simp [TcThread.setTransactionState, h.groupId]
  rcases h.state with hs | ⟨hs, _⟩
  · rw [finish_create hs]
    exact finish_told hu hb' hg'
  · rw [TcThread.setTransactionState_eq_self hs]
    exact finish_told hs hb h.groupId

/-- With an outcome, the end step writes the notification and no other request. -/
theorem finish_marks (h : Inside i g t) (hb : (t.infos i).successReturn = some b) (exit : Exit) :
    ∃ rest, Silent rest ∧ BusinessOver rest
      ∧ (finish w i exit t).1.marks = t.marks ++ (notifications w g b ++ rest) := by
  obtain ⟨calls, last, hm, hlast, _⟩ := (told_inside (w := w) h hb exit).marks
  refine ⟨calls.map TcThread.rawMark ++ last, ?_, ?_, hm⟩
  · rcases hlast with rfl | rfl <;> simp [Silent, TcThread.rawMark]
  · rcases hlast with rfl | rfl <;> simp [BusinessOver, TcThread.rawMark]

/-- A notification that is not written is the end of it. -/
theorem finish_unwritten (h : Inside i g t) (hb : (t.infos i).successReturn = some b)
    (hw : w.notify.head? = some (.threw false)) (exit : Exit) :
    finish w i exit t
      = ((t.setTransactionState i .NOTIFY).marked [.ended], some (.exception none)) := by
  have hzero := TransactionStepNotify.writes_eq_zero (b := b).mpr hw
  have hres := TransactionStepNotify.result_of_unwritten hzero
  have htold := told_inside (w := w) h hb exit
  generalize finish w i exit t = next at htold ⊢
  cases htold with
  | waiting hno => rw [hres] at hno; cases hno
  | threw => simp [notifications, hzero]
  | failed hno => rw [hres] at hno; cases hno
  | ended hno => rw [hres] at hno; cases hno

/-- The outer invocation leaves the thread clean, or its own object behind. -/
theorem outside_finish (h : Inside i g t) (hb : (t.infos i).successReturn = some b)
    {exit e : Exit} (hfin : finish w i exit t = (u, some e)) : Outside u := by
  have hnotify : ((t.setTransactionState i .NOTIFY).infos i).transactionState = .NOTIFY := by
    simp [TcThread.setTransactionState]
  have htold := told_inside (w := w) h hb exit
  rw [hfin] at htold
  cases htold with
  | threw => exact Or.inr ⟨i, g, (h.setNotify hb).marked _, hnotify⟩
  | failed => exact Or.inr ⟨i, g, (h.setNotify hb).marked _, hnotify⟩
  | ended => exact Or.inl rfl

/-! ## Inner and outer invocations -/

theorem invoke_eq {e : Exit} {i : Nat} {t₀ : TcThread} (he : enter w t = (i, t₀))
    (h : attempt w i body.run t₀ = (u, some e)) :
    invoke w body t = finish w i e (note i e u) := by
  simp only [invoke, runWithTransaction, he, h, if_true]

/-- A call inside writes no creation if it is not the one whose group is created, or fails to. -/
theorem Inside.begunMarks_eq_nil_iff (h : Inside i g t) :
    begunMarks w g i (t.setTransactionType i TransactionConstant.LCN) = []
      ↔ ∀ info, t.currentInfo = some info → info.transactionState = .CREATE →
        w.create = .threw false := by
  rw [begunMarks_eq_nil]
  simp [TcThread.currentInfo_eq h.current]

/-- An inner invocation writes what it can, and does no harm if it can write nothing. -/
theorem inner (h : Inside i g t)
    (hbody : ∀ u, TransactionContext.tryBeginTransaction w i
      (t.setTransactionType i TransactionConstant.LCN) = (u, .returned) →
        RunsQuietly i g body.run u) :
    (Quiet t w body ↔ InnerInOrder t w)
      ∧ (InnerInOrder t w → RunsQuietly i g (invoke w body) t) := by
  have h₀ : Inside i g (t.setTransactionType i TransactionConstant.LCN) := h.setTransactionType
  obtain ⟨u, e, ms, hatt, hu, hms, hmarks, hset⟩ := attempt_inside h₀ hbody
  have hinv := invoke_eq (enter_inside h) hatt
  have hcreate : begunMarks w g i (t.setTransactionType i TransactionConstant.LCN) = []
      ↔ ∀ info, t.currentInfo = some info → info.transactionState = .CREATE →
        w.create = .threw false := h.begunMarks_eq_nil_iff
  have hquiet : InnerInOrder t w → Inside i g (finish w i e (note i e u)).1
      ∧ (finish w i e (note i e u)).2 = some (.exception none)
      ∧ (finish w i e (note i e u)).1.marks = t.marks ++ (ms ++ [.ended]) := by
    intro hin
    have hnil := hcreate.mpr hin.create
    obtain ⟨b, hb⟩ := Option.ne_none_iff_exists'.mp (hset hnil)
    rw [finish_unwritten (hu.note e) hb hin.notify]
    refine ⟨((hu.note e).setNotify hb).marked _, rfl, ?_⟩
    simp [hmarks, hnil]
  refine ⟨⟨?_, ?_⟩, ?_⟩
  · intro ⟨⟨ns, hns, heq⟩, _⟩
    rw [hinv] at heq
    have hnil : begunMarks w g i (t.setTransactionType i TransactionConstant.LCN) = [] := by
      have hframe : TcThread.Frame (note i e u) (finish w i e (note i e u)).1 := frame_finish.1
      obtain ⟨k, hk⟩ := hframe.marks
      rw [heq, note_marks, hmarks, TcThread.setTransactionType_marks, List.append_assoc] at hk
      rw [← List.append_cancel_left hk] at hns
      exact silent_begunMarks.mp (silent_append.mp (silent_append.mp hns.1).1).1
    obtain ⟨b, hb⟩ := Option.ne_none_iff_exists'.mp (hset hnil)
    obtain ⟨rest, _, _, hfin⟩ := finish_marks (w := w) (hu.note e) hb e
    rw [heq, note_marks, hmarks, TcThread.setTransactionType_marks, List.append_assoc] at hfin
    rw [List.append_cancel_left hfin] at hns
    have hsilent := (silent_append.mp (silent_append.mp hns.1).2).1
    exact ⟨hcreate.mp hnil, silent_notifications.mp hsilent⟩
  · intro hin
    obtain ⟨hin', _, hm⟩ := hquiet hin
    rw [Quiet, hinv, hm, hin'.current, h.current]
    exact ⟨⟨_, calm_append.mpr ⟨hms, calm_ended⟩, rfl⟩, rfl⟩
  · intro hin
    obtain ⟨hin', hexit, hm⟩ := hquiet hin
    rw [RunsQuietly, hinv]
    exact ⟨_, _, _, Prod.ext rfl hexit, hin', calm_append.mpr ⟨hms, calm_ended⟩, hm⟩

/-- What an outer invocation that finds nothing begins with. -/
theorem enter_fresh (hc : t.current = none) (hg : w.groupId = some g) :
    (enter w t).1 = t.allocated ∧ Inside t.allocated g (enter w t).2
      ∧ (enter w t).2.marks = t.marks
      ∧ ((enter w t).2.infos t.allocated).transactionState = .CREATE := by
  simp only [enter, hc]
  exact ⟨trivial, ⟨rfl, Nat.lt_succ_self _, by simp [hg], Or.inl (by simp)⟩, rfl, by simp⟩

/-- Without an outcome no notification is written. -/
theorem finish_no_outcome (h : Inside i g t) {exit : Exit}
    (hb : ((note i exit t).infos i).successReturn = none) :
    (finish w i exit (note i exit t)).1.marks = t.marks ++ [.ended] := by
  cases exit with
  | error =>
      rcases h.state with hs | ⟨_, hset⟩
      · rw [note, finish_create hs, finish_unset (by simp) (by simpa [note] using hb)]
        rfl
      · exact absurd hb hset
  | _ => exact absurd hb (note_successReturn (by simp))

theorem mem_written {message message' : Message} {α : Type} {reply : Reply α}
    (h : .sent message' ∈ TcThread.written message reply) :
    message' = message ∧ reply ≠ .threw false := by
  refine ⟨?_, ?_⟩
  · unfold TcThread.written at h
    split at h <;> simp at h
    exact h
  · rintro rfl
    simp [TcThread.written] at h

theorem mem_notifications {message : Message} (h : .sent message ∈ notifications w g b) :
    message = .notify (.new (some g) b) ∧ w.notify.head? ≠ some (.threw false) := by
  rw [notifications, List.mem_replicate] at h
  refine ⟨by simpa using h.2, ?_⟩
  rw [ne_eq, ← TransactionStepNotify.writes_eq_zero (b := b)]
  exact h.1

/-- The requests of an outer invocation are the ones at its two ends. -/
theorem outerInOrder_of_once {e : Exit} (hc : t.current = none) (hg : w.groupId = some g)
    (hatt : attempt w t.allocated body.run (enter w t).2 = (u, some e))
    (hu : Inside t.allocated g u) (hms : Calm ms)
    (hmarks : u.marks = t.marks ++ (TcThread.written (.create (.new (some g))) w.create ++ ms))
    (h : Once t w body) : OuterInOrder t w body := by
  have hfst : (enter w t).1 = t.allocated := (enter_fresh hc hg).1
  obtain ⟨g', b', ms', n, rest', _, _, _, heq⟩ := h
  rw [invoke_eq (Prod.ext hfst rfl) hatt] at heq
  cases hb : ((note t.allocated e u).infos t.allocated).successReturn with
  | none =>
      -- the notification that was written is none of the marks there are
      rw [finish_no_outcome hu hb, hmarks, List.append_assoc] at heq
      have hmem : .sent (.notify (.new (some g') b'))
          ∈ TcThread.written (.create (.new (some g))) w.create ++ ms ++ [.ended] := by
        rw [List.append_cancel_left heq]
        simp
      simp only [List.mem_append, List.mem_singleton, reduceCtorEq, or_false] at hmem
      rcases hmem with hmem | hmem
      · exact absurd (mem_written hmem).1 (by simp)
      · exact absurd hmem (hms.1 _)
  | some b =>
      obtain ⟨rest, hrest, _, hfin⟩ := finish_marks (w := w) (hu.note e) hb e
      rw [hfin, note_marks, hmarks, List.append_assoc] at heq
      have hsent : ∀ message, .sent message ∈ .sent (.create (.new (some g'))) :: (ms'
          ++ (List.replicate (n + 1) (.sent (.notify (.new (some g') b'))) ++ rest')) →
          .sent message ∈ TcThread.written (.create (.new (some g))) w.create
            ∨ .sent message ∈ notifications w g b := by
        intro message hmem
        rw [← List.append_cancel_left heq] at hmem
        simp only [List.mem_append] at hmem
        rcases hmem with (hmem | hmem) | hmem | hmem
        · exact Or.inl hmem
        · exact absurd hmem (hms.1 _)
        · exact Or.inr hmem
        · exact absurd hmem (hrest _)
      refine ⟨hc, by simp [hg], ?_, ?_, ?_⟩
      · rcases hsent _ List.mem_cons_self with hmem | hmem
        · exact (mem_written hmem).2
        · exact absurd (mem_notifications hmem).1 (by simp)
      · rcases hsent (.notify (.new (some g') b')) (by simp) with hmem | hmem
        · exact absurd (mem_written hmem).1 (by simp)
        · exact (mem_notifications hmem).2
      · intro u' hatt'
        rw [hfst, hatt] at hatt'
        cases hatt'
        rw [hfst]
        exact Option.ne_none_iff_exists'.mpr ⟨b, hb⟩

/-- An outer invocation that finds a clean thread. -/
theorem outer_fresh (hc : t.current = none) (hg : w.groupId = some g)
    (hbody : ∀ u, TransactionContext.tryBeginTransaction w (enter w t).1 (enter w t).2
      = (u, .returned) → RunsQuietly t.allocated g body.run u) :
    (Once t w body ↔ OuterInOrder t w body)
      ∧ (OuterInOrder t w body → ∀ v e, invoke w body t = (v, some e) → Outside v) := by
  obtain ⟨hfst, hin, hm, hcreate⟩ := enter_fresh hc hg
  rw [hfst] at hbody
  obtain ⟨u, e, ms, hatt, hu, hms, hmarks, _⟩ := attempt_inside hin hbody
  have hinv := invoke_eq (Prod.ext hfst rfl) hatt
  rw [hm, begunMarks, if_pos hcreate] at hmarks
  have hnoted : OuterInOrder t w body →
      ∃ b, ((note t.allocated e u).infos t.allocated).successReturn = some b := by
    intro h
    refine Option.ne_none_iff_exists'.mp ?_
    cases e with
    | error =>
        rw [← hfst]
        exact h.outcome u (by rw [hfst]; exact hatt)
    | _ => exact note_successReturn (by simp)
  refine ⟨⟨outerInOrder_of_once hc hg hatt hu hms hmarks, ?_⟩, ?_⟩
  · intro h
    obtain ⟨b, hb⟩ := hnoted h
    obtain ⟨rest, hrest, hover, hfin⟩ := finish_marks (w := w) (hu.note e) hb e
    obtain ⟨n, hn⟩ := Nat.exists_eq_succ_of_ne_zero
      (fun hz => h.notify (TransactionStepNotify.writes_eq_zero (b := b).mp hz))
    refine ⟨g, b, ms, n, rest, hms.1, hrest, hover, ?_⟩
    rw [hinv, hfin, note_marks, hmarks, TcThread.written_of_ne h.create, notifications, hn]
    simp
  · intro h v exit hv
    obtain ⟨b, hb⟩ := hnoted h
    rw [hinv] at hv
    exact outside_finish (hu.note e) hb hv

/-! ## Whole trees -/

theorem RunsQuietly.trans {run : TcThread → TcThread × Option Exit}
    (h : RunsQuietly i g run u) {run' : TcThread → TcThread × Option Exit}
    (hrun : run' t = run u) (hmarks : u.marks = t.marks ++ ms) (hms : Calm ms) :
    RunsQuietly i g run' t := by
  obtain ⟨v, e, ns, hv, hin, hns, hm⟩ := h
  refine ⟨v, e, ms ++ ns, hrun.trans hv, hin, calm_append.mpr ⟨hms, hns⟩, ?_⟩
  rw [hm, hmarks, List.append_assoc]

theorem Inside.begin (h : Inside i g t) {e : Exit}
    (hbegin : TransactionContext.tryBeginTransaction w i t = (u, e)) : Inside i g u := by
  obtain ⟨ms, _, hms⟩ := TransactionContext.tryBeginTransaction_marked w i t
  rw [hbegin] at hms
  obtain rfl : u = t.marked ms := hms
  exact h.marked ms

/-- What is asked of `b` is the condition, and under it `b` runs quietly. -/
def Settled (i : Nat) (g : String) (b : Business) (t : TcThread) : Prop :=
  (EachCall AsNested true b t ↔ EachCall InOrder true b t)
    ∧ (EachCall InOrder true b t → RunsQuietly i g b.run t)

/-- If the two agree on an invocation, they agree on it and what follows it. -/
theorem eachCall_next {inside annotated : Bool} {next : Exit → Business} {A C : Prop}
    (hiff : A ↔ C) (hnext : C → ∀ u e, runWithTransaction annotated w body.run t = (u, some e) →
      (EachCall AsNested inside (next e) u ↔ EachCall InOrder inside (next e) u)) :
    (A ∧ ∀ u e, runWithTransaction annotated w body.run t = (u, some e) →
        EachCall AsNested inside (next e) u)
      ↔ C ∧ ∀ u e, runWithTransaction annotated w body.run t = (u, some e) →
        EachCall InOrder inside (next e) u := by
  rw [hiff]
  refine and_congr_right fun hc => ?_
  exact forall₂_congr fun u e => forall_congr' fun heq => hnext hc u e heq

/-- An invocation and what follows it. -/
theorem settled_call (annotated : Bool) (w : World) {next : Exit → Business} {A C : Prop}
    (hiff : A ↔ C) (hrun : C → RunsQuietly i g (runWithTransaction annotated w body.run) t)
    (hnext : ∀ e u, Inside i g u → Settled i g (next e) u) :
    ((A ∧ ∀ u e, runWithTransaction annotated w body.run t = (u, some e) →
        EachCall AsNested true (next e) u)
      ↔ C ∧ ∀ u e, runWithTransaction annotated w body.run t = (u, some e) →
        EachCall InOrder true (next e) u)
    ∧ ((C ∧ ∀ u e, runWithTransaction annotated w body.run t = (u, some e) →
        EachCall InOrder true (next e) u) →
      RunsQuietly i g (Business.call annotated w body next).run t) := by
  refine ⟨eachCall_next hiff fun hc u' e' h' => ?_, ?_⟩
  · obtain ⟨u, e, _, heq, hu, _⟩ := hrun hc
    rw [heq] at h'
    cases h'
    exact (hnext _ _ hu).1
  · intro ⟨hc, hn⟩
    obtain ⟨u, e, ms, heq, hu, hms, hm⟩ := hrun hc
    exact ((hnext e u hu).2 (hn u e heq)).trans (Business.run_call heq) hm hms

/-- To compare what is asked of an invocation one may assume the condition on its body. -/
theorem node_congr {A C : Prop} {B X Y : TcThread → Prop} (hbody : ∀ u, B u → (X u ↔ Y u))
    (h : (∀ u, B u → Y u) → (A ↔ C)) : (A ∧ ∀ u, B u → X u) ↔ C ∧ ∀ u, B u → Y u := by
  rw [forall₂_congr hbody]
  exact and_congr_left h

/-- Inside an invocation, what is asked is the condition, and under it nothing happens. -/
theorem settled_inside (b : Business) (h : Inside i g t) : Settled i g b t := by
  induction b generalizing t with
  | ends how => exact ⟨Iff.rfl, fun _ => ⟨t, how, [], rfl, h, calm_nil, by simp⟩⟩
  | code next ih =>
      obtain ⟨hiff, hrun⟩ := ih (h.marked [.code])
      exact ⟨hiff, fun hc => (hrun hc).trans rfl rfl (by simp [Calm, Silent])⟩
  | jdbc op next ih =>
      obtain ⟨hi, ha, hc, hm⟩ := op.run_keeps (t.marked [.code])
      obtain ⟨hiff, hrun⟩ := ih _ ((h.marked [.code]).of_eq hi hc ha)
      exact ⟨hiff, fun hc => (hrun hc).trans Business.run_jdbc hm (by simp [Calm, Silent])⟩
  | outbound how next ih =>
      have hout := t.outbound_eq how
      obtain ⟨hiff, hrun⟩ := ih (t.outbound how).2 (t := (t.outbound how).1)
        (by rw [hout]; exact h.marked _)
      exact ⟨hiff, fun hc => (hrun hc).trans Business.run_outbound (by rw [hout]; rfl)
        (by simp [Calm, Silent])⟩
  | call annotated w body next ihb ihn =>
      cases annotated with
      | false =>
          obtain ⟨hiff, hrun⟩ := ihb h
          exact settled_call false w hiff hrun fun e u hu => ihn e hu
      | true =>
          have hbody : ∀ u, TransactionContext.tryBeginTransaction w (enter w t).1 (enter w t).2
              = (u, .returned) → Settled i g body u := by
            intro u hu
            rw [enter_inside h] at hu
            exact ihb (h.setTransactionType.begin hu)
          have hinner : ∀ u, TransactionContext.tryBeginTransaction w i
              (t.setTransactionType i TransactionConstant.LCN) = (u, .returned) →
              (∀ u, TransactionContext.tryBeginTransaction w (enter w t).1 (enter w t).2
                = (u, .returned) → EachCall InOrder true body u) → RunsQuietly i g body.run u := by
            intro u hu hc
            rw [enter_inside h] at hbody hc
            exact (hbody u hu).2 (hc u hu)
          refine settled_call true w ?_ ?_ fun e u hu => ihn e hu
          · exact node_congr (fun u hu => (hbody u hu).1) fun hc =>
              (inner h fun u hu => hinner u hu hc).1
          · intro ⟨hin, hc⟩
            exact (inner h fun u hu => hinner u hu hc).2 hin

/-- An invocation begins its business with a thread inside it. -/
theorem Outside.begin (h : Outside t)
    (hbegin : TransactionContext.tryBeginTransaction w (enter w t).1 (enter w t).2
      = (u, .returned)) : ∃ g, Inside (enter w t).1 g u := by
  rcases h with hc | ⟨i, g, hin, _⟩
  · cases hg : w.groupId with
    | none =>
        have hno : ((enter w t).2.infos (enter w t).1).groupId = none := by simp [enter, hc, hg]
        have hs : ((enter w t).2.infos (enter w t).1).transactionState = .CREATE := by
          simp [enter, hc]
        rw [tryBeginTransaction_create_of_no_group hs hno] at hbegin
        cases hbegin
    | some g =>
        obtain ⟨hfst, hin, _⟩ := enter_fresh hc hg
        rw [← hfst] at hin
        exact ⟨g, hin.begin hbegin⟩
  · rw [enter_inside hin] at hbegin ⊢
    exact ⟨g, hin.setTransactionType.begin hbegin⟩

/-- An invocation that writes no create request does not do what it should. -/
theorem not_once_of (hm : (invoke w body t).1.marks = t.marks ++ ms)
    (hno : ∀ event, .sent (.create event) ∉ ms) : ¬ Once t w body := by
  intro ⟨g, _, _, _, _, _, _, _, heq⟩
  rw [hm] at heq
  refine hno (.new (some g)) ?_
  rw [List.append_cancel_left heq]
  exact List.mem_cons_self

/-- Without a group nothing is written at all. -/
theorem not_once_of_no_group (hc : t.current = none) (hg : w.groupId = none) :
    ¬ Once t w body := by
  have he : enter w t = (t.allocated, (enter w t).2) := by simp [enter, hc]
  have hno : ((enter w t).2.infos t.allocated).groupId = none := by simp [enter, hc, hg]
  have hs : ((enter w t).2.infos t.allocated).transactionState = .CREATE := by simp [enter, hc]
  have hatt : attempt w t.allocated body.run (enter w t).2
      = ((enter w t).2, some (.exception none)) := by
    rw [attempt, tryBeginTransaction_create_of_no_group hs hno]
  have hinv := invoke_eq he hatt
  rw [finish_create (by simp [note, hs]), finish_noGroup (by simp) (by simp [note]; rfl)
    (by simp [note, hno])] at hinv
  have hmarks : (invoke w body t).1.marks = t.marks ++ [.ended] := by simp [hinv]
  exact not_once_of hmarks (by simp)

/-- With the object of an earlier invocation no group is created. -/
theorem not_once_of_stale (h : Inside i g t) (hs : (t.infos i).transactionState = .NOTIFY)
    (hbody : ∀ u, TransactionContext.tryBeginTransaction w i
      (t.setTransactionType i TransactionConstant.LCN) = (u, .returned) →
        RunsQuietly i g body.run u) : ¬ Once t w body := by
  obtain ⟨u, e, ms, hatt, hu, hms, hmarks, hset⟩ := attempt_inside h.setTransactionType hbody
  have hinv := invoke_eq (enter_inside h) hatt
  have hnil : begunMarks w g i (t.setTransactionType i TransactionConstant.LCN) = [] := by
    simp [begunMarks, hs]
  obtain ⟨b, hb⟩ := Option.ne_none_iff_exists'.mp (hset hnil)
  obtain ⟨rest, hrest, _, hfin⟩ := finish_marks (w := w) (hu.note e) hb e
  rw [note_marks, hmarks, hnil, List.nil_append, TcThread.setTransactionType_marks,
    List.append_assoc] at hfin
  refine not_once_of (hinv ▸ hfin) fun event hmem => ?_
  simp only [List.mem_append] at hmem
  rcases hmem with hmem | hmem | hmem
  · exact hms.1 _ hmem
  · exact absurd (mem_notifications hmem).1 (by simp)
  · exact hrest _ hmem

/-- Outside of any invocation, what is asked of an invocation is the condition. -/
theorem outer (h : Outside t)
    (hbody : ∀ u, TransactionContext.tryBeginTransaction w (enter w t).1 (enter w t).2
      = (u, .returned) → EachCall InOrder true body u) :
    (Once t w body ↔ OuterInOrder t w body)
      ∧ (OuterInOrder t w body → ∀ v e, invoke w body t = (v, some e) → Outside v) := by
  have hruns : ∀ u g, TransactionContext.tryBeginTransaction w (enter w t).1 (enter w t).2
      = (u, .returned) → Inside (enter w t).1 g u → RunsQuietly (enter w t).1 g body.run u :=
    fun u g hu hin => (settled_inside body hin).2 (hbody u hu)
  rcases h with hc | ⟨i, g, hin, hs⟩
  · cases hg : w.groupId with
    | none =>
        have hno : ¬ OuterInOrder t w body := fun hin => hin.groupId hg
        exact ⟨iff_of_false (not_once_of_no_group hc hg) hno, fun hin => absurd hin hno⟩
    | some g =>
        obtain ⟨hfst, hin, _⟩ := enter_fresh hc hg
        refine outer_fresh hc hg fun u hu => ?_
        rw [hfst] at hruns hu
        exact hruns u g hu (hin.begin hu)
  · have hno : ¬ OuterInOrder t w body := fun hout => by
      simpa [hin.current] using hout.clean
    refine ⟨iff_of_false (not_once_of_stale hin hs fun u hu => ?_) hno,
      fun hout => absurd hout hno⟩
    rw [enter_inside hin] at hruns
    exact hruns u g hu (hin.setTransactionType.begin hu)

/-- Only what `Outside` speaks about matters to it. -/
theorem Outside.of_eq (h : Outside t) (hi : u.infos = t.infos) (hc : u.current = t.current)
    (ha : u.allocated = t.allocated) : Outside u := by
  rcases h with h | ⟨i, g, h, hs⟩
  · exact Or.inl (hc.trans h)
  · exact Or.inr ⟨i, g, h.of_eq hi hc ha, by rw [hi]; exact hs⟩

/-- Outside of any invocation, what is asked of a tree is the condition. -/
theorem settled_outside (b : Business) (h : Outside t) :
    (EachCall AsNested false b t ↔ EachCall InOrder false b t)
      ∧ (EachCall InOrder false b t → ∀ u e, b.run t = (u, some e) → Outside u) := by
  induction b generalizing t with
  | ends how =>
      refine ⟨Iff.rfl, ?_⟩
      intro _ u e hrun
      cases hrun
      exact h
  | code next ih => exact ih (h.of_eq rfl rfl rfl)
  | jdbc op next ih =>
      obtain ⟨hi, ha, hc, _⟩ := op.run_keeps (t.marked [.code])
      exact ih _ (h.of_eq hi hc ha)
  | outbound how next ih =>
      have hout := t.outbound_eq how
      exact ih _ (h.of_eq (by rw [hout]; rfl) (by rw [hout]; rfl) (by rw [hout]; rfl))
  | call annotated w body next ihb ihn =>
      have hcall : ∀ {A C : Prop}, (A ↔ C) →
          (C → ∀ u e, runWithTransaction annotated w body.run t = (u, some e) → Outside u) →
          ((A ∧ ∀ u e, runWithTransaction annotated w body.run t = (u, some e) →
              EachCall AsNested false (next e) u)
            ↔ C ∧ ∀ u e, runWithTransaction annotated w body.run t = (u, some e) →
              EachCall InOrder false (next e) u)
          ∧ ((C ∧ ∀ u e, runWithTransaction annotated w body.run t = (u, some e) →
              EachCall InOrder false (next e) u) →
            ∀ v e, (Business.call annotated w body next).run t = (v, some e) → Outside v) := by
        intro A C hiff hout
        refine ⟨eachCall_next hiff fun hc u e heq => (ihn e (hout hc u e heq)).1, ?_⟩
        intro ⟨hc, hn⟩ v e hrun
        cases heq : runWithTransaction annotated w body.run t with
        | mk u e' =>
            cases e' with
            | none =>
                rw [Business.run_call_waiting heq] at hrun
                cases hrun
            | some e' =>
                rw [Business.run_call heq] at hrun
                exact (ihn e' (hout hc u e' heq)).2 (hn u e' heq) v e hrun
      cases annotated with
      | false =>
          obtain ⟨hiff, hrun⟩ := ihb h
          exact hcall hiff hrun
      | true =>
          refine hcall (node_congr ?_ fun hc => (outer h hc).1) fun ⟨hin, hc⟩ => (outer h hc).2 hin
          intro u hu
          obtain ⟨g, hin⟩ := h.begin hu
          exact (settled_inside body hin).1

/--
**For each outermost invocation there is one create request and one
notification, and inner ones do nothing, exactly when** every outermost one finds
a clean thread, gets a group, can write both requests and has an outcome, and no
inner one can write either of its requests.
-/
theorem one_create_one_notify_iff (b : Business) (t : TcThread) (h : t.current = none) :
    EachCall AsNested false b t ↔ EachCall InOrder false b t :=
  (settled_outside b (Or.inl h)).1

/-- A TM that answers whatever is asked, for the group `g`. -/
def helpful (g : String) : World where
  groupId := some g
  create := .answered (.new (some g))
  notify := [.answered (.new (some g) true)]
  join := .answered (.new (some g))
  succeeds := fun _ => true

/-- It changes something through a proxy, calls another method, and then another module. -/
def worksAndCalls : Business :=
  .jdbc (.getConnection 7) fun _ => .jdbc (.commit true) fun _ =>
    .call false (helpful "g") (.code (.ends .returned)) fun _ =>
      .outbound .returned fun _ => .ends .returned

/-- One annotated method after the other. -/
def consecutive : Business :=
  .call true (helpful "g") worksAndCalls fun _ =>
    .call true (helpful "h") worksAndCalls .ends

theorem one_create_one_notify_clean : EachCall AsNested false consecutive {} := by
  refine (one_create_one_notify_iff consecutive {} rfl).mpr
    ⟨⟨?_, fun u hbegin => ?_⟩, fun u e hinvoke => ⟨⟨?_, fun v hbegin => ?_⟩, fun _ _ _ => trivial⟩⟩
  · exact ⟨rfl, by simp [helpful], by simp [helpful], by simp [helpful], fun u h => by cases h⟩
  · exact ⟨trivial, fun _ _ _ => trivial⟩
  · cases hinvoke
    exact ⟨rfl, by simp [helpful], by simp [helpful], by simp [helpful], fun u h => by cases h⟩
  · exact ⟨trivial, fun _ _ _ => trivial⟩

/-- An annotated method that invokes another one. -/
def nested : Business :=
  .call true (helpful "g") (.call true (helpful "g") (.ends .returned) .ends) .ends

theorem not_one_create_one_notify :
    ¬ ∀ (b : Business) (t : TcThread), t.current = none → EachCall AsNested false b t := by
  intro h
  have hno : EachCall InOrder false nested {} := (settled_outside nested (Or.inl rfl)).1.mp
    (h nested {} rfl)
  have hinner : InnerInOrder _ (helpful "g") := (hno.1.2 _ rfl).1.1
  have hnotify : (helpful "g").notify.head? = some (.threw false) := hinner.notify
  cases hnotify

end TxLcn.Proof
