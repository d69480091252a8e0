import TxLcn.Tc.Aspect

/-!
# What an invocation leaves behind

Each part of an invocation is told here by what it does to the thread, so that
nothing above has to look into it again: how many times the notification is
written, which calls the commitor makes, and in which of six ways the
transaction of a creator ends.

`Frame` is what all code of a thread, annotated or not, leaves as it is.
-/

namespace TxLcn.Tc

open TxLcn.Protocol

namespace TcThread

variable {t u v : TcThread} {ms ns : List Mark} {i j : Nat}
  {f : TransactionInfo → TransactionInfo}

/-! ## Marks and updates -/

@[simp] theorem marked_marks : (t.marked ms).marks = t.marks ++ ms := rfl
@[simp] theorem marked_infos : (t.marked ms).infos = t.infos := rfl
@[simp] theorem marked_allocated : (t.marked ms).allocated = t.allocated := rfl
@[simp] theorem marked_current : (t.marked ms).current = t.current := rfl
@[simp] theorem marked_jdbcTransaction : (t.marked ms).jdbcTransaction = t.jdbcTransaction := rfl

@[simp] theorem marked_marked : (t.marked ms).marked ns = t.marked (ms ++ ns) := by
  simp [marked]

@[simp] theorem marked_nil : t.marked [] = t := by simp [marked]

@[simp] theorem update_marks : (t.update i f).marks = t.marks := rfl
@[simp] theorem update_allocated : (t.update i f).allocated = t.allocated := rfl
@[simp] theorem update_current : (t.update i f).current = t.current := rfl
@[simp] theorem update_jdbcTransaction :
    (t.update i f).jdbcTransaction = t.jdbcTransaction := rfl

@[simp] theorem update_infos_self : (t.update i f).infos i = f (t.infos i) := by
  simp [update]

theorem update_infos_of_ne (h : j ≠ i) : (t.update i f).infos j = t.infos j := by
  simp [update, h]

variable {type : String} {state : TransactionState} {b : Bool}

@[simp] theorem setTransactionType_marks : (t.setTransactionType i type).marks = t.marks := rfl
@[simp] theorem setTransactionState_marks : (t.setTransactionState i state).marks = t.marks := rfl

@[simp] theorem setTransactionType_infos_self : (t.setTransactionType i type).infos i
    = { t.infos i with transactionType := some type } := update_infos_self

@[simp] theorem setTransactionState_infos_self : (t.setTransactionState i state).infos i
    = { t.infos i with transactionState := state } := update_infos_self

/-- To set the state that is there changes nothing. -/
theorem setTransactionState_eq_self (h : (t.infos i).transactionState = state) :
    t.setTransactionState i state = t := by
  simp [setTransactionState, update, ← h]

@[simp] theorem setSuccessReturn_infos_self : (t.setSuccessReturn i b).infos i
    = { t.infos i with successReturn := some b } := update_infos_self

@[simp] theorem clearTransaction_marks : t.clearTransaction.marks = t.marks := rfl
@[simp] theorem clearTransaction_infos : t.clearTransaction.infos = t.infos := rfl

@[simp] theorem push_marks {info : TransactionInfo} : (t.push info).marks = t.marks := rfl
@[simp] theorem push_current {info : TransactionInfo} :
    (t.push info).current = some t.allocated := rfl
@[simp] theorem push_allocated {info : TransactionInfo} :
    (t.push info).allocated = t.allocated + 1 := rfl

@[simp] theorem push_infos_self {info : TransactionInfo} :
    (t.push info).infos t.allocated = info := by
  simp [push]

theorem push_infos_of_ne {info : TransactionInfo} (h : j ≠ t.allocated) :
    (t.push info).infos j = t.infos j := by
  simp [push, h]

theorem currentInfo_eq (h : t.current = some i) : t.currentInfo = some (t.infos i) := by
  rw [currentInfo, h]
  rfl

/-! ## A request -/

variable {message : Message} {α : Type} {reply : Reply α} {g : String}

/-- The marks that a request leaves, if it has a group. -/
def written (message : Message) : Reply α → List Mark
  | .threw false => []
  | _ => [.sent message]

theorem written_eq_nil : written message reply = [] ↔ reply = .threw false := by
  cases reply with
  | threw w => cases w <;> simp [written]
  | lost => simp [written]
  | answered res => simp [written]

theorem written_of_ne (h : reply ≠ .threw false) : written message reply = [.sent message] := by
  unfold written
  split
  · exact absurd rfl h
  · rfl

/-- What the caller of `requestMsg` gets. -/
def got : Reply α → Except (Option TxException) (Option α)
  | .threw _ => .error none
  | .lost => .ok none
  | .answered res => .ok (some res)

theorem requestMsg_of_group (h : message.groupId = some g) :
    t.requestMsg message reply = (t.marked (written message reply), got reply) := by
  unfold requestMsg
  rw [h]
  cases reply with
  | threw w => cases w <;> simp [written, got]
  | lost => rfl
  | answered res => rfl

theorem requestMsg_of_no_group (h : message.groupId = none) :
    t.requestMsg message reply = (t, .error none) := by
  unfold requestMsg
  rw [h]

/-! ## The commitor -/

variable {succeeds : RawCall → Bool} {d : Bool}

/-- The calls it makes on raw connections, or what it throws. -/
def commitCalls (t : TcThread) (succeeds : RawCall → Bool) (state : Bool) :
    Except (Option TxException) (List (Nat × RawCall × Bool)) :=
  (TransactionCommitorStrategy.commit succeeds (fun _ => {}) t.context t.currentInfo
    t.jdbcTransaction state).map fun dealt =>
      match dealt with
      | none => []
      | some (c, connection) => connection.calls.map fun call => (c, call)

/-- The mark of a call on a raw connection. -/
def rawMark (c : Nat × RawCall × Bool) : Mark := .raw c.1 c.2.1 c.2.2

@[simp] theorem commitCalls_marked :
    (t.marked ms).commitCalls succeeds d = t.commitCalls succeeds d := rfl

theorem commit_ok {calls : List (Nat × RawCall × Bool)} (h : t.commitCalls succeeds d = .ok calls) :
    t.commit succeeds d = (t.marked (calls.map rawMark), .returned) := by
  unfold commitCalls at h
  unfold commit
  split <;> rename_i heq <;> rw [heq] at h <;> cases h
  · simp
  · simp [Function.comp_def, rawMark]

theorem commit_error {thrown : Option TxException} (h : t.commitCalls succeeds d = .error thrown) :
    t.commit succeeds d = (t, .exception thrown) := by
  unfold commitCalls at h
  unfold commit
  split <;> rename_i heq <;> rw [heq] at h <;> cases h
  rfl

theorem commitCalls_of_no_current (h : t.current = none) :
    t.commitCalls succeeds d = .error none := by
  simp [commitCalls, currentInfo, h, TransactionCommitorStrategy.commit, Except.map]

/-- What it does for an LCN transaction. -/
theorem commitCalls_lcn (succeeds : RawCall → Bool) (d : Bool) (hi : t.current = some i)
    (hlcn : (t.infos i).transactionType = some "lcn") (hg : (t.infos i).groupId = some g) :
    (∃ c, t.context g = some c ∧ (d = true → t.jdbcTransaction ≠ none)
        ∧ t.commitCalls succeeds d
          = .ok ((LcnCommitor.calls succeeds d).map fun call => (c, call)))
      ∨ ((t.context g = none ∨ d = true ∧ t.jdbcTransaction = none)
        ∧ ∃ thrown, t.commitCalls succeeds d = .error thrown) := by
  rcases TransactionCommitorStrategy.commit_lcn succeeds (fun _ => {}) t.context
    t.jdbcTransaction d hlcn hg with
    ⟨c, hc, hthere, heq⟩ | ⟨hwhy, thrown, heq⟩
  · refine Or.inl ⟨c, hc, hthere, ?_⟩
    simp [commitCalls, currentInfo_eq hi, heq, Except.map]
  · refine Or.inr ⟨hwhy, thrown, ?_⟩
    simp [commitCalls, currentInfo_eq hi, heq, Except.map]

end TcThread

/-! ## The notification -/

namespace TransactionStepNotify

variable {t : TcThread} {b : Bool} {g : String} {message : Message}
  {replies : List (Reply TransactionNotifyEvent)}

/-- How many times the notification is written. -/
def writes (successReturn : Bool) : List (Reply TransactionNotifyEvent) → Nat
  | [] => 1
  | .threw written :: _ => if written then 1 else 0
  | .lost :: replies => if successReturn then writes successReturn replies + 1 else 1
  | .answered _ :: _ => 1

/-- What comes of it, if the replies last. -/
def result (successReturn : Bool) : List (Reply TransactionNotifyEvent) →
    Option (Except (Option TxException) (Option TransactionNotifyEvent))
  | [] => none
  | .threw _ :: _ => some (.error none)
  | .lost :: replies => if successReturn then result successReturn replies else some (.ok none)
  | .answered res :: _ => some (.ok (some res))

theorem writes_eq_zero : writes b replies = 0 ↔ replies.head? = some (.threw false) := by
  cases replies with
  | nil => simp [writes]
  | cons reply replies =>
      cases reply with
      | threw w => cases w <;> simp [writes]
      | lost => cases b <;> simp [writes]
      | answered res => simp [writes]

theorem result_of_unwritten (h : writes b replies = 0) : result b replies = some (.error none) := by
  cases replies with
  | nil => cases h
  | cons reply replies =>
      rw [writes_eq_zero, List.head?_cons] at h
      cases h
      rfl

/-- Nothing but `none` is thrown. -/
theorem result_error {thrown : Option TxException} (h : result b replies = some (.error thrown)) :
    thrown = none := by
  induction replies with
  | nil => cases h
  | cons reply replies ih =>
      cases reply with
      | threw w => cases h; rfl
      | lost =>
          cases b with
          | true => exact ih h
          | false => cases h
      | answered res => cases h

theorem request_of_group (hg : message.groupId = some g) :
    request t message b replies
      = (t.marked (List.replicate (writes b replies) (.sent message)), result b replies) := by
  induction replies generalizing t with
  | nil => simp [request, hg, writes, result]
  | cons reply replies ih =>
      rw [request, TcThread.requestMsg_of_group hg]
      cases reply with
      | threw w => cases w <;> simp [TcThread.got, TcThread.written, writes, result]
      | lost =>
          -- only an outcome to commit is told again
          cases b with
          | true =>
              simp only [TcThread.got, TcThread.written, if_true, ih, writes, result,
                TcThread.marked_marked]
              rw [List.replicate_succ, List.singleton_append]
          | false => simp [TcThread.got, TcThread.written, writes, result]
      | answered res => simp [TcThread.got, TcThread.written, writes, result]

theorem request_of_no_group (hg : message.groupId = none) :
    request t message b replies = (t, some (.error none)) := by
  cases replies with
  | nil => simp [request, hg]
  | cons reply replies => rw [request, TcThread.requestMsg_of_no_group hg]

end TransactionStepNotify

/-! ## The two ends of an invocation -/

variable {w : World} {t u : TcThread} {i : Nat} {g : String}

/-- How the create step ends. -/
def TransactionStepCreate.ends (w : World) : Exit :=
  match w.create with
  | .threw _ => .exception none
  | .lost => .exception (some ⟨"create transaction fail."⟩)
  | .answered _ => .returned

theorem tryBeginTransaction_create (hs : (t.infos i).transactionState = .CREATE)
    (hg : (t.infos i).groupId = some g) :
    TransactionContext.tryBeginTransaction w i t
      = (t.marked (TcThread.written (.create (.new (some g))) w.create),
          TransactionStepCreate.ends w) := by
  unfold TransactionContext.tryBeginTransaction TransactionStepCreate.run
  rw [if_pos hs, hg, TcThread.requestMsg_of_group rfl]
  unfold TransactionStepCreate.ends
  cases w.create <;> rfl

theorem tryBeginTransaction_create_of_no_group (hs : (t.infos i).transactionState = .CREATE)
    (hg : (t.infos i).groupId = none) :
    TransactionContext.tryBeginTransaction w i t = (t, .exception none) := by
  unfold TransactionContext.tryBeginTransaction TransactionStepCreate.run
  rw [if_pos hs, hg, TcThread.requestMsg_of_no_group rfl]

theorem tryBeginTransaction_else (hs : (t.infos i).transactionState ≠ .CREATE) :
    TransactionContext.tryBeginTransaction w i t = (t, .returned) := by
  unfold TransactionContext.tryBeginTransaction
  rw [if_neg hs]

namespace TransactionAspectContext

/-- The notification of a group, as often as it is written, and nothing else. -/
def notifications (w : World) (g : String) (b : Bool) : List Mark :=
  List.replicate (TransactionStepNotify.writes b w.notify) (.sent (.notify (.new (some g) b)))

/-- The ways in which an end step that notifies the TM can end. -/
inductive Told (w : World) (g : String) (b : Bool) (exit : Exit) (t : TcThread) :
    TcThread × Option Exit → Prop where
  /-- The notification is still repeated. -/
  | waiting (hres : TransactionStepNotify.result b w.notify = none) :
      Told w g b exit t (t.marked (notifications w g b), none)
  | threw (hres : TransactionStepNotify.result b w.notify = some (.error none)) :
      Told w g b exit t (t.marked (notifications w g b ++ [.ended]), some (.exception none))
  /-- The commitor has thrown. -/
  | failed {res : Option TransactionNotifyEvent} {thrown : Option TxException}
      (hres : TransactionStepNotify.result b w.notify = some (.ok res))
      (hc : t.commitCalls w.succeeds (TransactionStepNotify.needCommit res b) = .error thrown) :
      Told w g b exit t (t.marked (notifications w g b ++ [.ended]), some (.exception thrown))
  | ended {res : Option TransactionNotifyEvent} {calls : List (Nat × RawCall × Bool)}
      (hres : TransactionStepNotify.result b w.notify = some (.ok res))
      (hc : t.commitCalls w.succeeds (TransactionStepNotify.needCommit res b) = .ok calls) :
      Told w g b exit t
        ((t.marked (notifications w g b ++ calls.map TcThread.rawMark)).clearTransaction.marked
          [.ended], some exit)

variable {exit : Exit} {b : Bool}

theorem tryEndTransaction_notify (hs : (t.infos i).transactionState = .NOTIFY) :
    TransactionContext.tryEndTransaction w i t = TransactionStepNotify.run w i t := by
  simp [TransactionContext.tryEndTransaction, hs]

/-- Without an outcome there is no notification. -/
theorem finish_unset (hs : (t.infos i).transactionState = .NOTIFY)
    (hb : (t.infos i).successReturn = none) :
    finish w i exit t = (t.marked [.ended], some (.exception none)) := by
  rw [finish, tryEndTransaction_notify hs, TransactionStepNotify.run, hb]

theorem finish_noGroup (hs : (t.infos i).transactionState = .NOTIFY)
    (hb : (t.infos i).successReturn = some b) (hg : (t.infos i).groupId = none) :
    finish w i exit t = (t.marked [.ended], some (.exception none)) := by
  rw [finish, tryEndTransaction_notify hs, TransactionStepNotify.run, hb, hg]
  dsimp only
  rw [TransactionStepNotify.request_of_no_group rfl]

theorem finish_told (hs : (t.infos i).transactionState = .NOTIFY)
    (hb : (t.infos i).successReturn = some b) (hg : (t.infos i).groupId = some g) :
    Told w g b exit t (finish w i exit t) := by
  rw [finish, tryEndTransaction_notify hs, TransactionStepNotify.run, hb, hg]
  dsimp only
  rw [TransactionStepNotify.request_of_group (g := g) rfl]
  cases hres : TransactionStepNotify.result b w.notify with
  | none => exact Told.waiting hres
  | some res =>
      cases res with
      | error thrown =>
          obtain rfl := TransactionStepNotify.result_error hres
          dsimp only
          rw [TcThread.marked_marked]
          exact Told.threw hres
      | ok res =>
          dsimp only
          cases hc : t.commitCalls w.succeeds (TransactionStepNotify.needCommit res b) with
          | error thrown =>
              rw [TcThread.commit_error (by rw [TcThread.commitCalls_marked, hc])]
              dsimp only
              rw [TcThread.marked_marked]
              exact Told.failed hres hc
          | ok calls =>
              rw [TcThread.commit_ok (by rw [TcThread.commitCalls_marked, hc])]
              dsimp only
              rw [TcThread.marked_marked]
              exact Told.ended hres hc

/-- What is written then, and called: nothing is called but by a step that goes through. -/
theorem Told.marks {next : TcThread × Option Exit} (h : Told w g b exit t next) :
    ∃ (calls : List (Nat × RawCall × Bool)) (last : List Mark),
      next.1.marks = t.marks ++ (notifications w g b ++ (calls.map TcThread.rawMark ++ last))
        ∧ (last = [] ∨ last = [.ended])
        ∧ (calls = [] ∨ next.2 = some exit ∧ ∃ res,
          TransactionStepNotify.result b w.notify = some (.ok res)
            ∧ t.commitCalls w.succeeds (TransactionStepNotify.needCommit res b) = .ok calls) := by
  cases h with
  | waiting => exact ⟨[], [], by simp, Or.inl rfl, Or.inl rfl⟩
  | threw => exact ⟨[], [.ended], by simp, Or.inr rfl, Or.inl rfl⟩
  | failed => exact ⟨[], [.ended], by simp, Or.inr rfl, Or.inl rfl⟩
  | @ended res calls hres hc =>
      exact ⟨calls, [.ended], by simp, Or.inr rfl, Or.inr ⟨rfl, res, hres, hc⟩⟩

/-- A creator that has not ended goes to `NOTIFY` first. -/
theorem finish_create (hs : (t.infos i).transactionState = .CREATE) :
    finish w i exit t = finish w i exit (t.setTransactionState i .NOTIFY) := by
  have hend : TransactionContext.tryEndTransaction w i t
      = TransactionContext.tryEndTransaction w i (t.setTransactionState i .NOTIFY) := by
    simp [TransactionContext.tryEndTransaction, hs, TcThread.setTransactionState]
  simp only [finish, hend]

end TransactionAspectContext

/-! ## What stays as it is -/

/-- The objects of a thread keep their group, and their state but for `CREATE`. -/
structure TcThread.Frame (t u : TcThread) : Prop where
  marks : t.marks <+: u.marks
  allocated : t.allocated ≤ u.allocated
  groupId : ∀ j < t.allocated, (u.infos j).groupId = (t.infos j).groupId
  state : ∀ j < t.allocated, (u.infos j).transactionState = (t.infos j).transactionState
    ∨ (t.infos j).transactionState = .CREATE ∧ (u.infos j).transactionState = .NOTIFY
  lcn : ∀ j < t.allocated, (t.infos j).transactionType = some "lcn" →
    (u.infos j).transactionType = some "lcn"

namespace TcThread.Frame

variable {v : TcThread}

theorem refl (t : TcThread) : Frame t t :=
  ⟨List.prefix_rfl, le_rfl, fun _ _ => rfl, fun _ _ => Or.inl rfl, fun _ _ h => h⟩

theorem trans (h : Frame t u) (k : Frame u v) : Frame t v where
  marks := h.marks.trans k.marks
  allocated := h.allocated.trans k.allocated
  groupId j hj := (k.groupId j (hj.trans_le h.allocated)).trans (h.groupId j hj)
  state j hj := by
    rcases h.state j hj with h₁ | ⟨h₁, h₂⟩ <;>
      rcases k.state j (hj.trans_le h.allocated) with k₁ | ⟨k₁, k₂⟩
    · exact Or.inl (k₁.trans h₁)
    · exact Or.inr ⟨h₁.symm.trans k₁, k₂⟩
    · exact Or.inr ⟨h₁, k₁.trans h₂⟩
    · exact Or.inr ⟨h₁, k₂⟩
  lcn j hj hl := k.lcn j (hj.trans_le h.allocated) (h.lcn j hj hl)

/-- Nothing but marks, and what a thread refers to, is changed. -/
theorem of_infos (hm : t.marks <+: u.marks) (hi : u.infos = t.infos)
    (ha : u.allocated = t.allocated) : Frame t u where
  marks := hm
  allocated := ha.ge
  groupId j _ := by rw [hi]
  state j _ := Or.inl (by rw [hi])
  lcn j _ h := by rw [hi]; exact h

theorem marked (ms : List Mark) : Frame t (t.marked ms) :=
  of_infos (List.prefix_append _ _) rfl rfl

theorem clearTransaction : Frame t t.clearTransaction := of_infos List.prefix_rfl rfl rfl

theorem update {f : TransactionInfo → TransactionInfo}
    (hg : (f (t.infos i)).groupId = (t.infos i).groupId)
    (hs : (f (t.infos i)).transactionState = (t.infos i).transactionState
      ∨ (t.infos i).transactionState = .CREATE ∧ (f (t.infos i)).transactionState = .NOTIFY)
    (hl : (t.infos i).transactionType = some "lcn" →
      (f (t.infos i)).transactionType = some "lcn") : Frame t (t.update i f) where
  marks := List.prefix_rfl
  allocated := le_rfl
  groupId j _ := by
    by_cases hj : j = i
    · subst hj; rw [update_infos_self, hg]
    · rw [update_infos_of_ne hj]
  state j _ := by
    by_cases hj : j = i
    · subst hj; rw [update_infos_self]; exact hs
    · rw [update_infos_of_ne hj]; exact Or.inl rfl
  lcn j _ h := by
    by_cases hj : j = i
    · subst hj; rw [update_infos_self]; exact hl h
    · rw [update_infos_of_ne hj]; exact h

theorem setTransactionType : Frame t (t.setTransactionType i TransactionConstant.LCN) :=
  update rfl (Or.inl rfl) fun _ => rfl

theorem setSuccessReturn (b : Bool) : Frame t (t.setSuccessReturn i b) :=
  update rfl (Or.inl rfl) fun h => h

theorem setNotify (h : (t.infos i).transactionState = .CREATE) :
    Frame t (t.setTransactionState i .NOTIFY) :=
  update rfl (Or.inr ⟨h, rfl⟩) fun h => h

theorem push (info : TransactionInfo) : Frame t (t.push info) where
  marks := List.prefix_rfl
  allocated := Nat.le_succ _
  groupId j hj := by rw [push_infos_of_ne (Nat.ne_of_lt hj)]
  state j hj := Or.inl (by rw [push_infos_of_ne (Nat.ne_of_lt hj)])
  lcn j hj h := by rw [push_infos_of_ne (Nat.ne_of_lt hj)]; exact h

end TcThread.Frame

open TcThread (Frame)

/-- None of them is an outbound call. -/
def NoOutbound (ms : List Mark) : Prop := ∀ header, .outbound header ∉ ms

theorem noOutbound_nil : NoOutbound [] := fun _ => List.not_mem_nil

theorem NoOutbound.append {ms ns : List Mark} (hms : NoOutbound ms) (hns : NoOutbound ns) :
    NoOutbound (ms ++ ns) := by
  intro header hmem
  rcases List.mem_append.mp hmem with hmem | hmem
  · exact hms header hmem
  · exact hns header hmem

theorem noOutbound_written {α : Type} {message : Message} {reply : Reply α} :
    NoOutbound (TcThread.written message reply) := by
  unfold TcThread.written
  split <;> simp [NoOutbound]

/-- Every step leaves only marks, and calls nobody. -/
theorem TcThread.requestMsg_marked {α : Type} (t : TcThread) (message : Message)
    (reply : Reply α) : ∃ ms, NoOutbound ms ∧ (t.requestMsg message reply).1 = t.marked ms := by
  cases hg : message.groupId with
  | none => exact ⟨[], noOutbound_nil, by rw [requestMsg_of_no_group hg, marked_nil]⟩
  | some g => exact ⟨_, noOutbound_written, by rw [requestMsg_of_group hg]⟩

theorem TcThread.commit_marked (t : TcThread) (succeeds : RawCall → Bool) (d : Bool) :
    ∃ ms, NoOutbound ms ∧ (t.commit succeeds d).1 = t.marked ms := by
  cases hc : t.commitCalls succeeds d with
  | error thrown => exact ⟨[], noOutbound_nil, by rw [commit_error hc, marked_nil]⟩
  | ok calls =>
      exact ⟨calls.map rawMark, by simp [NoOutbound, rawMark], by rw [commit_ok hc]⟩

theorem TransactionContext.tryBeginTransaction_marked (w : World) (i : Nat) (t : TcThread) :
    ∃ ms, NoOutbound ms ∧ (tryBeginTransaction w i t).1 = t.marked ms := by
  by_cases hs : (t.infos i).transactionState = .CREATE
  · cases hg : (t.infos i).groupId with
    | none =>
        exact ⟨[], noOutbound_nil,
          by rw [tryBeginTransaction_create_of_no_group hs hg, TcThread.marked_nil]⟩
    | some g => exact ⟨_, noOutbound_written, by rw [tryBeginTransaction_create hs hg]⟩
  · exact ⟨[], noOutbound_nil, by rw [tryBeginTransaction_else hs, TcThread.marked_nil]⟩

theorem TransactionStepJoin.run_marked (w : World) (i : Nat) (t : TcThread) :
    ∃ ms, NoOutbound ms ∧ (run w i t).1 = t.marked ms := by
  unfold run
  obtain ⟨ms, hno, hms⟩ := t.requestMsg_marked (.join (.new (t.infos i).groupId)) w.join
  split <;> rename_i heq <;> rw [heq] at hms <;> subst hms
  · exact ⟨ms, hno, rfl⟩
  · -- there is no answer, and the commitor is run in place of the task
    obtain ⟨ns, hno', hns⟩ := (t.marked ms).commit_marked w.succeeds false
    split <;> rename_i hc <;> rw [hc] at hns <;> subst hns <;>
      exact ⟨ms ++ ns, hno.append hno', TcThread.marked_marked⟩
  · exact ⟨_, hno.append (by simp [NoOutbound]), TcThread.marked_marked⟩

theorem TransactionStepNotify.request_marked (t : TcThread) (message : Message) (b : Bool)
    (replies : List (Reply TransactionNotifyEvent)) :
    ∃ ms, NoOutbound ms ∧ (request t message b replies).1 = t.marked ms := by
  cases hg : message.groupId with
  | none => exact ⟨[], noOutbound_nil, by rw [request_of_no_group hg, TcThread.marked_nil]⟩
  | some g =>
      exact ⟨List.replicate (writes b replies) (.sent message),
        by simp [NoOutbound, List.mem_replicate], by rw [request_of_group hg]⟩

theorem TransactionStepNotify.run_marked (w : World) (i : Nat) (t : TcThread) :
    ∃ ms, NoOutbound ms ∧ (run w i t).1 = t.marked ms := by
  unfold run
  split
  · exact ⟨[], noOutbound_nil, TcThread.marked_nil.symm⟩
  · rename_i b _
    obtain ⟨ms, hno, hms⟩ := request_marked t (.notify (.new (t.infos i).groupId b)) b w.notify
    dsimp only
    split <;> rename_i heq <;> rw [heq] at hms <;> subst hms
    · exact ⟨ms, hno, rfl⟩
    · exact ⟨ms, hno, rfl⟩
    · rename_i res
      obtain ⟨ns, hno', hns⟩ := (t.marked ms).commit_marked w.succeeds (needCommit res b)
      exact ⟨ms ++ ns, hno.append hno', hns.trans TcThread.marked_marked⟩

/-- The end step sets the state and leaves marks. -/
theorem TransactionContext.tryEndTransaction_marked (w : World) (i : Nat) (t : TcThread) :
    ∃ ms, NoOutbound ms ∧ (tryEndTransaction w i t).1
      = (if (t.infos i).transactionState = .CREATE then t.setTransactionState i .NOTIFY
        else t).marked ms := by
  cases hs : (t.infos i).transactionState with
  | CREATE =>
      obtain ⟨ms, hno, hms⟩ :=
        TransactionStepNotify.run_marked w i (t.setTransactionState i .NOTIFY)
      refine ⟨ms, hno, ?_⟩
      simp only [tryEndTransaction, hs, if_true, TcThread.setTransactionState_infos_self, hms]
  | NOTIFY =>
      obtain ⟨ms, hno, hms⟩ := TransactionStepNotify.run_marked w i t
      exact ⟨ms, hno, by simp only [tryEndTransaction, hs, reduceCtorEq, if_false, hms]⟩
  | JOIN =>
      obtain ⟨ms, hno, hms⟩ := TransactionStepJoin.run_marked w i t
      exact ⟨ms, hno, by simp only [tryEndTransaction, hs, reduceCtorEq, if_false, hms]⟩
  | NO_TRANSACTION => exact ⟨[], noOutbound_nil, by simp [tryEndTransaction, hs]⟩

namespace TransactionAspectContext

/-- What the thread refers to may be cleared after the step. -/
theorem frame_finish : Frame t (finish w i exit t).1 ∧ ((finish w i exit t).1.current = t.current
    ∨ (finish w i exit t).1.current = none) := by
  obtain ⟨ms, _, hms⟩ := TransactionContext.tryEndTransaction_marked w i t
  have hframe : Frame t (TransactionContext.tryEndTransaction w i t).1 := by
    rw [hms]
    split
    · exact (Frame.setNotify ‹_›).trans (Frame.marked _)
    · exact Frame.marked _
  have hcurrent : (TransactionContext.tryEndTransaction w i t).1.current = t.current := by
    rw [hms]
    split <;> rfl
  -- only an end step that returns clears what the thread refers to
  unfold finish
  split <;> rename_i heq <;> rw [heq] at hframe hcurrent
  · exact ⟨hframe, Or.inl hcurrent⟩
  · exact ⟨(hframe.trans Frame.clearTransaction).trans (Frame.marked _), Or.inr rfl⟩
  · exact ⟨hframe.trans (Frame.marked _), Or.inl hcurrent⟩

theorem frame_enter : Frame t (enter w t).2 := by
  unfold enter
  split
  · exact Frame.setTransactionType
  · exact (Frame.push _).trans Frame.setTransactionType

@[simp] theorem enter_marks : (enter w t).2.marks = t.marks := by
  unfold enter
  split <;> rfl

@[simp] theorem note_marks : (note i exit t).marks = t.marks := by
  cases exit <;> rfl

theorem frame_note : Frame t (note i exit t) := by
  cases exit with
  | returned => exact Frame.setSuccessReturn true
  | exception thrown => exact Frame.setSuccessReturn false
  | error => exact Frame.refl t

theorem frame_attempt {proceed : TcThread → TcThread × Option Exit}
    (hp : ∀ u, Frame u (proceed u).1) : Frame t (attempt w i proceed t).1 := by
  obtain ⟨ms, _, hms⟩ := TransactionContext.tryBeginTransaction_marked w i t
  unfold attempt
  split <;> rename_i heq <;> rw [heq] at hms <;> subst hms
  · exact (Frame.marked ms).trans (hp _)
  · exact Frame.marked ms

theorem frame_runWithTransaction {annotated : Bool}
    {proceed : TcThread → TcThread × Option Exit} (hp : ∀ u, Frame u (proceed u).1) :
    Frame t (runWithTransaction annotated w proceed t).1 := by
  cases annotated with
  | false => exact hp t
  | true =>
      have h : Frame t (attempt w (enter w t).1 proceed (enter w t).2).1 :=
        frame_enter.trans (frame_attempt hp)
      unfold runWithTransaction
      simp only [if_true]
      split <;> rename_i heq <;> rw [heq] at h
      · exact h
      · exact (h.trans frame_note).trans frame_finish.1

end TransactionAspectContext

/-- Database work changes the `JdbcTransaction` or the `JdbcContext`. -/
theorem JdbcOp.apply_ok {op : JdbcOp} (h : op.apply t = .ok u) :
    (∃ jdbcTransaction, u = { t with jdbcTransaction }) ∨ ∃ context, u = { t with context } := by
  cases op with
  | getConnection c =>
      left
      simp only [apply, TxDataSourceInterceptor.invoke] at h
      split at h
      · cases h; exact ⟨t.jdbcTransaction, rfl⟩
      · split at h
        · cases h
        · split at h <;> cases h
          · exact ⟨_, rfl⟩
          · exact ⟨t.jdbcTransaction, rfl⟩
  | commit saved =>
      right
      simp only [apply] at h
      cases heq : TransactionJdbcEventListener.onBeforeCommit t.currentInfo t.jdbcTransaction saved
        t.context <;> rw [heq] at h <;> cases h
      exact ⟨_, rfl⟩
  | rollback =>
      right
      simp only [apply] at h
      cases heq : TransactionJdbcEventListener.onBeforeRollback t.currentInfo t.jdbcTransaction
        t.context <;> rw [heq] at h <;> cases h
      exact ⟨_, rfl⟩

/-- Database work leaves the objects and the marks. -/
theorem JdbcOp.run_keeps (op : JdbcOp) (t : TcThread) :
    (op.run t).1.infos = t.infos ∧ (op.run t).1.allocated = t.allocated
      ∧ (op.run t).1.current = t.current ∧ (op.run t).1.marks = t.marks := by
  unfold run
  cases h : op.apply t with
  | error thrown => exact ⟨rfl, rfl, rfl, rfl⟩
  | ok u =>
      rcases apply_ok h with ⟨_, rfl⟩ | ⟨_, rfl⟩
      · exact ⟨rfl, rfl, rfl, rfl⟩
      · exact ⟨rfl, rfl, rfl, rfl⟩

/-- An outbound call leaves its header. -/
theorem TcThread.outbound_eq (t : TcThread) (how : Exit) : (t.outbound how).1
    = t.marked [.outbound (RpcTransactionContext.build t.currentInfo)] := by
  unfold outbound
  cases RpcTransactionContext.build t.currentInfo <;> rfl

theorem Business.run_jdbc {op : JdbcOp} {next : Exit → Business} : (jdbc op next).run t
    = (next (op.run (t.marked [.code])).2).run (op.run (t.marked [.code])).1 := rfl

theorem Business.run_outbound {how : Exit} {next : Exit → Business} :
    (outbound how next).run t = (next (t.outbound how).2).run (t.outbound how).1 := rfl

theorem Business.run_call {annotated : Bool} {w : World} {body : Business}
    {next : Exit → Business} {e : Exit}
    (h : TransactionAspectContext.runWithTransaction annotated w body.run t = (u, some e)) :
    (call annotated w body next).run t = (next e).run u := by
  simp only [run, h]

theorem Business.run_call_waiting {annotated : Bool} {w : World} {body : Business}
    {next : Exit → Business}
    (h : TransactionAspectContext.runWithTransaction annotated w body.run t = (u, none)) :
    (call annotated w body next).run t = (u, none) := by
  simp only [run, h]

/-- Whatever runs on a thread keeps to the frame. -/
theorem Business.frame_run (b : Business) (t : TcThread) : Frame t (b.run t).1 := by
  induction b generalizing t with
  | ends how => exact Frame.refl t
  | code next ih => exact (Frame.marked _).trans (ih _)
  | jdbc op next ih =>
      -- neither `infos` nor `allocated` is changed by database work
      obtain ⟨hi, ha, _, hm⟩ := op.run_keeps (t.marked [.code])
      rw [run_jdbc]
      refine (Frame.marked [.code]).trans (Frame.trans ?_ (ih _ _))
      exact Frame.of_infos ⟨[], by rw [hm, List.append_nil]⟩ hi ha
  | outbound how next ih =>
      rw [run_outbound]
      refine Frame.trans ?_ (ih _ _)
      rw [TcThread.outbound_eq]
      exact Frame.marked _
  | call annotated w body next ihb ihn =>
      have h : Frame t (TransactionAspectContext.runWithTransaction annotated w body.run t).1 :=
        TransactionAspectContext.frame_runWithTransaction ihb
      unfold run
      split <;> rename_i heq <;> rw [heq] at h
      · exact h
      · exact h.trans (ihn _ _)

/-! ## The object a thread refers to -/

/-- It exists and has the type LCN. -/
def TcThread.Owned (t : TcThread) : Prop :=
  ∀ i, t.current = some i → i < t.allocated ∧ (t.infos i).transactionType = some "lcn"

namespace TcThread.Owned

theorem of_clean (h : t.current = none) : Owned t := by
  intro i hi
  rw [h] at hi
  cases hi

theorem of_frame (h : Owned t) (hf : Frame t u)
    (hc : u.current = t.current ∨ u.current = none) : Owned u := by
  rcases hc with hc | hc
  · intro i hi
    rw [hc] at hi
    obtain ⟨ha, hl⟩ := h i hi
    exact ⟨ha.trans_le hf.allocated, hf.lcn i ha hl⟩
  · exact of_clean hc

theorem marked (h : Owned t) (ms : List Mark) : Owned (t.marked ms) := h

theorem enter (h : Owned t) : Owned (TransactionAspectContext.enter w t).2 := by
  unfold TransactionAspectContext.enter
  split
  · exact h.of_frame Frame.setTransactionType (Or.inl rfl)
  · -- the object is a new one, which is allocated first and gets its type then
    intro i hi
    cases hi
    exact ⟨Nat.lt_succ_self _, by simp [TransactionConstant.LCN]⟩

theorem note (h : Owned t) {exit : Exit} : Owned (TransactionAspectContext.note i exit t) :=
  h.of_frame TransactionAspectContext.frame_note (Or.inl (by cases exit <;> rfl))

theorem attempt (h : Owned t) {proceed : TcThread → TcThread × Option Exit}
    (hp : ∀ u, Owned u → Owned (proceed u).1) :
    Owned (TransactionAspectContext.attempt w i proceed t).1 := by
  obtain ⟨ms, _, hms⟩ := TransactionContext.tryBeginTransaction_marked w i t
  unfold TransactionAspectContext.attempt
  split <;> rename_i heq <;> rw [heq] at hms <;> subst hms
  · exact hp _ (h.marked ms)
  · exact h.marked ms

theorem runWithTransaction (h : Owned t) {annotated : Bool}
    {proceed : TcThread → TcThread × Option Exit} (hp : ∀ u, Owned u → Owned (proceed u).1) :
    Owned (TransactionAspectContext.runWithTransaction annotated w proceed t).1 := by
  cases annotated with
  | false => exact hp t h
  | true =>
      have ha : Owned (TransactionAspectContext.attempt w (TransactionAspectContext.enter w t).1
          proceed (TransactionAspectContext.enter w t).2).1 := h.enter.attempt hp
      unfold TransactionAspectContext.runWithTransaction
      simp only [if_true]
      split <;> rename_i heq <;> rw [heq] at ha
      · exact ha
      · exact ha.note.of_frame TransactionAspectContext.frame_finish.1
          TransactionAspectContext.frame_finish.2

/-- Whatever runs on a thread, what the thread refers to stays in order. -/
theorem run (h : Owned t) (b : Business) : Owned (b.run t).1 := by
  induction b generalizing t with
  | ends how => exact h
  | code next ih => exact ih (h.marked _)
  | jdbc op next ih =>
      obtain ⟨hi, ha, hc, hm⟩ := op.run_keeps (t.marked [.code])
      rw [Business.run_jdbc]
      refine ih _ (of_frame h ?_ (Or.inl hc))
      exact (Frame.marked [.code]).trans
        (Frame.of_infos ⟨[], by rw [hm, List.append_nil]⟩ hi ha)
  | outbound how next ih =>
      rw [Business.run_outbound]
      exact ih _ (by rw [outbound_eq]; exact h.marked _)
  | call annotated w body next ihb ihn =>
      have hr : Owned (TransactionAspectContext.runWithTransaction annotated w body.run t).1 :=
        h.runWithTransaction fun u hu => ihb hu
      unfold Business.run
      split <;> rename_i heq <;> rw [heq] at hr
      · exact hr
      · exact ihn _ hr

end TcThread.Owned

end TxLcn.Tc
