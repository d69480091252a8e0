import TxLcn.Tc.Reporter

/-!
# Whether a timely reply is returned

A reply is recognised by its message id. A request that registered its lock
under that id gets it, whenever the reply comes, as long as it comes before the
lock is read. A `TransactionMessage` registers under its group id and has no
message id; its reply is handled, and lost.

The two threads that matter are followed through a run: the one that runs the
request, from the step in which it registers, and the one that handles the
reply. Others may run as well, as long as they leave that lock and that key alone.
-/

namespace TxLcn.Proof

open TxLcn.Lib TxLcn.Protocol TxLcn.Tc Exchange

variable {W H : Type} [DecidableEq W] [DecidableEq H]

/-- The step leaves the message of the lock and the entry of the key as they are. -/
def LeavesAlone (P : Threads W H) (lock : Nat) (key : Option String) (s : Exchange W H)
    (e : Thread W H) : Prop :=
  ∀ t, s.step P e = some t →
    t.resAt lock = s.resAt lock ∧ ∀ k, key = some k → t.context.map k = s.context.map k

/-- A run in which `h` handles the reply to the request of `w` in time. -/
structure TimelyRun (P : Threads W H) (w : W) (h : H) where
  lock : Nat
  outcome : Outcome
  (before registered handled after : Exchange W H)
  (es fs : List (Thread W H))
  /-- The request registers its lock; the reply is not being handled yet. -/
  begins : before.waiter w = .start ∧ before.step P (.waiter w) = some registered
  takes : registered.waiter w = .registered lock
  notYet : registered.handler h = .start ∧ registered.resAt lock ≠ some (P.message h)
  /-- The reply is handled while the lock has not been read. -/
  handles : exec (step P) registered es = some handled
  inTime : Holds handled w lock
    ∧ (handled.handler h = .resSet ∨ handled.handler h = .done)
  /-- The request ends. -/
  ends : exec (step P) handled fs = some after
  result : after.waiter w = .done outcome
  /-- Nobody else touches the lock or the key. -/
  alone : AllSteps (step P) (fun s e => e = .waiter w ∨ e = .handler h
    ∨ LeavesAlone P lock (P.task w).key s e) registered (es ++ fs)

/-- The reply is the request sent back. -/
structure IsReply (request reply : Message) : Prop where
  family : reply.family = request.family
  messageId : reply.messageId = request.messageId
  groupId : reply.groupId = request.groupId

variable {P : Threads W H} {s t : Exchange W H} {w : W} {h : H}

/-! ## From the lock to the result -/

/-- The handling thread will not put its message anywhere any more. -/
def Over (P : Threads W H) (h : H) (s : Exchange W H) : Prop :=
  (P.message h).messageId = none ∨ s.handler h = .resSet ∨ s.handler h = .done

/-- `res` is in the lock that is held, or has been read from it. -/
def Keeps (P : Threads W H) (w : W) (lock : Nat) (res : Option Message) (s : Exchange W H) : Prop :=
  (Holds s w lock ∧ s.resAt lock = res)
    ∨ (s.waiter w).outcome? = some ((P.task w).outcome res)

omit [DecidableEq H] in
/-- A step of the thread that holds the lock: it still holds it, or reads what is in it. -/
theorem holds_waited_next {lock : Nat} (hh : Holds s w lock) (hw : Waited P s w t) :
    t.context = s.context ∧ (Holds t w lock
      ∨ (t.waiter w).outcome? = some ((P.task w).outcome (s.resAt lock))) := by
  unfold Holds at hh
  cases hw with
  | refused hpc _ => rw [hpc] at hh; simp at hh
  | registered hpc _ => rw [hpc] at hh; simp at hh
  | sent hpc =>
      rw [hpc] at hh
      simp only [WaiterPc.registered.injEq, reduceCtorEq, or_false] at hh
      subst hh
      exact ⟨rfl, Or.inl (holds_self.mpr (Or.inr (Or.inl rfl)))⟩
  | awaited hpc =>
      rcases hpc with hpc | hpc
      all_goals
        rw [hpc] at hh
        simp only [WaiterPc.registered.injEq, WaiterPc.sent.injEq, reduceCtorEq, or_false,
          false_or] at hh
        subst hh
        exact ⟨rfl, Or.inl (holds_self.mpr (Or.inr (Or.inr rfl)))⟩
  | read hpc =>
      rw [hpc] at hh
      simp only [WaiterPc.awaited.injEq, reduceCtorEq, false_or] at hh
      subst hh
      exact ⟨rfl, Or.inr (by rw [setWaiter_self]; rfl)⟩
  | released hpc => rw [hpc] at hh; simp at hh
  | committed hpc _ => rw [hpc] at hh; simp at hh
  | forgotten hpc => rw [hpc] at hh; simp at hh

omit [DecidableEq H] in
/-- What has been read is not changed by its reader. -/
theorem outcome_waited {outcome : Outcome} (ho : (s.waiter w).outcome? = some outcome)
    (hw : Waited P s w t) : (t.waiter w).outcome? = some outcome := by
  cases hw with
  | refused hpc _ => rw [hpc] at ho; simp [WaiterPc.outcome?] at ho
  | registered hpc _ => rw [hpc] at ho; simp [WaiterPc.outcome?] at ho
  | sent hpc => rw [hpc] at ho; simp [WaiterPc.outcome?] at ho
  | awaited hpc =>
      rcases hpc with hpc | hpc <;> rw [hpc] at ho <;> simp [WaiterPc.outcome?] at ho
  | read hpc => rw [hpc] at ho; simp [WaiterPc.outcome?] at ho
  | released hpc => rw [hpc] at ho; rw [setWaiter_self]; exact ho
  | committed hpc _ => rw [hpc] at ho; rw [setWaiter_self]; exact ho
  | forgotten hpc => rw [hpc] at ho; rw [setWaiter_self]; exact ho

/-- Steps of the requester, of a handler that is over, and of others that leave the lock alone. -/
theorem keeps_step {lock : Nat} {res : Option Message} {key : Option String} {e : Thread W H}
    (hk : Keeps P w lock res s ∧ Over P h s)
    (hc : e = .waiter w ∨ e = .handler h ∨ LeavesAlone P lock key s e)
    (hs : s.step P e = some t) : Keeps P w lock res t ∧ Over P h t := by
  obtain ⟨hkeep, hover⟩ := hk
  refine ⟨?_, ?_⟩
  · by_cases hw : e = .waiter w
    · subst hw
      have hwaited := stepWaiter_waited hs
      rcases hkeep with ⟨hh, hres⟩ | hout
      · obtain ⟨hctx, hnext⟩ := holds_waited_next hh hwaited
        have hsame : t.resAt lock = s.resAt lock := by rw [resAt, hctx, resAt]
        rcases hnext with hheld | hread
        · exact Or.inl ⟨hheld, hsame.trans hres⟩
        · exact Or.inr (by rw [hread, hres])
      · exact Or.inr (outcome_waited hout hwaited)
    · have hsame : t.resAt lock = s.resAt lock := by
        rcases hc with rfl | rfl | hleave
        · exact absurd rfl hw
        · rcases (stepHandler_handles hs).resAt lock with h' | ⟨hid, hpc, _⟩
          · exact h'
          · -- the handler is past its `setRes`, or has none to make
            rcases hover with ho | ho | ho
            · exact absurd ho hid
            · rw [ho] at hpc; cases hpc
            · rw [ho] at hpc; cases hpc
        · exact (hleave t hs).1
      have hwaiter := waiter_of_step_ne hs hw
      rw [Keeps, Holds, hwaiter, hsame]
      exact hkeep
  · by_cases hh : e = .handler h
    · subst hh
      rcases hover with ho | ho | ho
      · exact Or.inl ho
      all_goals
        cases stepHandler_handles hs with
        | signalled _ => exact Or.inr (Or.inr (setHandler_self ..))
        | _ => simp_all
    · rw [Over, handler_of_step_ne hs hh]
      exact hover

/-! ## From the reply to the lock -/

/-- The handling thread is on its way to the lock, or the reply is there. -/
def Finds (P : Threads W H) (h : H) (lock : Nat) (key : String) (s : Exchange W H) : Prop :=
  match s.handler h with
  | .start => s.context.map key = some lock
  | .got found => found = some lock
  | .clearing found _ => found = some lock
  | .freed found => found = some lock
  | .removed found => found = some lock
  | .resSet => s.resAt lock = some (P.message h)
  | .done => s.resAt lock = some (P.message h)

omit [DecidableEq W] in
/-- The steps of the handling thread itself. -/
theorem finds_handles {lock : Nat} {key : String} (hid : (P.message h).messageId = some key)
    (hf : Finds P h lock key s) (hh : Handles P s h t) : Finds P h lock key t := by
  unfold Finds at hf ⊢
  cases hh with
  | ignored hnone _ => rw [hid] at hnone; cases hnone
  | got hkey hpc =>
      cases hid.symm.trans hkey
      rw [hpc] at hf
      rw [setHandler_self]
      exact hf
  | clearing _ hpc => rw [hpc] at hf; rw [setHandler_self]; exact hf
  | freed hpc => rw [hpc] at hf; rw [setHandler_self]; exact hf
  | removed _ hpc => rw [hpc] at hf; rw [setHandler_self]; exact hf
  | missed hpc => rw [hpc] at hf; cases hf
  | resSet _ hpc =>
      rw [hpc] at hf
      cases hf
      rw [setHandler_self]
      dsimp only
      rw [setHandler_resAt, withLock_resAt, if_pos rfl]
      rfl
  | signalled hpc => rw [hpc] at hf; rw [setHandler_self]; exact hf

omit [DecidableEq W] [DecidableEq H] in
/-- A step that moves neither the handler nor what it looks for. -/
theorem finds_of_eq {lock : Nat} {key : String} (hf : Finds P h lock key s)
    (hhandler : t.handler h = s.handler h) (hres : t.resAt lock = s.resAt lock)
    (hmap : t.context.map key = s.context.map key) : Finds P h lock key t := by
  unfold Finds at hf ⊢
  rw [hhandler, hres, hmap]
  exact hf

/-- As long as the lock has not been read, the reply will be found or is there. -/
theorem finds_step {lock : Nat} {key : String} {e : Thread W H}
    (hkey : (P.task w).key = some key) (hid : (P.message h).messageId = some key)
    (hI : (s.waiter w).outcome?.isSome ∨ Holds s w lock ∧ Finds P h lock key s)
    (hc : e = .waiter w ∨ e = .handler h ∨ LeavesAlone P lock (P.task w).key s e)
    (hs : s.step P e = some t) :
    (t.waiter w).outcome?.isSome ∨ Holds t w lock ∧ Finds P h lock key t := by
  by_cases hw : e = .waiter w
  · subst hw
    have hwaited := stepWaiter_waited hs
    rcases hI with hout | ⟨hh, hf⟩
    · obtain ⟨o, ho⟩ := Option.isSome_iff_exists.mp hout
      exact Or.inl (by rw [outcome_waited ho hwaited]; rfl)
    · obtain ⟨hctx, hheld | hread⟩ := holds_waited_next hh hwaited
      · refine Or.inr ⟨hheld, finds_of_eq hf (by rw [hwaited.handler]) ?_ (by rw [hctx])⟩
        rw [resAt, hctx, resAt]
      · exact Or.inl (by rw [hread]; rfl)
  · have hwaiter := waiter_of_step_ne hs hw
    rw [Holds, hwaiter]
    refine hI.imp_right ?_
    rintro ⟨hh, hf⟩
    refine ⟨hh, ?_⟩
    by_cases hhe : e = .handler h
    · subst hhe
      exact finds_handles hid hf (stepHandler_handles hs)
    · rcases hc with rfl | rfl | hleave
      · exact absurd rfl hw
      · exact absurd rfl hhe
      · obtain ⟨hres, hmap⟩ := hleave t hs
        exact finds_of_eq hf (handler_of_step_ne hs hhe) hres (hmap key hkey)

/-! ## The two kinds of request -/

omit [DecidableEq W] [DecidableEq H] in
theorem not_outcome_of_holds {lock : Nat} (hh : Holds s w lock) :
    ¬ (s.waiter w).outcome?.isSome := by
  rcases hh with h | h | h <;> rw [h] <;> simp [WaiterPc.outcome?]

/-- What is in the lock when the reply has been handled is what the request makes its result of. -/
theorem outcome_of_handled (R : TimelyRun P w h)
    (hover : Over P h R.handled) :
    R.outcome = (P.task w).outcome (R.handled.resAt R.lock) := by
  have hC := ((allSteps_append R.handles).mp R.alone).2
  have hend := exec_invariant_of_allSteps
    (I := fun s => Keeps P w R.lock (R.handled.resAt R.lock) s ∧ Over P h s)
    (fun _ _ _ hk hc hs => keeps_step hk hc hs) ⟨Or.inl ⟨R.inTime.1, rfl⟩, hover⟩ hC R.ends
  rcases hend.1 with ⟨hh, _⟩ | hout
  · exact absurd (by rw [R.result]; rfl) (not_outcome_of_holds hh)
  · rw [R.result] at hout
    exact Option.some.inj hout

/-- Registering a lock makes the key lead to it. -/
theorem map_registered {key : String} (R : TimelyRun P w h) (hkey : (P.task w).key = some key) :
    R.registered.context.map key = some R.lock := by
  obtain ⟨hstart, hstep⟩ := R.begins
  have htakes := R.takes
  generalize R.registered = r at hstep htakes
  cases stepWaiter_waited hstep with
  | refused _ _ => rw [setWaiter_self] at htakes; cases htakes
  | registered _ hadd =>
      rw [setWaiter_self] at htakes
      cases htakes
      rw [hkey] at hadd
      exact LockContext.map_addKey hadd
  | sent hpc => rw [hstart] at hpc; cases hpc
  | awaited hpc => rw [hstart] at hpc; rcases hpc with hpc | hpc <;> cases hpc
  | read hpc => rw [hstart] at hpc; cases hpc
  | released hpc => rw [hstart] at hpc; cases hpc
  | committed hpc _ => rw [hstart] at hpc; cases hpc
  | forgotten hpc => rw [hstart] at hpc; cases hpc

/-- A message id under which the lock is registered leads the reply into the lock. -/
theorem resAt_handled {key : String} (R : TimelyRun P w h) (hkey : (P.task w).key = some key)
    (hid : (P.message h).messageId = some key) :
    R.handled.resAt R.lock = some (P.message h) := by
  have hC := ((allSteps_append R.handles).mp R.alone).1
  have hstart : Finds P h R.lock key R.registered := by
    unfold Finds
    rw [R.notYet.1]
    exact map_registered R hkey
  have hI := exec_invariant_of_allSteps
    (I := fun s => (s.waiter w).outcome?.isSome ∨ Holds s w R.lock ∧ Finds P h R.lock key s)
    (fun _ _ _ hI hc hs => finds_step hkey hid hI hc hs) (Or.inr ⟨Or.inl R.takes, hstart⟩) hC
    R.handles
  have hf := (hI.resolve_left (not_outcome_of_holds R.inTime.1)).2
  unfold Finds at hf
  rcases R.inTime.2 with hpc | hpc <;> rw [hpc] at hf <;> exact hf

/-- Without a message id nothing is put into the lock. -/
theorem resAt_handled_none (R : TimelyRun P w h) (hid : (P.message h).messageId = none) :
    R.handled.resAt R.lock = R.registered.resAt R.lock := by
  have hC := ((allSteps_append R.handles).mp R.alone).1
  have hI := exec_invariant_of_allSteps
    (I := fun s => Keeps P w R.lock (R.registered.resAt R.lock) s ∧ Over P h s)
    (fun _ _ _ hk hc hs => keeps_step hk hc hs) ⟨Or.inl ⟨Or.inl R.takes, rfl⟩, Or.inl hid⟩ hC
    R.handles
  rcases hI.1 with ⟨_, hres⟩ | hout
  · exact hres
  · exact absurd (by rw [hout]; rfl) (not_outcome_of_holds R.inTime.1)

/--
**A reply handled in time is returned exactly if** the request is not a
`TransactionMessage`.
-/
theorem timely_reply_returned_iff {applicationName : Option String} {randomUUID : String}
    {m : Message} (hnew : m.messageId = none)
    (htask : P.task w = TxManagerReporter.requestMsg applicationName randomUUID m)
    (hreply : IsReply (TxManagerReporter.prepare applicationName randomUUID m) (P.message h))
    (R : TimelyRun P w h) :
    R.outcome = .returned (some (P.message h)) ↔ m.family ≠ .transactionMessage := by
  by_cases hm : m.family = .transactionMessage
  · have hid : (P.message h).messageId = none := by
      rw [hreply.messageId, TxManagerReporter.prepare_transactionMessage hm, hnew]
    refine ⟨?_, ?_⟩
    · intro hout
      -- the lock was not filled, so the request makes its result of what was there before
      rw [outcome_of_handled R (Or.inl hid), resAt_handled_none R hid] at hout
      exact absurd (Task.outcome_eq_returned hout) R.notYet.2
    · intro hne
      exact absurd hm hne
  · obtain ⟨hprepared, hkey⟩ :=
      @TxManagerReporter.prepare_other applicationName randomUUID m hm
    have hfamily := hreply.family.trans TxManagerReporter.prepare_family
    refine ⟨fun _ => hm, fun _ => ?_⟩
    -- the key and the message id are one, so the reply is in the lock
    rw [outcome_of_handled R (Or.inr R.inTime.2),
      resAt_handled R (by rw [htask]; exact hkey) (hreply.messageId.trans hprepared), Task.outcome,
      htask, TxManagerReporter.requestMsg_accepts hfamily, if_pos rfl]

/-! ## Two requests -/

/-- One request for `m` and its reply. -/
def exchangeOf (m reply : Message) : Threads Unit Unit where
  task _ := TxManagerReporter.requestMsg (some "tc") "id" m
  message _ := reply

theorem alone_of_two {P : Threads Unit Unit} {lock : Nat} {key : Option String}
    (s : Exchange Unit Unit) (es : List (Thread Unit Unit)) : AllSteps (step P)
      (fun s e => e = .waiter () ∨ e = .handler () ∨ LeavesAlone P lock key s e) s es := by
  refine allSteps_of_forall (fun e _ s => ?_) s
  cases e with
  | waiter w => exact Or.inl rfl
  | handler h => exact Or.inr (Or.inl rfl)

/-- The answer of a TM that has generated two ids. -/
def snowflakeReply : Message :=
  .snowflake { messageId := some "id", isFirstNode := true, groupId := some "g", logId := 7 }

/-- The request to create a group, and what a TM sends back. -/
def createMessage : Message := .create (.new (some "g"))

def createReply : Message := .create { TransactionCreateEvent.new (some "g") with
  moduleName := some "tc", isFirstNode := true, result := some "ok" }

/-- The state after `es`, if that can be run. -/
def stateAfter (P : Threads Unit Unit) (s : Exchange Unit Unit) (es : List (Thread Unit Unit)) :
    Exchange Unit Unit := (exec (step P) s es).getD s

theorem exec_stateAfter {P : Threads Unit Unit} {s : Exchange Unit Unit}
    {es : List (Thread Unit Unit)} (h : (exec (step P) s es).isSome = true) :
    exec (step P) s es = some (stateAfter P s es) := by
  obtain ⟨t, ht⟩ := Option.isSome_iff_exists.mp h
  rw [stateAfter, ht, Option.getD_some]

/-- The request is sent, its reply handled in `n` steps, and the wait ends. -/
def runOf (m reply : Message) (n : Nat) (outcome : Outcome)
    (hpc : let P := exchangeOf m reply
      let s := stateAfter P {} [.waiter ()]
      let t := stateAfter P s (.waiter () :: List.replicate n (.handler ()))
      let u := stateAfter P t (List.replicate 4 (.waiter ()))
      (s.resAt 0 ≠ some reply ∧ (exec (step P) {} [.waiter ()]).isSome
        ∧ (exec (step P) s (.waiter () :: List.replicate n (.handler ()))).isSome
        ∧ (exec (step P) t (List.replicate 4 (.waiter ()))).isSome)
        ∧ s.waiter () = .registered 0 ∧ s.handler () = .start ∧ t.waiter () = .sent 0
        ∧ t.handler () = .done ∧ u.waiter () = .done outcome) :
    TimelyRun (exchangeOf m reply) () () where
  lock := 0
  outcome
  before := {}
  registered := stateAfter (exchangeOf m reply) {} [.waiter ()]
  handled := _
  after := _
  es := .waiter () :: List.replicate n (.handler ())
  fs := List.replicate 4 (.waiter ())
  begins := ⟨rfl, (exec_singleton _ _).symm.trans (exec_stateAfter hpc.1.2.1)⟩
  takes := hpc.2.1
  notYet := ⟨hpc.2.2.1, hpc.1.1⟩
  handles := exec_stateAfter hpc.1.2.2.1
  inTime := ⟨Or.inr (Or.inl hpc.2.2.2.1), Or.inr hpc.2.2.2.2.1⟩
  ends := exec_stateAfter hpc.1.2.2.2
  result := hpc.2.2.2.2.2
  alone := alone_of_two _ _

/-- A request for ids returns the reply. -/
theorem snowflake_reply_returned :
    (runOf (.snowflake {}) snowflakeReply 6 (.returned (some snowflakeReply))
        (by decide)).outcome = .returned (some snowflakeReply)
      ↔ (Message.snowflake {}).family ≠ .transactionMessage :=
  timely_reply_returned_iff rfl rfl ⟨rfl, rfl, rfl⟩ (runOf (.snowflake {}) snowflakeReply 6
    (.returned (some snowflakeReply)) (by decide))

/-- A request to create a group returns nothing. -/
theorem timely_reply_not_always_returned :
    ¬ ∀ (W H : Type) [DecidableEq W] [DecidableEq H] (P : Threads W H) (w : W) (h : H)
      (applicationName : Option String) (randomUUID : String) (m : Message),
      m.messageId = none →
      P.task w = TxManagerReporter.requestMsg applicationName randomUUID m →
      IsReply (TxManagerReporter.prepare applicationName randomUUID m) (P.message h) →
      ∀ R : TimelyRun P w h, R.outcome = .returned (some (P.message h)) := by
  intro hall
  have hout := hall Unit Unit (exchangeOf createMessage createReply) () () (some "tc") "id"
    createMessage rfl rfl ⟨rfl, rfl, rfl⟩
    (runOf createMessage createReply 1 (.returned none) (by decide))
  exact absurd hout (by decide)

end TxLcn.Proof
