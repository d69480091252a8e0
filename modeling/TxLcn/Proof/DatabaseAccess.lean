import TxLcn.Tc.Access

/-!
# When database access does not fail for what is null

A worker's `TransactionInfo` goes through three standings. A request that brings
a group along makes one without a type; an annotated method gives it a type, or
makes one that has a type; and an end step that returns takes it away, also from
methods that go on.

While it has no type, no connection can be taken, and while there is none, no
proxy can be used. If an end step throws, the next connection is a proxy even
though no annotated method is there any more.
-/

namespace TxLcn.Proof

open TxLcn.Lib TxLcn.Tc TransactionJdbcEventListener JdbcEventConfiguration Worker
open TransactionAspectContext (finish note)

/-! ## What is asked for, and when it is met -/

/--
A connection is not refused for want of a type, and outside of all annotated
methods it is no proxy; a call on a proxy does not fail for want of a
`TransactionInfo`.
-/
def Fine : Access → Prop
  | .asked annotated handed => handed ≠ .error .noTransactionType
      ∧ (annotated = false → ∀ connection, handed ≠ .ok (.proxy connection))
  | .called fault => fault ≠ some .noTransactionInfo

def Unbroken (s : Worker) : Prop := ∀ access ∈ s.accesses, Fine access

/-- The data source has a connection for a proxy, besides one for the log if that is needed. -/
def Supplies (source : Source) : Prop :=
  source.noConnection = some false ∨ source.noConnection = some true ∧ source.another ≠ none

/--
If the data source answers, a connection is not taken between a request that
brings a group along and the next annotated method, nor outside of all annotated
methods while one has left its `TransactionInfo` behind. No proxy is used once an
end step has returned, until a request brings a group along or an annotated method
is called.
-/
def WellTimed (s : Worker) : Event → Prop
  | .getConnection source => source.connection ≠ none → s.standing ≠ .joined
      ∧ (s.standing = .typed → s.annotated = false → ¬ Supplies source)
  | .proxy _ _ => s.standing ≠ .cleared
  | _ => True

/-! ## The type -/

/-- The type of the `TransactionInfo`, if there is one. -/
def currentType (t : TcThread) : Option (Option String) :=
  t.currentInfo.map TransactionInfo.transactionType

/-- What there is of it. -/
def typeOf : Standing → Option (Option String)
  | .cleared => none
  | .joined => some none
  | .typed => some (some TransactionConstant.LCN)

/-- The standing tells the type. -/
def Stands (s : Worker) : Prop := currentType s.thread = typeOf s.standing

variable {t u : TcThread} {w : World} {i : Nat} {how : Exit} {s s' : Worker} {ms : List Mark}
  {f : TransactionInfo → TransactionInfo} {transactionInfo : Option TransactionInfo}

theorem currentType_marked : currentType (t.marked ms) = currentType t := rfl

theorem currentType_update
    (hf : (f (t.infos i)).transactionType = (t.infos i).transactionType) :
    currentType (t.update i f) = currentType t := by
  unfold currentType TcThread.currentInfo
  rw [TcThread.update_current]
  cases t.current with
  | none => rfl
  | some j =>
      by_cases hj : j = i
      · subst hj
        simp [hf]
      · simp [TcThread.update_infos_of_ne hj]

/-- What the thread refers to. -/
theorem Stands.currentInfo (h : Stands s) :
    (s.standing = .cleared ∧ s.thread.currentInfo = none)
    ∨ (s.standing = .joined
        ∧ ∃ info, s.thread.currentInfo = some info ∧ info.transactionType = none)
    ∨ (s.standing = .typed ∧ ∃ info, s.thread.currentInfo = some info
        ∧ info.transactionType = some TransactionConstant.LCN) := by
  unfold Stands currentType at h
  cases hs : s.standing <;> rw [hs] at h
  · exact Or.inl ⟨rfl, Option.map_eq_none_iff.mp h⟩
  · exact Or.inr (Or.inl ⟨rfl, Option.map_eq_some_iff.mp h⟩)
  · exact Or.inr (Or.inr ⟨rfl, Option.map_eq_some_iff.mp h⟩)

theorem Stands.cleared_iff (h : Stands s) :
    s.thread.currentInfo = none ↔ s.standing = .cleared := by
  rcases h.currentInfo with ⟨hs, hinfo⟩ | ⟨hs, info, hinfo, _⟩ | ⟨hs, info, hinfo, _⟩ <;>
    simp [hs, hinfo]

theorem currentType_note : currentType (note i how t) = currentType t := by
  cases how with
  | returned => exact currentType_update rfl
  | exception thrown => exact currentType_update rfl
  | error => rfl

theorem currentType_tryBeginTransaction :
    currentType (TransactionContext.tryBeginTransaction w i t).1 = currentType t := by
  obtain ⟨ms, _, hms⟩ := TransactionContext.tryBeginTransaction_marked w i t
  rw [hms, currentType_marked]

theorem currentType_tryEndTransaction :
    currentType (TransactionContext.tryEndTransaction w i t).1 = currentType t := by
  obtain ⟨ms, _, hms⟩ := TransactionContext.tryEndTransaction_marked w i t
  rw [hms, currentType_marked]
  split
  · exact currentType_update rfl
  · rfl

theorem currentType_clearTransaction : currentType t.clearTransaction = none := rfl

theorem currentInfo_eq_none : t.currentInfo = none ↔ t.current = none := by
  simp [TcThread.currentInfo]

/-- A request brings a group along if its header is there and not empty. -/
theorem currentType_invoke {groupId : Option String} :
    currentType (RpcTransactionContext.invoke groupId t)
      = if t.current = none ∧ groupId ≠ none ∧ groupId ≠ some "" then some none
        else currentType t := by
  unfold RpcTransactionContext.invoke
  cases hc : t.current with
  | some i => cases groupId <;> simp
  | none =>
      cases groupId with
      | none => simp
      | some g =>
          by_cases hg : g = ""
          · simp [hg]
          · simp [hg, currentType, TcThread.currentInfo, TransactionInfo.ofGroup]

/-- However it has been before, an annotated method has a type. -/
theorem currentType_enter (w : World) (t : TcThread) :
    currentType (TransactionAspectContext.enter w t).2 = some (some TransactionConstant.LCN) := by
  unfold TransactionAspectContext.enter currentType TcThread.currentInfo
  split
  · rename_i i hi
    simp [TcThread.setTransactionType, hi]
  · simp [TcThread.setTransactionType]

/-- Only an end step that returns takes the `TransactionInfo` away. -/
theorem currentType_finish (w : World) (i : Nat) (how : Exit) (t : TcThread) :
    currentType (finish w i how t).1
    = if (TransactionContext.tryEndTransaction w i t).2 = some .returned then none
      else currentType t := by
  have hend := currentType_tryEndTransaction (w := w) (i := i) (t := t)
  unfold finish
  split <;> rename_i heq <;> rw [heq] at hend ⊢
  · simpa using hend
  · simp [currentType_marked, currentType_clearTransaction]
  · rename_i thrown hne
    have hthrown : some thrown ≠ some Exit.returned := fun h => hne (Option.some.inj h)
    rw [if_neg hthrown, currentType_marked, hend]

/-! ## The events that are no database access -/

theorem rpc_moves {groupId : Option String} (h : Stands s) : Stands (s.rpc groupId) := by
  have hnone : s.thread.current = none ↔ s.standing = .cleared :=
    currentInfo_eq_none.symm.trans h.cleared_iff
  unfold Stands at h ⊢
  unfold rpc
  dsimp only
  rw [currentType_invoke, h]
  by_cases hjoins : s.standing = .cleared ∧ groupId ≠ none ∧ groupId ≠ some ""
  · rw [if_pos ⟨hnone.mpr hjoins.1, hjoins.2⟩, if_pos hjoins]
    rfl
  · rw [if_neg fun h => hjoins ⟨hnone.mp h.1, h.2⟩, if_neg hjoins]

theorem leave_moves (hl : s.leave w i how t = some s') (h : currentType t = typeOf s.standing) :
    Stands s' ∧ s'.accesses = s.accesses := by
  unfold leave at hl
  have hfinish := currentType_finish w i how (note i how t)
  dsimp only at hl
  split at hl <;> rename_i heq
  · cases hl
  · cases hl
    rw [heq] at hfinish
    refine ⟨?_, rfl⟩
    unfold Stands
    dsimp only
    rw [hfinish, currentType_note, h]
    split <;> rfl

theorem enter_moves (h : s.enter w = some s') : Stands s' ∧ s'.accesses = s.accesses := by
  unfold enter at h
  have hbegin : ∀ i t, currentType t = some (some TransactionConstant.LCN) →
      currentType (TransactionContext.tryBeginTransaction w i t).1
        = typeOf .typed := fun i t ht => currentType_tryBeginTransaction.trans ht
  have htype := hbegin (TransactionAspectContext.enter w s.thread).1 _
    (currentType_enter w s.thread)
  dsimp only at h
  split at h <;> rename_i heq <;> rw [heq] at htype
  · cases h
    exact ⟨htype, rfl⟩
  · obtain ⟨hstands, haccesses⟩ := leave_moves h htype
    exact ⟨hstands, haccesses⟩

/-! ## A connection is taken -/

theorem getConnection_snd {source : Source} : (t.getConnection source).2
    = TxDataSourceInterceptor.invokeOn source t.currentInfo := by
  unfold TcThread.getConnection
  split <;> rename_i heq
  · exact heq.symm
  · rfl

theorem currentType_getConnection {source : Source} :
    currentType (t.getConnection source).1 = currentType t := by
  unfold TcThread.getConnection
  split <;> rfl

/-- In a transaction with a type the connection is a proxy, if there is one for it. -/
theorem invokeOn_typed {source : Source} {connection : Nat} {info : TransactionInfo}
    (hconnection : source.connection = some connection)
    (htype : info.transactionType = some TransactionConstant.LCN) :
    TxDataSourceInterceptor.invokeOn source (some info) ≠ .error .noTransactionType
      ∧ ((∀ c, TxDataSourceInterceptor.invokeOn source (some info) ≠ .ok (.proxy c))
        ↔ ¬ Supplies source) := by
  have hproxy : info.hasSqlProxy = .ok true := by simp [TransactionInfo.hasSqlProxy, htype]
  simp only [TxDataSourceInterceptor.invokeOn, hconnection, hproxy, Supplies]
  cases source.noConnection with
  | none => simp
  | some needed =>
      cases needed with
      | false => simp
      | true => cases source.another <;> simp

theorem asked_fine_iff {source : Source} (h : Stands s) :
    Fine (.asked s.annotated (s.thread.getConnection source).2)
      ↔ WellTimed s (.getConnection source) := by
  rw [getConnection_snd]
  unfold Fine WellTimed
  cases hconnection : source.connection with
  | none => simp [TxDataSourceInterceptor.invokeOn, hconnection]
  | some connection =>
      rcases h.currentInfo with ⟨hs, hnone⟩ | ⟨hs, info, hinfo, htype⟩ | ⟨hs, info, hinfo, htype⟩
      · simp [TxDataSourceInterceptor.invokeOn, hconnection, hs, hnone]
      · simp [TxDataSourceInterceptor.invokeOn, hconnection, hs, hinfo,
          TransactionInfo.hasSqlProxy, htype]
      · obtain ⟨hne, hiff⟩ := invokeOn_typed hconnection htype
        rw [hinfo]
        dsimp only
        rw [hiff]
        simp [hne, hs, hconnection]

/-! ## A proxy is called -/

theorem mapError_other_ne {β : Type} {result : Except (Option TxException) β} :
    result.mapError Fault.other ≠ .error .noTransactionInfo := by
  cases result <;> simp [Except.mapError]

/-- With a `TransactionInfo`, all that the search for an event can fail for is its type. -/
theorem getTransactionJdbcEvent_fault {info : TransactionInfo} {state : TransactionJdbcState}
    {events : List TransactionJdbcEvent} {fault : Fault}
    (h : getTransactionJdbcEvent (some info) state events = .error fault) :
    fault = .noTransactionType := by
  induction events with
  | nil => cases h
  | cons event events ih =>
      simp only [getTransactionJdbcEvent] at h
      split at h
      · cases h
        rfl
      · split at h
        · cases h
        · exact ih h

theorem callEvent_fault_iff {β : Type} {state : TransactionJdbcState}
    {execute : TransactionInfo → Except (Option TxException) β} :
    callEvent transactionInfo state execute = .error .noTransactionInfo
      ↔ transactionInfo = none := by
  cases transactionInfo with
  | none => exact iff_of_true rfl rfl
  | some info =>
      refine iff_of_false ?_ (by simp)
      unfold callEvent
      split
      · rename_i fault _ heq
        simp [getTransactionJdbcEvent_fault heq]
      · exact mapError_other_ne
      · simp

theorem after_fault_iff (jdbcTransaction : Option JdbcTransaction)
    (analyse : Option JdbcTransaction → Except (Option TxException) (Option JdbcTransaction)) :
    after transactionInfo jdbcTransaction analyse = .error .noTransactionInfo
      ↔ transactionInfo = none := by
  cases transactionInfo with
  | none => exact iff_of_true rfl rfl
  | some info =>
      refine iff_of_false ?_ (by simp)
      unfold after
      split
      · rename_i fault heq
        simp [getTransactionJdbcEvent_fault heq]
      · simp
      · exact mapError_other_ne

theorem execute_fault_iff {sql : String} {throws : Bool}
    {analyse : Option JdbcTransaction → Except (Option TxException) (Option JdbcTransaction)} :
    (t.execute sql throws analyse).2 = some .noTransactionInfo ↔ t.currentInfo = none := by
  rw [← after_fault_iff t.jdbcTransaction analyse]
  unfold TcThread.execute
  dsimp only
  split <;> rename_i heq
  · rw [heq]
    simp
  · -- the listener did not throw after it, so neither before it
    have hsome : t.currentInfo ≠ none := fun hnone => by
      rw [hnone] at heq
      cases heq
    obtain ⟨info, hinfo⟩ := Option.ne_none_iff_exists'.mp hsome
    rw [heq, hinfo]
    unfold onBeforeAnyExecute
    cases hget : getTransactionJdbcEvent (some info) .EXECUTE transactionJdbcEvents with
    | error fault => simp [Except.map, getTransactionJdbcEvent_fault hget]
    | ok event => cases throws <;> simp [Except.map]

theorem keep_fault {context : Except Fault JdbcContext} {fault : Fault} :
    (t.keep context).2 = some fault ↔ context = .error fault := by
  cases context <;> simp [TcThread.keep]

theorem run_fault_iff {call : ProxyCall} :
    (call.run t).2 = some .noTransactionInfo ↔ t.currentInfo = none := by
  cases call with
  | execute sql throws analyse => exact execute_fault_iff
  | commit saved => exact keep_fault.trans callEvent_fault_iff
  | rollback => exact keep_fault.trans callEvent_fault_iff

theorem currentType_keep {context : Except Fault JdbcContext} :
    currentType (t.keep context).1 = currentType t := by
  cases context <;> rfl

theorem currentType_run {call : ProxyCall} : currentType (call.run t).1 = currentType t := by
  cases call with
  | execute sql throws analyse =>
      unfold ProxyCall.run TcThread.execute
      dsimp only
      split <;> rfl
  | commit saved => exact currentType_keep
  | rollback => exact currentType_keep

theorem called_fine_iff {connection : Nat} {call : ProxyCall} (h : Stands s) :
    Fine (.called (call.run s.thread).2) ↔ WellTimed s (.proxy connection call) :=
  not_congr (run_fault_iff.trans h.cleared_iff)

/-! ## One event -/

/--
**One event.** The standing stays true, and a database access comes to what it
should if and only if it is timely.
-/
theorem step_stands {e : Event} (hs : Stands s) (h : s.step e = some s') :
    Stands s' ∧ (s'.accesses = s.accesses ∧ WellTimed s e
      ∨ ∃ access, s'.accesses = s.accesses ++ [access] ∧ (Fine access ↔ WellTimed s e)) := by
  cases e with
  | rpc groupId =>
      cases h
      exact ⟨rpc_moves hs, Or.inl ⟨rfl, trivial⟩⟩
  | call annotated w =>
      cases annotated with
      | false =>
          cases h
          exact ⟨hs, Or.inl ⟨rfl, trivial⟩⟩
      | true =>
          obtain ⟨hstands, haccesses⟩ := enter_moves h
          exact ⟨hstands, Or.inl ⟨haccesses, trivial⟩⟩
  | ends how =>
      simp only [step] at h
      split at h
      · cases h
      · cases h
        exact ⟨hs, Or.inl ⟨rfl, trivial⟩⟩
      · obtain ⟨hstands, haccesses⟩ := leave_moves h hs
        exact ⟨hstands, Or.inl ⟨haccesses, trivial⟩⟩
  | code =>
      cases h
      exact ⟨hs, Or.inl ⟨rfl, trivial⟩⟩
  | outbound how =>
      cases h
      refine ⟨?_, Or.inl ⟨rfl, trivial⟩⟩
      unfold Stands
      dsimp only
      rw [TcThread.outbound_eq, currentType_marked, hs]
  | elsewhere context =>
      cases h
      exact ⟨hs, Or.inl ⟨rfl, trivial⟩⟩
  | getConnection source =>
      cases h
      refine ⟨?_, Or.inr ⟨_, rfl, asked_fine_iff hs⟩⟩
      exact currentType_getConnection.trans hs
  | proxy connection call =>
      simp only [step] at h
      split at h
      · cases h
        refine ⟨?_, Or.inr ⟨_, rfl, called_fine_iff hs⟩⟩
        exact currentType_run.trans hs
      · cases h

/-! ## The code of a thread is run by a worker -/

/-- After some events the worker `s` is `s'`, which has that thread and the same methods. -/
structure Leads (s : Worker) (t : TcThread) (s' : Worker) : Prop where
  reached : ∃ events, exec step s events = some s'
  thread : s'.thread = t
  methods : s'.methods = s.methods
  proxies : ∀ c ∈ s.proxies, c ∈ s'.proxies
  stands : Stands s'

variable {v : Worker} {c : Nat}

theorem Leads.refl (h : Stands s) : Leads s s.thread s :=
  ⟨⟨[], rfl⟩, rfl, rfl, fun _ h => h, h⟩

theorem Leads.trans (h : Leads s t s') (h' : Leads s' u v) : Leads s u v := by
  obtain ⟨events, hevents⟩ := h.reached
  obtain ⟨events', hevents'⟩ := h'.reached
  refine ⟨⟨events ++ events', ?_⟩, h'.thread, h'.methods.trans h.methods,
    fun c hc => h'.proxies c (h.proxies c hc), h'.stands⟩
  exact exec_append_some.mpr ⟨s', hevents, hevents'⟩

theorem Leads.of_step {e : Event} (hs : Stands s) (h : s.step e = some s')
    (hthread : s'.thread = t) (hmethods : s'.methods = s.methods)
    (hproxies : ∀ c ∈ s.proxies, c ∈ s'.proxies) : Leads s t s' :=
  ⟨⟨[e], by rw [exec_singleton, h]⟩, hthread, hmethods, hproxies, (step_stands hs h).1⟩

/-- What is done between a call and its end. -/
theorem Leads.within {e e' : Event} {s₁ : Worker} (hcall : s.step e = some s₁)
    (h : Leads s₁ t v) (hends : v.step e' = some s') (hthread : s'.thread = u)
    (hmethods : s'.methods = s.methods) (hproxies : s₁.proxies = s.proxies)
    (hproxies' : s'.proxies = v.proxies) : Leads s u s' := by
  obtain ⟨events, hevents⟩ := h.reached
  refine ⟨⟨e :: events ++ [e'], ?_⟩, hthread, hmethods, ?_, (step_stands h.stands hends).1⟩
  · refine exec_append_some.mpr ⟨v, ?_, (exec_singleton v e').trans hends⟩
    exact exec_cons_some.mpr ⟨s₁, hcall, hevents⟩
  · intro c hc
    rw [hproxies']
    exact h.proxies c (hproxies ▸ hc)

/-- A connection of a data source that has one for the log is taken as in `JdbcOp.run`. -/
theorem getConnection_fst (hs : Stands s) : (s.thread.getConnection ⟨some c, some false, none⟩).1
    = ((JdbcOp.getConnection c).run s.thread).1 := by
  unfold TcThread.getConnection JdbcOp.run JdbcOp.apply TxDataSourceInterceptor.invoke
    TxDataSourceInterceptor.invokeOn
  rcases hs.currentInfo with ⟨_, hnone⟩ | ⟨_, info, hinfo, htype⟩ | ⟨_, info, hinfo, htype⟩
  · simp [hnone]
  · simp [hinfo, TransactionInfo.hasSqlProxy, htype]
  · simp [hinfo, TransactionInfo.hasSqlProxy, htype]

/-- What a call on a proxy leaves does not depend on what it fails for. -/
theorem keep_fst {op : JdbcOp} {context : Except Fault JdbcContext}
    (h : op.apply t = (context.mapError Fault.thrown).map fun context => { t with context }) :
    (t.keep context).1 = (op.run t).1 := by
  unfold JdbcOp.run
  rw [h]
  cases context <;> rfl

theorem commit_fst {saved : Bool} :
    ((ProxyCall.commit saved).run t).1 = ((JdbcOp.commit saved).run t).1 :=
  keep_fst (by rw [commit_thrown]; rfl)

theorem rollback_fst : (ProxyCall.rollback.run t).1 = (JdbcOp.rollback.run t).1 :=
  keep_fst (by rw [rollback_thrown]; rfl)

theorem leads_jdbc (hs : Stands s) (hc : c ∈ s.proxies) (op : JdbcOp) :
    ∃ s', Leads s (op.run s.thread).1 s' := by
  cases op with
  | getConnection connection =>
      refine ⟨_, Leads.of_step (e := .getConnection ⟨some connection, some false, none⟩) hs rfl
        (getConnection_fst hs) rfl ?_⟩
      intro c hc
      dsimp only
      split
      · exact List.mem_append_left _ hc
      · exact hc
  | commit saved =>
      have hstep : s.step (.proxy c (.commit saved)) = some _ := if_pos hc
      exact ⟨_, Leads.of_step hs hstep commit_fst rfl fun _ h => h⟩
  | rollback =>
      have hstep : s.step (.proxy c .rollback) = some _ := if_pos hc
      exact ⟨_, Leads.of_step hs hstep rollback_fst rfl fun _ h => h⟩

/-- An annotated method ends as the aspect has it. -/
theorem leave_of_finish {e : Exit} (h : finish w i how (note i how t) = (u, some e)) :
    ∃ standing, s.leave w i how t = some { s with thread := u, standing } := by
  unfold leave
  dsimp only
  rw [h]
  exact ⟨_, rfl⟩

section Annotated

/-! An annotated method whose transaction has begun, or could not begin. -/

variable {proceed : TcThread → TcThread × Option Exit} {thread : TcThread} {thrown e : Exit}

/-- How the transaction of an annotated method begins. -/
def begins (w : World) (t : TcThread) : TcThread × Exit :=
  TransactionContext.tryBeginTransaction w (TransactionAspectContext.enter w t).1
    (TransactionAspectContext.enter w t).2

theorem enter_returned (h : begins w s.thread = (thread, .returned)) :
    s.step (.call true w) = some { s with
      standing := .typed
      thread
      methods := some ((TransactionAspectContext.enter w s.thread).1, w) :: s.methods } := by
  unfold begins at h
  simp only [step, enter, h]

theorem enter_thrown (h : begins w s.thread = (t, thrown)) (hne : thrown ≠ .returned) :
    s.step (.call true w) = { s with standing := .typed }.leave w
      (TransactionAspectContext.enter w s.thread).1 thrown t := by
  unfold begins at h
  simp only [step, enter, h]

theorem runWithTransaction_returned (h : begins w t = (thread, .returned))
    (hrun : TransactionAspectContext.runWithTransaction true w proceed t = (u, some e)) :
    ∃ v how, proceed thread = (v, some how)
      ∧ finish w (TransactionAspectContext.enter w t).1 how
          (note (TransactionAspectContext.enter w t).1 how v) = (u, some e) := by
  unfold begins at h
  simp only [TransactionAspectContext.runWithTransaction, if_true,
    TransactionAspectContext.attempt, h] at hrun
  cases hbody : proceed thread with
  | mk v ended =>
      rw [hbody] at hrun
      cases ended with
      | none => cases hrun
      | some how => exact ⟨v, how, rfl, hrun⟩

theorem runWithTransaction_thrown (h : begins w t = (thread, thrown)) (hne : thrown ≠ .returned)
    (hrun : TransactionAspectContext.runWithTransaction true w proceed t = (u, some e)) :
    finish w (TransactionAspectContext.enter w t).1 thrown
      (note (TransactionAspectContext.enter w t).1 thrown thread) = (u, some e) := by
  unfold begins at h
  simp only [TransactionAspectContext.runWithTransaction, if_true,
    TransactionAspectContext.attempt, h] at hrun
  exact hrun

end Annotated

theorem leads_runWithTransaction {annotated : Bool}
    {proceed : TcThread → TcThread × Option Exit} {e : Exit} (hs : Stands s) (hc : c ∈ s.proxies)
    (hproceed : ∀ {s t e}, Stands s → c ∈ s.proxies → proceed s.thread = (t, some e) →
      ∃ s', Leads s t s')
    (h : TransactionAspectContext.runWithTransaction annotated w proceed s.thread = (u, some e)) :
    ∃ s', Leads s u s' := by
  cases annotated with
  | false =>
      -- the method is put onto the others, and taken away again
      have hcall : s.step (.call false w) = some { s with methods := none :: s.methods } := rfl
      obtain ⟨v, hv⟩ := hproceed (s := { s with methods := none :: s.methods }) hs hc h
      have hends : v.step (.ends e) = some { v with methods := s.methods } := by
        simp only [step, hv.methods]
      exact ⟨_, hv.within hcall hends hv.thread rfl rfl rfl⟩
  | true =>
      cases hbegin : begins w s.thread with
      | mk thread begun =>
        by_cases hreturned : begun = .returned
        · subst hreturned
          have hcall := enter_returned hbegin
          obtain ⟨t, how, hbody, hfinish⟩ := runWithTransaction_returned hbegin h
          obtain ⟨v, hv⟩ := hproceed (step_stands hs hcall).1 hc hbody
          obtain ⟨standing, hleave⟩ :=
            leave_of_finish (s := { v with methods := s.methods }) hfinish
          have hends : v.step (.ends how)
              = some { v with thread := u, methods := s.methods, standing } := by
            simp only [step, hv.methods, hv.thread]
            exact hleave
          exact ⟨_, hv.within hcall hends rfl rfl rfl rfl⟩
        · -- the code of the method is not run
          have hfinish := runWithTransaction_thrown hbegin hreturned h
          obtain ⟨standing, hleave⟩ := leave_of_finish (s := { s with standing := .typed }) hfinish
          exact ⟨_, Leads.of_step hs ((enter_thrown hbegin hreturned).trans hleave) rfl rfl
            fun _ h => h⟩

/--
**Every run of the code of a thread is one of a worker**, if that has been handed
out a proxy before.
-/
theorem leads_business (b : Business) {e : Exit} (hs : Stands s) (hc : c ∈ s.proxies)
    (h : b.run s.thread = (t, some e)) : ∃ s', Leads s t s' := by
  induction b generalizing s t e with
  | ends how =>
      cases h
      exact ⟨s, Leads.refl hs⟩
  | code next ih =>
      have hcode : Leads s (s.thread.marked [.code]) _ :=
        Leads.of_step (e := .code) hs rfl rfl rfl fun _ h => h
      obtain ⟨s', hs'⟩ := ih hcode.stands hc h
      exact ⟨s', hcode.trans hs'⟩
  | jdbc op next ih =>
      have hcode : Leads s (s.thread.marked [.code]) _ :=
        Leads.of_step (e := .code) hs rfl rfl rfl fun _ h => h
      obtain ⟨v, hv⟩ := leads_jdbc hcode.stands hc op
      rw [Business.run_jdbc] at h
      obtain ⟨s', hs'⟩ := ih _ hv.stands (hv.proxies c hc) (by rw [hv.thread]; exact h)
      exact ⟨s', hcode.trans (hv.trans hs')⟩
  | outbound how next ih =>
      have hcall : Leads s (s.thread.outbound how).1 _ :=
        Leads.of_step (e := .outbound how) hs rfl rfl rfl fun _ h => h
      rw [Business.run_outbound] at h
      obtain ⟨s', hs'⟩ := ih _ hcall.stands hc h
      exact ⟨s', hcall.trans hs'⟩
  | call annotated w body next ihb ihn =>
      cases hrun : TransactionAspectContext.runWithTransaction annotated w body.run s.thread with
      | mk u ended =>
          cases ended with
          | none =>
              rw [Business.run_call_waiting hrun] at h
              cases h
          | some how =>
              rw [Business.run_call hrun] at h
              obtain ⟨v, hv⟩ := leads_runWithTransaction hs hc ihb hrun
              obtain ⟨s', hs'⟩ := ihn how hv.stands (hv.proxies c hc) (by rw [hv.thread]; exact h)
              exact ⟨s', hv.trans hs'⟩

/-! ## Runs -/

/-- What holds as long as every access has been timely. -/
structure Holds (s : Worker) : Prop where
  stands : Stands s
  unbroken : Unbroken s

theorem unbroken_append {access : Access} (h : s'.accesses = s.accesses ++ [access]) :
    Unbroken s' ↔ Unbroken s ∧ Fine access := by
  unfold Unbroken
  rw [h]
  simp [or_imp, forall_and]

end TxLcn.Proof
