import TxLcn.Tc.Aspect
import TxLcn.Tm.Event

/-!
# Whether the creator commits only what the TM has committed

A TM that does not find the group says so in the `result` of its reply. The
creator looks at `success`, which is still what it has sent itself. And a
participant whose connection is gone is not told of a decision: `sendMsg` drops
what is for it, and the reply says "ok" all the same.
-/

namespace TxLcn.Proof

open TxLcn.Lib TxLcn.Protocol TxLcn.Tm

/-- What handling a notification puts on connections, and the store afterwards. -/
def notified (connections : String → Bool) (event : TransactionNotifyEvent) (uniqueKey : String)
    (store : String → Option TransactionGroup) : TmState where
  store := ((Event.notify event uniqueKey).business.eval store).2
  sent := sendMsg connections ((Event.notify event uniqueKey).business.eval store).1

/-- The store holds the group as committed, and every participant has been sent so. -/
def CommittedByTm (event : TransactionNotifyEvent) (tm : TmState) : Prop :=
  ∃ groupId group, event.groupId = some groupId ∧ tm.store groupId = some group
    ∧ group.state = .COMMIT
    ∧ ∀ info ∈ group.listTransaction,
      (info.uniqueKey, .commit (.new (some groupId) true)) ∈ tm.sent

/-- No reply makes a creator with that outcome commit, unless the TM has committed the group. -/
def CommitsOnlyCommitted (connections : String → Bool) (event : TransactionNotifyEvent)
    (uniqueKey : String) (successReturn : Bool)
    (store : String → Option TransactionGroup) : Prop :=
  ∀ res, (uniqueKey, .notify res) ∈ (notified connections event uniqueKey store).sent →
    Tc.TransactionStepNotify.needCommit (some res) successReturn = true →
    CommittedByTm event (notified connections event uniqueKey store)

/-- The group is stored, and everyone in it is connected. -/
def AllConnected (connections : String → Bool) (g : String)
    (store : String → Option TransactionGroup) : Prop :=
  ∃ group, store g = some group
    ∧ ∀ info ∈ group.listTransaction, connections info.uniqueKey = true

variable {connections : String → Bool} {event res : TransactionNotifyEvent} {k g : String}
  {b : Bool} {store : String → Option TransactionGroup} {G : TransactionGroup}

/-- It is the step of a TM that has sent nothing yet. -/
theorem step_notify : TmState.step connections { store } (.notify event k)
    = some (notified connections event k store) := rfl

/-- Without a group nothing is sent. -/
theorem notified_null (h : event.groupId = none) :
    notified connections event k store = { store } := by
  have hnone : (Event.notify event k).groupId = none := h
  simp only [notified, Event.eval_business_none hnone, sendMsg, List.filter_nil]

/-- A group that is not there is answered with an error, and stays away. -/
theorem notified_none (hg : event.groupId = some g) (hs : store g = none) :
    notified connections event k store
      = { store, sent := sendMsg connections [(k, .notify { event with result := some "error" })] }
    := by
  simp only [notified, Event.eval_notify_none hg hs]

/-- One that is there takes the outcome, and it is announced. -/
theorem notified_some (hg : event.groupId = some g) (hs : store g = some G) :
    notified connections event k store
      = { store := Function.update store g (some { G with state := .parser event.success })
          sent := sendMsg connections (announcements g G event.success
            ++ [(k, .notify { event with result := some "ok" })]) } := by
  simp only [notified, Event.eval_notify_some hg hs]

/-- The reply has the `success` of the request, found or not. -/
theorem reply_success (h : (k, .notify res) ∈ (notified connections event k store).sent) :
    res.success = event.success := by
  cases hg : event.groupId with
  | none =>
      rw [notified_null hg] at h
      cases h
  | some g =>
      cases hs : store g with
      | none =>
          rw [notified_none hg hs] at h
          have hone := (mem_sendMsg.mp h).1
          rw [List.mem_singleton] at hone
          cases hone
          rfl
      | some G =>
          rw [notified_some hg hs] at h
          have hone := (mem_sendMsg.mp h).1
          rw [List.mem_append, List.mem_singleton] at hone
          rcases hone with hone | hone
          · obtain ⟨info, _, heq⟩ := mem_announcements.mp hone
            cases heq
          · cases hone
            rfl

/-- A connected creator that names a group is answered. -/
theorem reply_sent (hg : event.groupId = some g) (hk : connections k = true) :
    ∃ res, (k, .notify res) ∈ (notified connections event k store).sent
      ∧ res.success = event.success := by
  cases hs : store g with
  | none =>
      rw [notified_none hg hs]
      exact ⟨_, mem_sendMsg.mpr ⟨List.mem_singleton_self _, hk⟩, rfl⟩
  | some G =>
      rw [notified_some hg hs]
      exact ⟨_, mem_sendMsg.mpr
        ⟨List.mem_append_right _ (List.mem_singleton_self _), hk⟩, rfl⟩

/-- A creator that is answered is connected. -/
theorem connected_of_reply
    (h : (k, .notify res) ∈ (notified connections event k store).sent) : connections k = true :=
  (mem_sendMsg.mp h).2

/-- A success is committed exactly where the group is stored with everyone connected. -/
theorem committedByTm_iff (hg : event.groupId = some g) (hsuccess : event.success = true) :
    CommittedByTm event (notified connections event k store)
      ↔ AllConnected connections g store := by
  constructor
  · intro ⟨g', G', hg', hG', _, hsent⟩
    rw [hg] at hg'
    cases hg'
    cases hs : store g with
    | none =>
        rw [notified_none hg hs] at hG'
        cases hs.symm.trans hG'
    | some G =>
        rw [notified_some hg hs] at hG' hsent
        have hupdate := hG'
        simp only [Function.update_self] at hupdate
        cases hupdate
        -- what has been sent has gone through `sendMsg`
        refine ⟨G, hs, fun info hmem => ?_⟩
        exact (mem_sendMsg.mp (hsent info hmem)).2
  · intro ⟨G, hs, hconnected⟩
    rw [notified_some hg hs, hsuccess]
    refine ⟨g, { G with state := .COMMIT }, hg, Function.update_self .., rfl, ?_⟩
    intro info hmem
    exact mem_sendMsg.mpr ⟨List.mem_append_left _ (mem_announcements.mpr ⟨info, hmem, rfl⟩),
      hconnected info hmem⟩

/--
**The creator commits only what the TM has committed exactly when** the group is
stored and everyone in it is connected, or no reply would make it commit anyway:
none reaches it, or the business has failed, by its own outcome or by the one it
has sent.
-/
theorem commits_only_committed_iff (connections : String → Bool) (event : TransactionNotifyEvent)
    (k : String) (b : Bool) (store : String → Option TransactionGroup) :
    CommitsOnlyCommitted connections event k b store
      ↔ ∀ g, event.groupId = some g → connections k = true → event.success = true → b = true →
        AllConnected connections g store := by
  constructor
  · intro h g hg hk hsuccess hb
    obtain ⟨res, hres, heq⟩ := reply_sent hg hk
    refine (committedByTm_iff hg hsuccess).mp (h res hres ?_)
    simp [Tc.TransactionStepNotify.needCommit, heq, hsuccess, hb]
  · intro h res hres hneed
    have hboth : event.success = true ∧ b = true := by
      rw [← reply_success hres]
      simpa [Tc.TransactionStepNotify.needCommit] using hneed
    cases hg : event.groupId with
    | none =>
        rw [notified_null hg] at hres
        cases hres
    | some g =>
        exact (committedByTm_iff hg hboth.1).mpr
          (h g hg (connected_of_reply hres) hboth.1 hboth.2)

/-- A store that has lost the group. -/
theorem not_commits_only_committed :
    ¬ ∀ (connections : String → Bool) (event : TransactionNotifyEvent) (k : String) (b : Bool)
      (store : String → Option TransactionGroup),
      CommitsOnlyCommitted connections event k b store := by
  intro h
  have hhere := h (fun _ => true) (.new (some "g") true) "tc" true fun _ => none
  have hreply : ("tc", .notify { groupId := some "g", success := true, result := some "error" })
      ∈ (notified (fun _ => true) (.new (some "g") true) "tc" fun _ => none).sent :=
    List.mem_singleton_self _
  obtain ⟨G, hG, _⟩ := (committedByTm_iff rfl rfl).mp (hhere _ hreply rfl)
  cases hG

end TxLcn.Proof
