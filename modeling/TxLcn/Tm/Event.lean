import TxLcn.Lib.Exec
import TxLcn.Tm.Repository
import TxLcn.Protocol.Message

/-!
# What a TM does with the messages of a group

The business of a `TransactionCreateEvent`, `TransactionJoinEvent` or
`TransactionNotifyEvent` is the callback its `handle` gives to the load
balancer: run the repository, set the `result`, hand messages to
`Protocoler.sendMsg`. Here it is a program over the store that returns the
messages in the order they are handed over.

A `TmState` handles such events one at a time. Its connection table is fixed;
`sendMsg` drops what is addressed to a key that is not in it.
-/

namespace TxLcn.Protocol

open TxLcn.Lib TxLcn.Tm

/-- Messages for `Protocoler.sendMsg`, each with the key it is for. -/
abbrev Outbox := List (String × Message)

/-- A null `groupId`: the template refuses the key, the exception leaves nothing behind. -/
def refuseNullKey : Prog String TransactionGroup Outbox := pure []

def TransactionCreateEvent.business (event : TransactionCreateEvent) (uniqueKey : String)
    (now : Nat) : Prog String TransactionGroup Outbox :=
  match event.groupId with
  | none => refuseNullKey
  | some groupId => do
      RedisTransactionGroupRepository.create groupId uniqueKey event.moduleName now
      pure [(uniqueKey, .create { event with result := some "ok" })]

def TransactionJoinEvent.business (event : TransactionJoinEvent) (uniqueKey : String)
    (now : Nat) : Prog String TransactionGroup Outbox :=
  match event.groupId with
  | none => refuseNullKey
  | some groupId => do
      RedisTransactionGroupRepository.join groupId uniqueKey event.moduleName now
      pure [(uniqueKey, .join { event with result := some "ok" })]

def TransactionNotifyEvent.business (event : TransactionNotifyEvent) (uniqueKey : String) :
    Prog String TransactionGroup Outbox :=
  match event.groupId with
  | none => refuseNullKey
  | some groupId => do
      match ← RedisTransactionGroupRepository.notify groupId event.success with
      | some transactionGroup =>
          -- the decision first, the answer to the creator last
          let transactionInfoList := transactionGroup.listTransaction
          let transactionCommitEvent :=
            TransactionCommitEvent.new (some groupId) transactionGroup.hasCommit
          pure (transactionInfoList.map
              (fun transactionInfo => (transactionInfo.uniqueKey, .commit transactionCommitEvent))
            ++ [(uniqueKey, .notify { event with result := some "ok" })])
      | none => pure [(uniqueKey, .notify { event with result := some "error" })]

end TxLcn.Protocol

namespace TxLcn.Tm

open TxLcn.Lib TxLcn.Protocol

/-- A message to be handled, the key of the connection it came in on, the time of day. -/
inductive Event where
  | create (event : TransactionCreateEvent) (uniqueKey : String) (now : Nat)
  | join (event : TransactionJoinEvent) (uniqueKey : String) (now : Nat)
  | notify (event : TransactionNotifyEvent) (uniqueKey : String)
  deriving Repr, DecidableEq

namespace Event

def business : Event → Prog String TransactionGroup Outbox
  | create event uniqueKey now => event.business uniqueKey now
  | join event uniqueKey now => event.business uniqueKey now
  | notify event uniqueKey => event.business uniqueKey

def groupId : Event → Option String
  | create event _ _ => event.groupId
  | join event _ _ => event.groupId
  | notify event _ => event.groupId

end Event

/-- `Protocoler.sendMsg`, message by message. -/
def sendMsg (connections : String → Bool) (out : Outbox) : Outbox :=
  out.filter fun msg => connections msg.1

/-- The store, and every message put on a connection so far. -/
structure TmState where
  store : String → Option TransactionGroup := fun _ => none
  sent : Outbox := []

namespace TmState

/-- Handle one event. -/
def step (connections : String → Bool) (tm : TmState) (ev : Event) : Option TmState :=
  let (out, store) := ev.business.eval tm.store
  some { store, sent := tm.sent ++ sendMsg connections out }

end TmState

/-! ## The effect of one event on one group -/

theorem mem_sendMsg {connections : String → Bool} {out : Outbox} {msg : String × Message} :
    msg ∈ sendMsg connections out ↔ msg ∈ out ∧ connections msg.1 = true := by
  rw [sendMsg, List.mem_filter]

/-- The decision `d` about `g`, one message for each participant of `G`. -/
def announcements (g : String) (G : TransactionGroup) (d : Bool) : Outbox :=
  G.listTransaction.map fun info => (info.uniqueKey, .commit (.new (some g) d))

theorem mem_announcements {g : String} {G : TransactionGroup} {d : Bool}
    {msg : String × Message} : msg ∈ announcements g G d ↔
      ∃ info ∈ G.listTransaction, msg = (info.uniqueKey, .commit (.new (some g) d)) := by
  simp [announcements, eq_comm]

/--
What one event means for the group `g`: the event, what becomes of the record
stored under `g`, and what is sent.
-/
inductive Handled (connections : String → Bool) (g : String) (s : TmState) :
    Event → TmState → Prop where
  /-- An event about another group, or about none. -/
  | elsewhere {ev : Event} {t : TmState} {out : Outbox} : ev.groupId ≠ some g →
      t.store g = s.store g → t.sent = s.sent ++ out → (∀ msg ∈ out, msg.2.groupId ≠ some g) →
      Handled connections g s ev t
  | created {event : TransactionCreateEvent} {k : String} {now : Nat} {t : TmState} :
      event.groupId = some g →
      t.store g = some (.new g k event.moduleName .REQUEST now) →
      t.sent = s.sent ++ sendMsg connections [(k, .create { event with result := some "ok" })] →
      Handled connections g s (.create event k now) t
  /-- A join that found no group. It is answered all the same. -/
  | joinedNothing {event : TransactionJoinEvent} {k : String} {now : Nat} {t : TmState} :
      event.groupId = some g → s.store g = none → t.store g = none →
      t.sent = s.sent ++ sendMsg connections [(k, .join { event with result := some "ok" })] →
      Handled connections g s (.join event k now) t
  | joined {event : TransactionJoinEvent} {k : String} {now : Nat} {t : TmState}
      {G : TransactionGroup} : event.groupId = some g → s.store g = some G →
      t.store g = some (G.add k event.moduleName .JOIN now) →
      t.sent = s.sent ++ sendMsg connections [(k, .join { event with result := some "ok" })] →
      Handled connections g s (.join event k now) t
  | notifiedNothing {event : TransactionNotifyEvent} {k : String} {t : TmState} :
      event.groupId = some g → s.store g = none → t.store g = none →
      t.sent = s.sent
        ++ sendMsg connections [(k, .notify { event with result := some "error" })] →
      Handled connections g s (.notify event k) t
  | notified {event : TransactionNotifyEvent} {k : String} {t : TmState} {G : TransactionGroup} :
      event.groupId = some g → s.store g = some G →
      t.store g = some { G with state := .parser event.success } →
      t.sent = s.sent ++ sendMsg connections (announcements g G event.success
        ++ [(k, .notify { event with result := some "ok" })]) →
      Handled connections g s (.notify event k) t

namespace Event

open Prog RedisTransactionGroupRepository

variable {s : String → Option TransactionGroup}

/-- An event without a group has no effect. -/
theorem eval_business_none {ev : Event} (h : ev.groupId = none) :
    ev.business.eval s = ([], s) := by
  cases ev <;> simp only [groupId] at h <;>
    simp [business, TransactionCreateEvent.business, TransactionJoinEvent.business,
      TransactionNotifyEvent.business, h, refuseNullKey]

theorem eval_create {event : TransactionCreateEvent} {k g : String} {now : Nat}
    (h : event.groupId = some g) : (create event k now).business.eval s
      = ([(k, .create { event with result := some "ok" })],
        Function.update s g (some (.new g k event.moduleName .REQUEST now))) := by
  simp only [business, TransactionCreateEvent.business, h, eval_bind,
    RedisTransactionGroupRepository.eval_create, eval_pure]

theorem eval_join_none {event : TransactionJoinEvent} {k g : String} {now : Nat}
    (h : event.groupId = some g) (hs : s g = none) : (join event k now).business.eval s
      = ([(k, .join { event with result := some "ok" })], s) := by
  simp only [business, TransactionJoinEvent.business, h, eval_bind, eval_pure,
    RedisTransactionGroupRepository.eval_join_none g k _ now s hs]

theorem eval_join_some {event : TransactionJoinEvent} {k g : String} {now : Nat}
    {G : TransactionGroup} (h : event.groupId = some g) (hs : s g = some G) :
    (join event k now).business.eval s
      = ([(k, .join { event with result := some "ok" })],
        Function.update s g (some (G.add k event.moduleName .JOIN now))) := by
  simp only [business, TransactionJoinEvent.business, h, eval_bind, eval_pure,
    RedisTransactionGroupRepository.eval_join_some g k _ now s hs]

theorem eval_notify_none {event : TransactionNotifyEvent} {k g : String}
    (h : event.groupId = some g) (hs : s g = none) : (notify event k).business.eval s
      = ([(k, .notify { event with result := some "error" })], s) := by
  simp only [business, TransactionNotifyEvent.business, h, eval_bind, eval_pure,
    RedisTransactionGroupRepository.eval_notify_none g _ s hs]

theorem eval_notify_some {event : TransactionNotifyEvent} {k g : String} {G : TransactionGroup}
    (h : event.groupId = some g) (hs : s g = some G) : (notify event k).business.eval s
      = (announcements g G event.success
          ++ [(k, .notify { event with result := some "ok" })],
        Function.update s g (some { G with state := .parser event.success })) := by
  simp only [business, TransactionNotifyEvent.business, h, eval_bind, eval_pure,
    RedisTransactionGroupRepository.eval_notify_some g _ s hs, announcements,
    TransactionGroup.hasCommit_setState, TransactionGroup.listTransaction_setState]

/-- An event is about one group only: no other record changes. -/
theorem eval_business_of_ne {ev : Event} {g : String} (h : ev.groupId ≠ some g) :
    (ev.business.eval s).2 g = s g := by
  cases hg : ev.groupId with
  | none => rw [eval_business_none hg]
  | some g' =>
      have hne : g ≠ g' := fun he => h (by rw [hg, he])
      -- whatever is written is written under `g'`
      cases ev with
      | create event k now => rw [eval_create hg]; exact Function.update_of_ne hne ..
      | join event k now =>
          cases hs : s g' with
          | none => rw [eval_join_none hg hs]
          | some G => rw [eval_join_some hg hs]; exact Function.update_of_ne hne ..
      | notify event k =>
          cases hs : s g' with
          | none => rw [eval_notify_none hg hs]
          | some G => rw [eval_notify_some hg hs]; exact Function.update_of_ne hne ..

/-- And every message that follows from it is about that group. -/
theorem groupId_of_mem_business {ev : Event} {msg : String × Message}
    (h : msg ∈ (ev.business.eval s).1) : msg.2.groupId = ev.groupId := by
  cases hg : ev.groupId with
  | none => rw [eval_business_none hg] at h; exact absurd h (List.not_mem_nil)
  | some g =>
      cases ev with
      | create event k now =>
          rw [eval_create hg, List.mem_singleton] at h
          rw [h]; exact hg
      | join event k now =>
          cases hs : s g with
          | none => rw [eval_join_none hg hs, List.mem_singleton] at h; rw [h]; exact hg
          | some G => rw [eval_join_some hg hs, List.mem_singleton] at h; rw [h]; exact hg
      | notify event k =>
          cases hs : s g with
          | none => rw [eval_notify_none hg hs, List.mem_singleton] at h; rw [h]; exact hg
          | some G =>
              rw [eval_notify_some hg hs, List.mem_append, List.mem_singleton] at h
              rcases h with h | h
              · obtain ⟨info, _, rfl⟩ := mem_announcements.mp h
                rfl
              · rw [h]; exact hg

end Event

variable {connections : String → Bool} {s t : TmState} {ev : Event}

theorem step_eq : TmState.step connections s ev = some
    { store := (ev.business.eval s.store).2
      sent := s.sent ++ sendMsg connections (ev.business.eval s.store).1 } := rfl

/-- **One event, seen from one group.** -/
theorem step_handled (h : TmState.step connections s ev = some t) (g : String) :
    Handled connections g s ev t := by
  rw [step_eq] at h
  cases h
  by_cases hg : ev.groupId = some g
  · cases ev with
    | create event k now =>
        rw [Event.eval_create hg]
        exact .created hg (Function.update_self ..) rfl
    | join event k now =>
        cases hs : s.store g with
        | none =>
            rw [Event.eval_join_none hg hs]
            exact .joinedNothing hg hs hs rfl
        | some G =>
            rw [Event.eval_join_some hg hs]
            exact .joined hg hs (Function.update_self ..) rfl
    | notify event k =>
        cases hs : s.store g with
        | none =>
            rw [Event.eval_notify_none hg hs]
            exact .notifiedNothing hg hs hs rfl
        | some G =>
            rw [Event.eval_notify_some hg hs]
            exact .notified hg hs (Function.update_self ..) rfl
  · refine .elsewhere hg (Event.eval_business_of_ne hg) rfl ?_
    intro msg hmsg
    rw [Event.groupId_of_mem_business (mem_sendMsg.mp hmsg).1]
    exact hg

end TxLcn.Tm
