import TxLcn.Tm.Event

/-!
# Several TMs on one store

A TM knows its connections by `uniqueKey`, the remote host and port. The same TC
has another key in the table of every TM it is connected to, since each of its
connections has a port of its own; and a connection may also lead to another TM,
which forwards requests over it. The store knows nothing of tables: a group
record holds whatever key the TM that handled the join saw.

A request is handled on one TM, over one of its connections: that of the TC the
request is from, or that of a TM that forwards it.
-/

namespace TxLcn.Tm

open TxLcn.Lib TxLcn.Protocol

/-- Who is at the other end of a connection of a TM. -/
inductive Peer (Tm Tc : Type) where
  | tc (client : Tc)
  | tm (node : Tm)
  deriving Repr, DecidableEq

/-- The connection tables of all TMs. -/
structure Deployment (Tm Tc : Type) where
  table : Tm → String → Option (Peer Tm Tc)
  /-- Every TC is connected to every TM. -/
  connected : ∀ m c, ∃ k, table m k = some (.tc c)

/-- The business of one message of `origin`, executed on `tm`. -/
structure Request (Tm Tc : Type) where
  tm : Tm
  origin : Tc
  event : Event

/-- The key of the connection the message came in on. -/
def Event.uniqueKey : Event → String
  | create _ uniqueKey _ => uniqueKey
  | join _ uniqueKey _ => uniqueKey
  | notify _ uniqueKey => uniqueKey

/--
The TMs: the one store, what each has put on its connections, and (for the
record only) from which TC each join stored in a group came.
-/
structure Cluster (Tm Tc : Type) where
  store : String → Option TransactionGroup := fun _ => none
  sent : Tm → Outbox := fun _ => []
  origins : String → List Tc := fun _ => []

namespace Cluster

variable {Tm Tc : Type}

/-- One TM of the cluster. -/
def node (s : Cluster Tm Tc) (m : Tm) : TmState := { store := s.store, sent := s.sent m }

/-- The origins after an event from `c`: a create forgets them, a join that finds the group adds. -/
def noteOrigin (s : Cluster Tm Tc) (c : Tc) : Event → String → List Tc
  | .create event _ _, g => if event.groupId = some g then [] else s.origins g
  | .join event _ _, g =>
      if event.groupId = some g ∧ (s.store g).isSome then s.origins g ++ [c] else s.origins g
  | .notify _ _, g => s.origins g

variable {s : Cluster Tm Tc} {c : Tc} {g : String}

theorem noteOrigin_of_ne {ev : Event} (h : ev.groupId ≠ some g) :
    s.noteOrigin c ev g = s.origins g := by
  cases ev with
  | create event _ _ => exact if_neg h
  | join event _ _ => exact if_neg fun hand => h hand.1
  | notify event _ => rfl

theorem noteOrigin_create {event : TransactionCreateEvent} {k : String} {now : Nat}
    (h : event.groupId = some g) : s.noteOrigin c (.create event k now) g = [] := if_pos h

theorem noteOrigin_join_none {event : TransactionJoinEvent} {k : String} {now : Nat}
    (hs : s.store g = none) : s.noteOrigin c (.join event k now) g = s.origins g := by
  simp [noteOrigin, hs]

theorem noteOrigin_join_some {event : TransactionJoinEvent} {k : String} {now : Nat}
    {G : TransactionGroup} (h : event.groupId = some g) (hs : s.store g = some G) :
    s.noteOrigin c (.join event k now) g = s.origins g ++ [c] := by
  simp [noteOrigin, h, hs]

end Cluster

namespace Deployment

variable {Tm Tc : Type} [DecidableEq Tm] [DecidableEq Tc]

/-- The connection table of `m`, as `sendMsg` consults it. -/
def connections (D : Deployment Tm Tc) (m : Tm) (k : String) : Bool := (D.table m k).isSome

/-- The request comes over a connection of its own TC, or of a TM that forwards it. -/
def arrives (D : Deployment Tm Tc) (r : Request Tm Tc) : Bool :=
  match D.table r.tm r.event.uniqueKey with
  | some (.tc client) => client = r.origin
  -- forwarded: the key is that of the other TM
  | some (.tm _) => true
  | none => false

/-- One request is handled. -/
def step (D : Deployment Tm Tc) (s : Cluster Tm Tc) (r : Request Tm Tc) :
    Option (Cluster Tm Tc) :=
  if D.arrives r then
    (TmState.step (D.connections r.tm) (s.node r.tm) r.event).map fun t =>
      { store := t.store
        sent := Function.update s.sent r.tm t.sent
        origins := s.noteOrigin r.origin r.event }
  else none

/-- A request is one event of the TM that handles it. -/
theorem step_some {D : Deployment Tm Tc} {s t : Cluster Tm Tc} {r : Request Tm Tc}
    (h : D.step s r = some t) : D.arrives r = true
      ∧ TmState.step (D.connections r.tm) (s.node r.tm) r.event = some (t.node r.tm)
      ∧ t.origins = s.noteOrigin r.origin r.event := by
  unfold step at h
  split at h
  · rename_i harr
    obtain ⟨t', ht', rfl⟩ := Option.map_eq_some_iff.mp h
    refine ⟨harr, ?_, rfl⟩
    rw [ht', Cluster.node]
    simp only [Function.update_self]
  · exact absurd h (by simp)

end Deployment

end TxLcn.Tm
