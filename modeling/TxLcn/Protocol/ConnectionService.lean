import Mathlib.Data.List.Nodup
import TxLcn.Lib.Exec

/-!
# Channels and the table of connections

When a channel becomes active a `Connection` is made for it, stored in the
channel and handed to `ConnectionService`, which keeps at most one for each
remote host and port and closes any other. When the channel becomes inactive the
service is told to remove the connection stored there, and does so by key.

A connection is told from another one with the same key by its channel.
-/

namespace TxLcn.Protocol

/-- `Ch` names the channels. -/
structure Connection (Ch : Type) where
  channel : Ch
  remoteHost : String
  remotePort : Nat
  deriving Repr, DecidableEq

variable {Ch : Type}

/-- `String.format("%s:%d", remoteHost, remotePort)`. -/
def Connection.uniqueKey (c : Connection Ch) : String :=
  c.remoteHost ++ ":" ++ toString c.remotePort

/-- `new Connection(ctx, config)`, where the remote address of the channel is known. -/
def Connection.new (channel : Ch) (remoteAddress : String × Nat) : Connection Ch :=
  { channel, remoteHost := remoteAddress.1, remotePort := remoteAddress.2 }

/-- The map of connections: its values in the order in which they are iterated over. -/
structure ConnectionService (Ch : Type) where
  connections : List (Connection Ch) := []
  distinct : (connections.map Connection.uniqueKey).Nodup := by simp

namespace ConnectionService

variable (s : ConnectionService Ch)

def getNumberOfConnections : Nat := s.connections.length

def getConnection (uniqueKey : String) : Option (Connection Ch) :=
  s.connections.find? fun c => c.uniqueKey = uniqueKey

def existConnect (uniqueKey : String) : Bool := (s.getConnection uniqueKey).isSome

variable {s} {c c' : Connection Ch} {k : String}

theorem uniqueKey_of_getConnection (h : s.getConnection k = some c) : c.uniqueKey = k := by
  unfold getConnection at h
  simpa using List.find?_some h

theorem mem_of_getConnection (h : s.getConnection k = some c) : c ∈ s.connections :=
  List.mem_of_find?_eq_some h

theorem getConnection_eq_none_iff :
    s.getConnection k = none ↔ ∀ c ∈ s.connections, c.uniqueKey ≠ k := by
  simp [getConnection, List.find?_eq_none]

/-- The connections of the table are those that are found under their keys. -/
theorem getConnection_eq_some_iff :
    s.getConnection c.uniqueKey = some c ↔ c ∈ s.connections := by
  refine ⟨mem_of_getConnection, fun hc => ?_⟩
  cases h : s.getConnection c.uniqueKey with
  | none => exact absurd rfl (getConnection_eq_none_iff.mp h c hc)
  | some c' =>
      have hkey : c'.uniqueKey = c.uniqueKey := uniqueKey_of_getConnection h
      rw [List.inj_on_of_nodup_map s.distinct (mem_of_getConnection h) hc hkey]

variable (s)

/-- The second component says whether the new connection is closed as a duplicate. -/
def addConnection (c : Connection Ch) : ConnectionService Ch × Bool :=
  match h : s.getConnection c.uniqueKey with
  | some _ => (s, true)
  | none =>
      ({ connections := s.connections ++ [c]
         distinct := by
          rw [List.map_append, List.nodup_append]
          refine ⟨s.distinct, List.nodup_singleton _, ?_⟩
          intro k hk k' hk' heq
          obtain ⟨c', hc', rfl⟩ := List.mem_map.mp hk
          have hkey : k' = c.uniqueKey := List.mem_singleton.mp hk'
          exact getConnection_eq_none_iff.mp h c' hc' (heq.trans hkey) }, false)

/-- Whatever is stored under the key is removed, and the result says whether there was something. -/
def removeConnection (c : Connection Ch) : ConnectionService Ch × Bool :=
  ({ connections := s.connections.filter fun c' => c'.uniqueKey ≠ c.uniqueKey
     distinct := s.distinct.sublist (List.filter_sublist.map _) },
    s.existConnect c.uniqueKey)

variable {s}

theorem addConnection_dup (h : s.getConnection c.uniqueKey = some c') :
    s.addConnection c = (s, true) := by
  unfold addConnection
  split
  · rfl
  · rename_i hnone
    exact absurd (hnone.symm.trans h) (by simp)

theorem mem_addConnection : c' ∈ (s.addConnection c).1.connections ↔
    c' ∈ s.connections ∨ c' = c ∧ s.getConnection c.uniqueKey = none := by
  unfold addConnection
  split
  · rename_i hsome
    simp [hsome]
  · rename_i hnone
    simp [hnone]

theorem addConnection_closed : (s.addConnection c).2 = (s.existConnect c.uniqueKey) := by
  unfold addConnection existConnect
  split <;> rename_i h <;> simp [h]

theorem mem_removeConnection : c' ∈ (s.removeConnection c).1.connections ↔
    c' ∈ s.connections ∧ c'.uniqueKey ≠ c.uniqueKey := by
  simp [removeConnection, List.mem_filter]

end ConnectionService

structure Protocoler (Ch : Type) where
  connectionService : ConnectionService Ch := {}
  running : Bool := true

namespace Protocoler

variable (p : Protocoler Ch)

def isShutdown : Bool := !p.running

/-- The second component says whether the connection has been put into the table. -/
def handleConnectionOpened (c : Connection Ch) : Protocoler Ch × Bool :=
  if p.isShutdown then (p, false)
  else
    let (connectionService, closed) := p.connectionService.addConnection c
    ({ p with connectionService }, !closed)

def handleConnectionClosed (c : Option (Connection Ch)) : Protocoler Ch :=
  match c with
  | none => p
  | some c => { p with connectionService := (p.connectionService.removeConnection c).1 }

end Protocoler

/-- What happens to a channel. -/
inductive ChannelEvent (Ch : Type) where
  | channelActive (channel : Ch)
  | channelInactive (channel : Ch)
  deriving Repr, DecidableEq

/-- A channel becomes active once, and inactive once. -/
inductive ChannelStatus where
  | fresh
  | active
  | inactive
  deriving Repr, DecidableEq

/--
A party and its channels: the connection stored in each of them, and (for the
record only) the connection that was put into the table for it.
-/
structure Channels (Ch : Type) where
  protocoler : Protocoler Ch := {}
  status : Ch → ChannelStatus := fun _ => .fresh
  session : Ch → Option (Connection Ch) := fun _ => none
  registered : Ch → Option (Connection Ch) := fun _ => none

namespace Channels

variable [DecidableEq Ch]

def channelActive (remoteAddress : Ch → String × Nat) (s : Channels Ch) (channel : Ch) :
    Channels Ch :=
  let connection := Connection.new channel (remoteAddress channel)
  let (protocoler, put) := s.protocoler.handleConnectionOpened connection
  { protocoler
    status := Function.update s.status channel .active
    session := Function.update s.session channel (some connection)
    registered := if put then Function.update s.registered channel (some connection)
      else s.registered }

def channelInactive (s : Channels Ch) (channel : Ch) : Channels Ch :=
  { s with
    protocoler := s.protocoler.handleConnectionClosed (s.session channel)
    status := Function.update s.status channel .inactive
    registered := Function.update s.registered channel none }

def step (remoteAddress : Ch → String × Nat) (s : Channels Ch) :
    ChannelEvent Ch → Option (Channels Ch)
  | .channelActive channel =>
      if s.status channel = .fresh then some (s.channelActive remoteAddress channel) else none
  | .channelInactive channel =>
      if s.status channel = .active then some (s.channelInactive channel) else none

end Channels

end TxLcn.Protocol
