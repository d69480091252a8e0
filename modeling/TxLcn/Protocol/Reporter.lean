import TxLcn.Protocol.ConnectionService
import TxLcn.Protocol.Message

/-!
# A reporter and the table of connections

A reporter sends its messages on the connection it keeps in `leader`. It chooses
that anew at each call, from the table as it then is, and keeps the last choice
where there is nothing to choose from. Connections are opened and closed in
between.

What a reporter does in a call is a parameter: the leader afterwards, and how the
call ends.
-/

namespace TxLcn.Protocol

open TxLcn.Lib

variable {Ch Call : Type}

/-- How a call of a reporter ends. -/
inductive Attempt (Ch : Type) where
  | sent (connection : Connection Ch) (message : Message)
  /-- `checkLeader` has thrown. -/
  | noLeader
  /-- The selection has thrown. -/
  | threw
  deriving Repr, DecidableEq

/-- `checkLeader`, and what follows it. -/
def checkLeader (leader : Option (Connection Ch)) (message : Message) : Attempt Ch :=
  match leader with
  | none => .noLeader
  | some leader => .sent leader message

/-- An order in which the values of the map are iterated over. -/
structure Iteration (Ch : Type) where
  values : List (Connection Ch) → List (Connection Ch)
  perm : ∀ connections, (values connections).Perm connections

namespace Iteration

/-- The order in which they are kept. -/
def kept : Iteration Ch := ⟨id, fun _ => List.Perm.refl _⟩

/-- The table as it is iterated over. -/
def table (iteration : Iteration Ch) (s : ConnectionService Ch) : ConnectionService Ch where
  connections := iteration.values s.connections
  distinct := ((iteration.perm s.connections).map Connection.uniqueKey).nodup_iff.mpr s.distinct

variable {iteration : Iteration Ch} {s : ConnectionService Ch} {c : Connection Ch}

@[simp] theorem mem_table :
    c ∈ (iteration.table s).connections ↔ c ∈ s.connections :=
  (iteration.perm s.connections).mem_iff

@[simp] theorem table_nil :
    (iteration.table s).connections = [] ↔ s.connections = [] := by
  simp only [List.eq_nil_iff_forall_not_mem, mem_table]

end Iteration

structure Reporter (Ch : Type) where
  protocoler : Protocoler Ch := {}
  leader : Option (Connection Ch) := none
  /-- For the record only: the last call, the table it found and how it ended. -/
  last : Option (ConnectionService Ch × Attempt Ch) := none

namespace Reporter

inductive Event (Ch Call : Type) where
  | handleConnectionOpened (connection : Connection Ch)
  | handleConnectionClosed (connection : Option (Connection Ch))
  | call (iteration : Iteration Ch) (call : Call)

/-- `calls` is what the reporter does in a call, on that table and with that leader. -/
def step (calls : Call → ConnectionService Ch → Option (Connection Ch) →
      Option (Connection Ch) × Attempt Ch)
    (s : Reporter Ch) : Event Ch Call → Option (Reporter Ch)
  | .handleConnectionOpened connection =>
      some { s with protocoler := (s.protocoler.handleConnectionOpened connection).1 }
  | .handleConnectionClosed connection =>
      some { s with protocoler := s.protocoler.handleConnectionClosed connection }
  | .call iteration call =>
      let connectionService := s.protocoler.connectionService
      let (leader, attempt) := calls call (iteration.table connectionService) s.leader
      some { s with leader, last := some (connectionService, attempt) }

end Reporter

end TxLcn.Protocol
