import TxLcn.Tc.Commitment
import TxLcn.Tc.Proxied

/-!
# A group and the databases behind it

Each participant has a proxied connection to some database. Its business uses the
proxy, and what it does there is durable or held back by the session behind it.
When the business ends, the raw connection has been captured or not; from then on
the session gets nothing but the calls that the participant makes on the raw
connection when a decision is carried out.
-/

namespace TxLcn.Tc

open TxLcn.Lib

/-- The calls that have been made on the raw connection. -/
def Participant.rawCalls (p : Participant) : List (RawCall × Bool) :=
  match p.connection with
  | some connection => connection.calls
  | none => []

namespace Proxied

variable {β : Type}

/-- `JdbcContext` has the raw connection for the group. -/
def captured (d : Proxied β) : Bool := (d.context d.participation.groupId).isSome

/-- What has become of the connection, which has been opened. -/
def atEnd (d : Proxied β) : Capture := if d.captured then .captured else .opened

@[simp] theorem isSome_connection_atEnd (d : Proxied β) :
    d.atEnd.connection.isSome = d.captured := by
  unfold atEnd
  split <;> rename_i hcaptured <;> simp [Capture.connection, hcaptured]

/-- The calls are made on the raw connection. -/
def receive (d : Proxied β) (calls : List (RawCall × Bool)) : Proxied β :=
  { d with
    raw := { calls := d.raw.calls ++ calls }
    session := calls.foldl (called d.logIds) d.session }

end Proxied

structure Databases (β : Type) where
  group : Commitment
  database : String → Proxied β
  /-- For the record only: what was uncommitted when the business ended. -/
  pending : String → List β := fun _ => []

namespace Databases

variable {β : Type}

inductive Event (β : Type) where
  /-- The business uses its connection. -/
  | use (uniqueKey : String) (event : Proxied.Event β)
  | act (action : Action)

/-- Nobody has begun, and nobody has used its connection. -/
def init (groupId creator : String) : Databases β where
  group := Commitment.init groupId creator
  database k := Proxied.init groupId (if k = creator then .CREATE else .JOIN)

/-- The business of the participant is running. It does not decide. -/
def use (s : Databases β) (k : String) (event : Proxied.Event β) : Option (Databases β) :=
  match (s.group.party k).pc, event with
  | .business, .decide _ _ => none
  | .business, event => do
      let d ← (s.database k).step event
      pure { s with database := Function.update s.database k d }
  | _, _ => none

/-- Every session gets the calls that its participant has just made. -/
def follow (s : Databases β) (group : Commitment) : Databases β :=
  { s with
    group
    database := fun k => (s.database k).receive
      ((group.party k).rawCalls.drop (s.group.party k).rawCalls.length) }

/-- When a business ends its connection has been captured, or it has not. -/
def step (applicationName : String → Option String) (s : Databases β) :
    Event β → Option (Databases β)
  | .use k event => s.use k event
  | .act (.tryEnd k success capture) =>
      if capture = (s.database k).atEnd then do
        let group ← s.group.step applicationName (.tryEnd k success capture)
        pure { s.follow group with
          pending := Function.update s.pending k
            (Written.changes (s.database k).session.uncommitted) }
      else none
  | .act action => do
      let group ← s.group.step applicationName action
      pure (s.follow group)

end Databases

end TxLcn.Tc
