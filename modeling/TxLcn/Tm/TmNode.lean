import TxLcn.Protocol.ConnectionService
import TxLcn.Protocol.Message

/-!
# Which TM a TM forwards to

The TMs register themselves in a common store, and each of them finds the others
there. A `TmManagerReporter` that has to forward a message first looks for the
registered TM with the fewest connections among those it is connected to, and
then takes the first connection of its table, whoever that leads to.

The reporter keeps its choice in `leader`, which outlives the call.
-/

namespace TxLcn.Tm

open TxLcn.Protocol

structure TmNodeInfo where
  tmId : String
  hostAndPort : String
  connection : Nat
  deriving Repr, DecidableEq

/--
A TM as it looks at the others: its own host and port, the values in the
registry as they are scanned (`none` for one that has expired meanwhile), and
what `NetUtil.addressFormat` makes of a host and port.
-/
structure TmNode where
  id : String
  registry : List (Option TmNodeInfo)
  addressFormat : String → Option (String × Nat)

namespace TmNode

variable (node : TmNode)

/-- The records of the others. A value that has expired is dereferenced all the same. -/
def otherTms : Option (List TmNodeInfo) :=
  if none ∈ node.registry then none
  else
    some ((node.registry.filterMap fun info => info).filter fun info =>
      info.hostAndPort ≠ node.id)

def getOtherNodeList : Option (List (String × Nat)) :=
  node.otherTms.map fun infos =>
    (infos.filterMap fun info => node.addressFormat info.hostAndPort).eraseDups

instance : LawfulBEq (String × Nat) := inferInstance

/-- Those of them that the list does not contain. -/
def getBesidesNodeList (iNetSocketAddressList : List (String × Nat)) :
    Option (List (String × Nat)) :=
  node.otherTms.map fun infos =>
    ((infos.filterMap fun info => node.addressFormat info.hostAndPort).filter
      fun iNetSocketAddress => iNetSocketAddress ∉ iNetSocketAddressList).eraseDups

/-- `Collectors.toMap` throws on a key it has seen. -/
def getAllOtherTmConnection : Option (List (String × Nat)) :=
  node.otherTms.bind fun infos =>
    if (infos.map (·.hostAndPort)).Nodup then
      some (infos.map fun info => (info.hostAndPort, info.connection))
    else none

variable {node} {sent otherNodeList : List (String × Nat)}

theorem nodup_eraseDups {α : Type} [BEq α] [LawfulBEq α] (l : List α) : l.eraseDups.Nodup := by
  match l with
  | [] => exact List.nodup_nil
  | a :: as =>
      rw [List.eraseDups_cons, List.nodup_cons]
      refine ⟨?_, nodup_eraseDups _⟩
      rw [List.mem_eraseDups, List.mem_filter]
      simp
termination_by l.length
decreasing_by
  have hle := List.length_filter_le (fun b => !b == a) as
  simp only [List.length_cons]
  omega

/-- An answer repeats neither an address of its own nor one of the list. -/
theorem getBesidesNodeList_nodup (h : node.getBesidesNodeList sent = some otherNodeList) :
    otherNodeList.Nodup ∧ ∀ a ∈ otherNodeList, a ∉ sent := by
  obtain ⟨infos, _, rfl⟩ := Option.map_eq_some_iff.mp h
  refine ⟨nodup_eraseDups _, ?_⟩
  intro a ha
  rw [List.mem_eraseDups, List.mem_filter] at ha
  simpa using ha.2

end TmNode

namespace TmManagerReporter

variable {Ch : Type}

def selectLeader (connections : List (Connection Ch)) (leader : Option (Connection Ch)) :
    Option (Connection Ch) :=
  match connections with
  | [] => leader
  | connection :: _ => some connection

/-- The first of the connections with the smallest count. A count that is missing is a null. -/
def minConnection (count : String → Option Nat) :
    List (Connection Ch) → Option (Option (Connection Ch))
  | [] => some none
  -- a single connection is compared to nothing
  | [connection] => some (some connection)
  | connection :: rest =>
      rest.foldl (fun least cnt => do
        let some best ← least | none
        let a ← count best.uniqueKey
        let b ← count cnt.uniqueKey
        if a ≤ b then some (some best) else some (some cnt)) (some (some connection))

/-- The leader afterwards; `none` if an exception is thrown, which leaves the leader alone. -/
def selectLeaderWithoutTc (node : TmNode) (connections : List (Connection Ch))
    (connection : Connection Ch) (otherNodeList : List (String × Nat))
    (leader : Option (Connection Ch)) : Option (Option (Connection Ch)) :=
  if connections.isEmpty then some leader
  else do
    let connectionList := (connections.filter fun connectionBo =>
        connectionBo.uniqueKey ≠ connection.uniqueKey).filter fun connectionBo =>
          (connectionBo.remoteHost, connectionBo.remotePort) ∈ otherNodeList
    let allTmConnection ← node.getAllOtherTmConnection
    minConnection (fun k => allTmConnection.lookup k) connectionList

end TmManagerReporter

end TxLcn.Tm
