import TxLcn.Protocol.Reporter
import TxLcn.Tm.LoadBalancer

/-!
# How the calls of a TM's reporter end

`sendMsg` selects the first connection of the table. `requestMsg` selects a TM
first and then the first connection of the table all the same; the selection of
the TM may throw.
-/

namespace TxLcn.Tm

open TxLcn.Protocol

namespace TmManagerReporter

variable {Ch : Type}

inductive Call (Ch : Type) where
  | sendMsg (message : Message)
  /-- The table in the context is the one that the call finds. -/
  | requestMsg (ctx : TmContext Ch) (connection : Connection Ch) (absMessage : Message)
      (otherNodeList : List (String × Nat))

/-- The message that `requestMsg` asks the leader with. -/
def requested (randomUUID : String) (absMessage : Message) : Message :=
  absMessage.updateAbs fun a => { a with messageId := some randomUUID, isFirstNode := false }

/-- `requestMsg`, with how it ends. -/
def requestOn (ctx : TmContext Ch) (connection : Connection Ch)
    (leader : Option (Connection Ch)) (absMessage : Message)
    (otherNodeList : List (String × Nat)) : Option (Connection Ch) × Attempt Ch :=
  match selectLeaderWithoutTc ctx.node ctx.table.connections connection otherNodeList leader with
  | none => (leader, .threw)
  | some leader =>
      let leader := selectLeader ctx.table.connections leader
      (leader, checkLeader leader (requested ctx.randomUUID absMessage))

def Call.run (call : Call Ch) (table : ConnectionService Ch) (leader : Option (Connection Ch)) :
    Option (Connection Ch) × Attempt Ch :=
  match call with
  | .sendMsg message =>
      let leader := selectLeader table.connections leader
      (leader, checkLeader leader message)
  | .requestMsg ctx connection absMessage otherNodeList =>
      requestOn { ctx with table } connection leader absMessage otherNodeList

variable {ctx : TmContext Ch} {connection : Connection Ch} {leader : Option (Connection Ch)}
  {absMessage : Message} {otherNodeList : List (String × Nat)}

/-- It sends what `requestMsg` sends. -/
theorem requestOn_requestMsg : requestMsg ctx connection leader absMessage otherNodeList
    = match requestOn ctx connection leader absMessage otherNodeList with
      | (leader, .sent target message) => (leader, some (target, message))
      | (leader, _) => (leader, none) := by
  unfold requestMsg requestOn
  cases selectLeaderWithoutTc ctx.node ctx.table.connections connection otherNodeList leader with
  | none => rfl
  | some leader =>
      dsimp only
      cases selectLeader ctx.table.connections leader <;> rfl

end TmManagerReporter

end TxLcn.Tm
