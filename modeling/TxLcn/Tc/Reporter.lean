import TxLcn.Protocol.Exchange
import TxLcn.Protocol.Reporter

/-!
# How a TC sends its requests

`TxManagerReporter.requestMsg` has an overload for each request family. All mark
the message as being on its way to its first TM. Those for `TmNodeMessage` and
`SnowflakeMessage` give it a random id, the one for `TransactionMessage` gives
it the name of the module instead. Then the overload of `Connection.request` for
the same family is run on the connection that was selected, at random, from the
table.
-/

namespace TxLcn.Tc

open TxLcn.Protocol

namespace TxManagerReporter

/-- What the overload for the family of the message sets in it. -/
def prepare (applicationName : Option String) (randomUUID : String) : Message → Message
  | .create e => .create { e with moduleName := applicationName, isFirstNode := true }
  | .join e => .join { e with moduleName := applicationName, isFirstNode := true }
  | .notify e => .notify { e with moduleName := applicationName, isFirstNode := true }
  | .commit e => .commit { e with moduleName := applicationName, isFirstNode := true }
  | .otherTmNode e => .otherTmNode { e with messageId := some randomUUID, isFirstNode := true }
  | .snowflake e => .snowflake { e with messageId := some randomUUID, isFirstNode := true }

/-- The overload of `Connection.request` it then calls. -/
def overload : Message.Family → Overload
  | .transactionMessage => .transactionMessage
  | .tmNodeMessage => .tmNodeMessage
  | .snowflakeMessage => .snowflakeMessage

def requestMsg (applicationName : Option String) (randomUUID : String) (message : Message) : Task :=
  .request (overload message.family) (prepare applicationName randomUUID message)

/-! ## The selection -/

/-- What `new Random()` draws below a bound. -/
structure Random where
  nextInt : Nat → Nat
  lt : ∀ bound, 0 < bound → nextInt bound < bound

def getRandom (random : Random) (min max : Nat) : Nat :=
  random.nextInt max % (max - min + 1) + min

/-- The leader afterwards; `none` if the number that was drawn is beyond the list. -/
def selectLeader {Ch : Type} (random : Random) (connections : List (Connection Ch))
    (leader : Option (Connection Ch)) : Option (Option (Connection Ch)) :=
  if 0 < connections.length then
    (connections[getRandom random 0 connections.length]?).map some
  else some leader

inductive Call where
  | sendMsg (message : Message) (random : Random)
  | requestMsg (message : Message) (applicationName : Option String) (randomUUID : String)
      (random : Random)

namespace Call

/-- What is sent. -/
def message : Call → Message
  | sendMsg message _ => message
  | requestMsg message applicationName randomUUID _ => prepare applicationName randomUUID message

def random : Call → Random
  | sendMsg _ random => random
  | requestMsg _ _ _ random => random

/-- All of them select a leader, check it and send. -/
def run {Ch : Type} (call : Call) (table : ConnectionService Ch)
    (leader : Option (Connection Ch)) : Option (Connection Ch) × Attempt Ch :=
  match selectLeader call.random table.connections leader with
  | none => (leader, .threw)
  | some leader => (leader, checkLeader leader call.message)

end Call

/-- What is drawn is within the list. -/
theorem getRandom_lt {random : Random} {n : Nat} (hn : 0 < n) : getRandom random 0 n < n := by
  have hlt := random.lt n hn
  unfold getRandom
  rw [Nat.mod_eq_of_lt (by omega)]
  omega

theorem selectLeader_some {Ch : Type} {random : Random} {connections : List (Connection Ch)}
    {leader : Option (Connection Ch)} (hne : connections ≠ []) :
    ∃ c ∈ connections, selectLeader random connections leader = some (some c) := by
  have hlt := @getRandom_lt random _ (List.length_pos_iff.mpr hne)
  refine ⟨connections[getRandom random 0 connections.length], List.getElem_mem hlt, ?_⟩
  unfold selectLeader
  rw [if_pos (List.length_pos_iff.mpr hne), List.getElem?_eq_getElem hlt]
  rfl

/-! ## The requests -/

variable {applicationName : Option String} {randomUUID : String} {m : Message}

theorem prepare_family : (prepare applicationName randomUUID m).family = m.family := by
  cases m <;> rfl

/-- The id a message gets, and the key its lock is registered under. -/
theorem prepare_transactionMessage (h : m.family = .transactionMessage) :
    (prepare applicationName randomUUID m).messageId = m.messageId := by
  cases m <;> first | rfl | cases h

theorem prepare_other (h : m.family ≠ .transactionMessage) :
    (prepare applicationName randomUUID m).messageId = some randomUUID
      ∧ (requestMsg applicationName randomUUID m).key = some randomUUID := by
  cases m <;> first | exact ⟨rfl, rfl⟩ | exact absurd rfl h

theorem requestMsg_accepts {reply : Message} (h : reply.family = m.family) :
    (requestMsg applicationName randomUUID m).accepts reply = true := by
  unfold requestMsg
  cases hm : m.family <;> simp [overload, Task.accepts, h, hm]

end TxManagerReporter

end TxLcn.Tc
