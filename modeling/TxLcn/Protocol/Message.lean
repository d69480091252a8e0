import TxLcn.Lib.Long

/-!
# Messages

Every message on a connection is an `AbsMessage`: the routing flags of the load
balancer and a `messageId` by which the answer to a request is recognised. The
three request families `TransactionMessage`, `TmNodeMessage` and
`SnowflakeMessage` extend it, and each event extends one of them.

A field that Java leaves `null` is `none`. `new` keeps, for each event, what its
constructor in the client sets; everything else has the field's default.
-/

namespace TxLcn.Protocol

open TxLcn.Lib

structure AbsMessage where
  /-- Set by the TC on its way to the first TM. -/
  isFirstNode : Bool := false
  /-- Set once a TM has executed the business of the message. -/
  isBusinessExecuted : Bool := false
  /-- Set once the message may be answered to the TC. -/
  isReadyCallBack : Bool := false
  messageId : Option String := none
  firstMessageId : Option String := none
  deriving Repr, DecidableEq

structure TransactionMessage extends AbsMessage where
  groupId : Option String := none
  moduleName : Option String := none
  deriving Repr, DecidableEq

structure TmNodeMessage extends AbsMessage where
  deriving Repr, DecidableEq

structure SnowflakeMessage extends AbsMessage where
  deriving Repr, DecidableEq

structure TransactionCreateEvent extends TransactionMessage where
  result : Option String := none
  deriving Repr, DecidableEq

structure TransactionJoinEvent extends TransactionMessage where
  result : Option String := none
  deriving Repr, DecidableEq

structure TransactionNotifyEvent extends TransactionMessage where
  result : Option String := none
  /-- How the business of the creator ended. -/
  success : Bool := false
  deriving Repr, DecidableEq

structure TransactionCommitEvent extends TransactionMessage where
  commit : Bool := false
  result : Option String := none
  deriving Repr, DecidableEq

structure OtherTmNodeEvent extends TmNodeMessage where
  /-- Host and port of each TM. -/
  otherNodeList : List (String × Nat) := []
  deriving Repr, DecidableEq

structure SnowflakeCreateEvent extends SnowflakeMessage where
  groupId : Option String := none
  logId : Long := 0
  deriving Repr, DecidableEq

def TransactionCreateEvent.new (groupId : Option String) : TransactionCreateEvent := { groupId }

def TransactionJoinEvent.new (groupId : Option String) : TransactionJoinEvent := { groupId }

def TransactionNotifyEvent.new (groupId : Option String) (success : Bool) :
    TransactionNotifyEvent := { groupId, success }

def TransactionCommitEvent.new (groupId : Option String) (commit : Bool) :
    TransactionCommitEvent := { groupId, commit }

/-- What a connection carries. -/
inductive Message where
  | create (event : TransactionCreateEvent)
  | join (event : TransactionJoinEvent)
  | notify (event : TransactionNotifyEvent)
  | commit (event : TransactionCommitEvent)
  | otherTmNode (event : OtherTmNodeEvent)
  | snowflake (event : SnowflakeCreateEvent)
  deriving Repr, DecidableEq

namespace Message

/-- The `AbsMessage` every message is. -/
def absMessage : Message → AbsMessage
  | create e => e.toAbsMessage
  | join e => e.toAbsMessage
  | notify e => e.toAbsMessage
  | commit e => e.toAbsMessage
  | otherTmNode e => e.toAbsMessage
  | snowflake e => e.toAbsMessage

def messageId (m : Message) : Option String := m.absMessage.messageId

/-- As a `TransactionMessage`, if it is one. -/
def transactionMessage? : Message → Option TransactionMessage
  | create e => some e.toTransactionMessage
  | join e => some e.toTransactionMessage
  | notify e => some e.toTransactionMessage
  | commit e => some e.toTransactionMessage
  | otherTmNode _ => none
  | snowflake _ => none

def transactionCommitEvent? : Message → Option TransactionCommitEvent
  | commit e => some e
  | _ => none

/-- The request families. -/
inductive Family where
  | transactionMessage
  | tmNodeMessage
  | snowflakeMessage
  deriving Repr, DecidableEq

def family : Message → Family
  | create _ => .transactionMessage
  | join _ => .transactionMessage
  | notify _ => .transactionMessage
  | commit _ => .transactionMessage
  | otherTmNode _ => .tmNodeMessage
  | snowflake _ => .snowflakeMessage

/-- The group a `TransactionMessage` is about. -/
def groupId (m : Message) : Option String := m.transactionMessage?.bind (·.groupId)

end Message

end TxLcn.Protocol
