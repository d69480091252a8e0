import TxLcn.Lib.Prog

/-!
# The group store of the TMs

A transaction group lives in Redis under its `groupId`, as one value that holds
the whole record. All TMs use the same Redis. `RedisTransactionGroupRepository`
issues plain `get` and `set` commands and nothing that combines them, so each of
its methods is a `Prog` over the store.
-/

namespace TxLcn.Tm

open TxLcn.Lib

/--
After `create` the state is `JOIN`, and so it is after others joined; the
notification determines it as `COMMIT` or `ROLLBACK`.
-/
inductive TransactionState where
  | JOIN
  | COMMIT
  | ROLLBACK
  deriving Repr, DecidableEq

namespace TransactionState

def parser (flag : Bool) : TransactionState :=
  if flag then COMMIT else ROLLBACK

/-- The state is one a notification puts. -/
def decided : TransactionState → Bool
  | JOIN => false
  | _ => true

@[simp] theorem parser_decided (flag : Bool) : (parser flag).decided = true := by
  cases flag <;> rfl

theorem parser_ne_join (flag : Bool) : parser flag ≠ JOIN := by
  cases flag <;> simp [parser]

theorem parser_injective : Function.Injective parser := by
  intro a b h
  cases a <;> cases b <;> first | rfl | cases h

end TransactionState

inductive TransactionType where
  /-- The creator of the group. -/
  | REQUEST
  /-- A participant that joined it. -/
  | JOIN
  deriving Repr, DecidableEq

structure TransactionInfo where
  moduleName : Option String
  /-- Remote host and port of the connection the request came in on. -/
  uniqueKey : String
  /-- `System.currentTimeMillis()` at the time of construction. -/
  time : Nat
  transactionType : TransactionType
  deriving Repr, DecidableEq

def TransactionInfo.hasJoin (info : TransactionInfo) : Bool :=
  info.transactionType = TransactionType.JOIN

structure TransactionGroup where
  groupId : String
  state : TransactionState
  transactionInfoList : List TransactionInfo
  deriving Repr, DecidableEq

namespace TransactionGroup

def add (group : TransactionGroup) (uniqueKey : String) (moduleName : Option String)
    (transactionType : TransactionType) (now : Nat) : TransactionGroup :=
  let transactionInfo : TransactionInfo := { moduleName, uniqueKey, time := now, transactionType }
  { group with transactionInfoList := group.transactionInfoList ++ [transactionInfo] }

/-- The constructor. -/
def new (groupId uniqueKey : String) (moduleName : Option String)
    (transactionType : TransactionType) (now : Nat) : TransactionGroup :=
  add { groupId, state := TransactionState.JOIN, transactionInfoList := [] }
    uniqueKey moduleName transactionType now

def listTransaction (group : TransactionGroup) : List TransactionInfo :=
  group.transactionInfoList.filter (·.hasJoin)

def hasCommit (group : TransactionGroup) : Bool :=
  group.state = TransactionState.COMMIT

@[simp] theorem new_state (g k : String) (m : Option String) (ty : TransactionType) (now : Nat) :
    (new g k m ty now).state = TransactionState.JOIN := rfl

/-- A new group lists its creator only, and the creator has not joined. -/
@[simp] theorem listTransaction_new (g k : String) (m : Option String) (now : Nat) :
    (new g k m TransactionType.REQUEST now).listTransaction = [] := rfl

theorem listTransaction_add_join (G : TransactionGroup) (k : String) (m : Option String)
    (now : Nat) : (G.add k m TransactionType.JOIN now).listTransaction
      = G.listTransaction ++ [⟨m, k, now, TransactionType.JOIN⟩] := by
  simp [listTransaction, add, TransactionInfo.hasJoin]

@[simp] theorem listTransaction_setState (G : TransactionGroup) (st : TransactionState) :
    ({ G with state := st } : TransactionGroup).listTransaction = G.listTransaction := rfl

theorem hasCommit_setState (G : TransactionGroup) (b : Bool) :
    ({ G with state := TransactionState.parser b } : TransactionGroup).hasCommit = b := by
  cases b <;> rfl

end TransactionGroup

/-! ## The repository -/

namespace RedisTransactionGroupRepository

open Prog

/-- Blind: whatever is stored under the key is replaced. -/
def create (groupId uniqueKey : String) (moduleName : Option String) (now : Nat) :
    Prog String TransactionGroup Unit :=
  let transactionGroup :=
    TransactionGroup.new groupId uniqueKey moduleName TransactionType.REQUEST now
  setValue groupId transactionGroup

def join (groupId uniqueKey : String) (moduleName : Option String) (now : Nat) :
    Prog String TransactionGroup Unit := do
  match ← getValue groupId with
  | some transactionGroup =>
      setValue groupId (transactionGroup.add uniqueKey moduleName TransactionType.JOIN now)
  | none => pure ()

def notify (groupId : String) (success : Bool) :
    Prog String TransactionGroup (Option TransactionGroup) := do
  match ← getValue groupId with
  | none => pure none
  | some transactionGroup =>
      let transactionGroup := { transactionGroup with state := TransactionState.parser success }
      setValue groupId transactionGroup
      pure (some transactionGroup)

/-- A call of one of the three methods, with its arguments. -/
inductive Call where
  | create (groupId uniqueKey : String) (moduleName : Option String) (now : Nat)
  | join (groupId uniqueKey : String) (moduleName : Option String) (now : Nat)
  | notify (groupId : String) (success : Bool)
  deriving Repr, DecidableEq

/-- What the call does to the store; a group it returns is dropped. -/
def Call.prog : Call → Prog String TransactionGroup Unit
  | create groupId uniqueKey moduleName now =>
      RedisTransactionGroupRepository.create groupId uniqueKey moduleName now
  | join groupId uniqueKey moduleName now =>
      RedisTransactionGroupRepository.join groupId uniqueKey moduleName now
  | notify groupId success => do
      let _ ← RedisTransactionGroupRepository.notify groupId success

variable (g k : String) (m : Option String) (now : Nat) (b : Bool)
  (s : String → Option TransactionGroup)

theorem eval_create : (create g k m now).eval s
    = ((), Function.update s g (some (.new g k m TransactionType.REQUEST now))) := rfl

theorem eval_join_none (h : s g = none) : (join g k m now).eval s = ((), s) := by
  simp only [join, eval_bind, eval_getValue, h, eval_pure]

theorem eval_join_some {G : TransactionGroup} (h : s g = some G) : (join g k m now).eval s
    = ((), Function.update s g (some (G.add k m TransactionType.JOIN now))) := by
  simp only [join, eval_bind, eval_getValue, h, eval_setValue]

theorem eval_notify_none (h : s g = none) : (notify g b).eval s = (none, s) := by
  simp only [notify, eval_bind, eval_getValue, h, eval_pure]

theorem eval_notify_some {G : TransactionGroup} (h : s g = some G) : (notify g b).eval s
    = (some { G with state := .parser b },
        Function.update s g (some { G with state := .parser b })) := by
  simp only [notify, eval_bind, eval_getValue, h, eval_setValue, eval_pure]

/-! What a call, run alone, makes of the store. -/

theorem effect_create : (Call.create g k m now).prog.effect s
    = Function.update s g (some (.new g k m TransactionType.REQUEST now)) := rfl

theorem effect_join_none (h : s g = none) : (Call.join g k m now).prog.effect s = s := by
  rw [effect, Call.prog, eval_join_none g k m now s h]

theorem effect_join_some {G : TransactionGroup} (h : s g = some G) :
    (Call.join g k m now).prog.effect s
      = Function.update s g (some (G.add k m TransactionType.JOIN now)) := by
  rw [effect, Call.prog, eval_join_some g k m now s h]

theorem effect_notify_none (h : s g = none) : (Call.notify g b).prog.effect s = s := by
  simp only [effect, Call.prog, eval_bind, eval_notify_none g b s h, eval_pure]

theorem effect_notify_some {G : TransactionGroup} (h : s g = some G) :
    (Call.notify g b).prog.effect s
      = Function.update s g (some { G with state := .parser b }) := by
  simp only [effect, Call.prog, eval_bind, eval_notify_some g b s h, eval_pure]

end RedisTransactionGroupRepository

end TxLcn.Tm
