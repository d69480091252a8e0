import TxLcn.Lib.Exec
import TxLcn.Protocol.Message
import Mathlib.Logic.Function.Basic

/-!
# Where a TC gets its identities from

A TC asks a TM once for a group id and a log id, and keeps both in a cache. A
new transaction takes the cached group id, a new log row the cached log id.

The cache loads the text `"null"` for a key it does not hold, and reads it back
as Java's `null`. Twelve hours after it was written an entry is loaded again,
which turns it into `"null"`. Reading a missing group id gives `null`; reading a
missing log id throws, and the handler of the exception draws a random one.
-/

namespace TxLcn.Tc

open TxLcn.Lib TxLcn.Protocol

/-! ## The cache -/

/-- What the cache holds of a Java `Object`. -/
inductive Object where
  | string (value : String)
  | long (value : Long)
  | boolean (value : Bool)
  deriving Repr, DecidableEq

namespace CommonConstant

def NULL : String := "null"

end CommonConstant

namespace SnowflakeConstant

def GROUP_ID : String := "groupId"

def LOG_ID : String := "logId"

def TAG : String := "TAG"

end SnowflakeConstant

open CommonConstant SnowflakeConstant

structure Cache where
  localCache : String → Option Object := fun _ => none

namespace Cache

/-- The loader of the cache. -/
def load (_key : String) : Object := .string NULL

def setKey (cache : Cache) (key : String) (value : Object) : Cache :=
  { localCache := Function.update cache.localCache key (some value) }

/-- The sentinel stands for `null`. -/
def notNull (value : Object) : Option Object :=
  if value = .string NULL then none else some value

/-- A missing entry is loaded, and stays. -/
def getKey (cache : Cache) (key : String) : Option Object × Cache :=
  match cache.localCache key with
  | some value => (notNull value, cache)
  | none => (notNull (load key), cache.setKey key (load key))

/-- The access that finds an entry older than twelve hours loads it again. -/
def refresh (cache : Cache) (key : String) : Cache :=
  match cache.localCache key with
  | some _ => cache.setKey key (load key)
  | none => cache

/-- The cast of `null` to `String` is `null` and throws nothing. -/
def getGroupId (cache : Cache) (randomUUID : String) : Option String × Cache :=
  match cache.getKey GROUP_ID with
  | (none, cache) => (none, cache)
  | (some (.string groupId), cache) => (some groupId, cache)
  | (some _, cache) => (some randomUUID, cache)

/-- The cast of `null` to `long` throws. -/
def getLogId (cache : Cache) (leastSignificantBits : Long) : Long × Cache :=
  match cache.getKey LOG_ID with
  | (some (.long logId), cache) => (logId, cache)
  | (_, cache) => (leastSignificantBits, cache)

/-- What a read of the key gives. -/
def lookup (cache : Cache) (key : String) : Option Object := (cache.getKey key).1

variable {cache : Cache} {key key' : String} {value : Object}

theorem lookup_eq : cache.lookup key = (cache.localCache key).bind notNull := by
  unfold lookup getKey
  cases cache.localCache key <;> rfl

@[simp] theorem lookup_setKey_self : (cache.setKey key value).lookup key = notNull value := by
  simp [lookup_eq, setKey]

theorem lookup_setKey_of_ne (h : key' ≠ key) :
    (cache.setKey key value).lookup key' = cache.lookup key' := by
  simp [lookup_eq, setKey, Function.update_of_ne h]

/-- Reading a key changes nothing that can be read. -/
@[simp] theorem lookup_getKey : (cache.getKey key).2.lookup key' = cache.lookup key' := by
  unfold getKey
  cases h : cache.localCache key with
  | some v => rfl
  | none =>
      by_cases hk : key' = key
      · -- what is loaded stays, but it reads as nothing
        subst hk
        simp [lookup_eq, setKey, h, notNull, load]
      · exact lookup_setKey_of_ne hk

/-- A refresh can only lose an entry. -/
theorem lookup_of_lookup_refresh (h : (cache.refresh key).lookup key' = some value) :
    cache.lookup key' = some value := by
  unfold refresh at h
  cases hkey : cache.localCache key with
  | none => rw [hkey] at h; exact h
  | some v =>
      rw [hkey] at h
      by_cases hk : key' = key
      · -- the entry itself reads as nothing now
        subst hk
        simp [notNull, load] at h
      · exact (lookup_setKey_of_ne hk).symm.trans h

@[simp] theorem lookup_getGroupId {uuid : String} :
    (cache.getGroupId uuid).2.lookup key' = cache.lookup key' := by
  rw [← @lookup_getKey cache GROUP_ID key']
  unfold getGroupId
  split <;> rename_i heq <;> rw [heq]

@[simp] theorem lookup_getLogId {bits : Long} :
    (cache.getLogId bits).2.lookup key' = cache.lookup key' := by
  rw [← @lookup_getKey cache LOG_ID key']
  unfold getLogId
  split <;> rename_i heq <;> rw [heq]

theorem getGroupId_none {uuid : String} (h : cache.lookup GROUP_ID = none) :
    (cache.getGroupId uuid).1 = none := by
  unfold getGroupId
  unfold lookup at h
  split <;> rename_i heq <;> rw [heq] at h <;> simp_all

theorem getGroupId_string {uuid g : String} (h : cache.lookup GROUP_ID = some (.string g)) :
    (cache.getGroupId uuid).1 = some g := by
  unfold getGroupId
  unfold lookup at h
  split <;> rename_i heq <;> rw [heq] at h <;> simp_all

theorem getLogId_long {bits id : Long} (h : cache.lookup LOG_ID = some (.long id)) :
    (cache.getLogId bits).1 = id := by
  unfold getLogId
  unfold lookup at h
  split <;> rename_i heq <;> rw [heq] at h <;> simp_all

theorem getLogId_random {bits : Long} (h : ∀ id, cache.lookup LOG_ID ≠ some (.long id)) :
    (cache.getLogId bits).1 = bits := by
  unfold getLogId
  unfold lookup at h
  split
  · rename_i logId _ heq
    rw [heq] at h
    exact absurd rfl (h logId)
  · rfl

end Cache

namespace SnowflakeInfo

/-- The tag says whether a TM has been asked with success. -/
def asks (cache : Cache) : Bool := (cache.lookup TAG).isNone

/-- `reply` is what the TM answers if it is asked. A null group id cannot be put in the cache. -/
def getGroupIdAndLogId (cache : Cache) (reply : Option SnowflakeCreateEvent) : Cache :=
  match cache.getKey TAG with
  | (some _, cache) => cache
  | (none, cache) =>
      match reply with
      | none => cache
      | some snowFlakeCreateEvent =>
          match snowFlakeCreateEvent.groupId with
          | none => cache
          | some groupId =>
              ((cache.setKey GROUP_ID (.string groupId)).setKey LOG_ID
                (.long snowFlakeCreateEvent.logId)).setKey TAG (.boolean true)

variable {cache : Cache}

/-- A request that is not made, or not answered, changes nothing that can be read. -/
theorem lookup_unanswered {reply : Option SnowflakeCreateEvent} {key : String}
    (h : asks cache = false ∨ reply = none) :
    (getGroupIdAndLogId cache reply).lookup key = cache.lookup key := by
  rw [← @Cache.lookup_getKey cache TAG key]
  unfold getGroupIdAndLogId
  unfold asks Cache.lookup at h
  split
  · rename_i heq
    rw [heq]
  · rename_i heq
    rw [heq] at h
    rcases h with h | rfl
    · exact absurd h (by simp)
    · rw [heq]

theorem getGroupIdAndLogId_answered {event : SnowflakeCreateEvent} {g : String}
    (h : asks cache = true) (hg : event.groupId = some g) :
    getGroupIdAndLogId cache (some event) = (((cache.getKey TAG).2.setKey GROUP_ID
      (.string g)).setKey LOG_ID (.long event.logId)).setKey TAG (.boolean true) := by
  unfold getGroupIdAndLogId
  unfold asks Cache.lookup at h
  split
  · rename_i heq
    rw [heq] at h
    exact absurd h (by simp)
  · rename_i heq
    simp only [hg, heq]

/-- After an answer the cache gives its two ids. -/
theorem lookup_answered {event : SnowflakeCreateEvent} {g : String} (h : asks cache = true)
    (hg : event.groupId = some g) :
    (getGroupIdAndLogId cache (some event)).lookup GROUP_ID = Cache.notNull (.string g)
      ∧ (getGroupIdAndLogId cache (some event)).lookup LOG_ID = some (.long event.logId) := by
  have h₁ : GROUP_ID ≠ TAG := by decide
  have h₂ : GROUP_ID ≠ LOG_ID := by decide
  have h₃ : LOG_ID ≠ TAG := by decide
  rw [getGroupIdAndLogId_answered h hg]
  refine ⟨?_, ?_⟩
  · rw [Cache.lookup_setKey_of_ne h₁, Cache.lookup_setKey_of_ne h₂, Cache.lookup_setKey_self]
  · rw [Cache.lookup_setKey_of_ne h₃, Cache.lookup_setKey_self]
    rfl

end SnowflakeInfo

/-! ## Transactions and log rows -/

inductive TransactionState where
  | CREATE
  | JOIN
  | NOTIFY
  | NO_TRANSACTION
  deriving Repr, DecidableEq

structure TransactionInfo where
  groupId : Option String
  transactionType : Option String := none
  transactionState : TransactionState
  /-- Unknown, success or failure of the business. -/
  successReturn : Option Bool := none
  deriving Repr, DecidableEq

structure TransactionLog where
  id : Long
  groupId : Option String
  sql : String
  time : Nat
  /-- `0` for a statement of the business. -/
  flag : Nat
  deriving Repr, DecidableEq

/-- `new TransactionInfo(transactionState)`. -/
def TransactionInfo.ofState (transactionState : TransactionState) (cache : Cache)
    (randomUUID : String) : TransactionInfo × Cache :=
  let (groupId, cache) := cache.getGroupId randomUUID
  ({ groupId, transactionState }, cache)

/-- `new TransactionInfo(groupId)`. -/
def TransactionInfo.ofGroup (groupId : Option String) : TransactionInfo :=
  { groupId, transactionState := .JOIN }

/-- `new TransactionLog(sql)`; without a current transaction it throws. -/
def TransactionLog.new (sql : String) (current : Option TransactionInfo) (now : Nat)
    (cache : Cache) (leastSignificantBits : Long) : Option TransactionLog × Cache :=
  let (id, cache) := cache.getLogId leastSignificantBits
  (current.map fun info => { id, groupId := info.groupId, sql, time := now, flag := 0 }, cache)

/-- What can happen at a TC, as far as identities go. `Th` is the type of its threads. -/
inductive IdentityEvent (Th : Type) where
  | getGroupIdAndLogId (reply : Option SnowflakeCreateEvent)
  | refresh (key : String)
  | newTransaction (th : Th) (randomUUID : String)
  | joinTransaction (th : Th) (groupId : Option String)
  | clear (th : Th)
  | newTransactionLog (th : Th) (sql : String) (now : Nat) (leastSignificantBits : Long)

/-- A TC. The last four fields are for the record only. -/
structure TcState (Th : Type) where
  cache : Cache := {}
  current : Th → Option TransactionInfo := fun _ => none
  /-- Every transaction created here. -/
  created : List TransactionInfo := []
  /-- Every log row created here. -/
  logs : List TransactionLog := []
  /-- The ids received from TMs. -/
  issued : List (String × Long) := []
  /-- A transaction has been created since the group id was received. -/
  groupIdTaken : Bool := false
  /-- A log row has been created since the log id was received. -/
  logIdTaken : Bool := false
  /-- The ids drawn at random. -/
  drawn : List Long := []

namespace TcState

variable {Th : Type} [DecidableEq Th]

/-- A reply to the request, if one is made, with ids that were never issued before. -/
def receive (s : TcState Th) (reply : Option SnowflakeCreateEvent) : Option (TcState Th) :=
  let cache := SnowflakeInfo.getGroupIdAndLogId s.cache reply
  match SnowflakeInfo.asks s.cache, reply with
  | true, some event =>
      match event.groupId with
      | none => none
      | some groupId =>
          if groupId ∈ s.issued.map Prod.fst ∨ event.logId ∈ s.issued.map Prod.snd then none
          else some { s with
            cache
            issued := s.issued ++ [(groupId, event.logId)]
            groupIdTaken := false
            logIdTaken := false }
  | _, _ => some { s with cache }

/-- The ids of the log rows. -/
def logIds (s : TcState Th) : List Long := s.logs.map (·.id)

/-- The group ids of the transactions. -/
def groupIds (s : TcState Th) : List (Option String) := s.created.map (·.groupId)

def step (s : TcState Th) : IdentityEvent Th → Option (TcState Th)
  | .getGroupIdAndLogId reply => s.receive reply
  | .refresh key => some { s with cache := s.cache.refresh key }
  | .newTransaction th randomUUID =>
      let (transactionInfo, cache) := TransactionInfo.ofState .CREATE s.cache randomUUID
      some { s with
        cache
        current := Function.update s.current th (some transactionInfo)
        created := s.created ++ [transactionInfo]
        groupIdTaken := true }
  | .joinTransaction th groupId =>
      some { s with
        current := Function.update s.current th (some (TransactionInfo.ofGroup groupId)) }
  | .clear th => some { s with current := Function.update s.current th none }
  | .newTransactionLog th sql now bits =>
      let (log, cache) := TransactionLog.new sql (s.current th) now s.cache bits
      match log with
      | none => some { s with cache }
      | some log =>
          -- without a cached id the cast throws, and the row has the one that was drawn
          match s.cache.lookup LOG_ID with
          | some (.long _) => some { s with cache, logs := s.logs ++ [log], logIdTaken := true }
          | _ => some { s with cache, logs := s.logs ++ [log], drawn := s.drawn ++ [bits] }

/-! What a step does, in terms of what can be read. -/

variable {s t : TcState Th}

omit [DecidableEq Th] in
theorem receive_cases {reply : Option SnowflakeCreateEvent} (h : s.receive reply = some t) :
    ((SnowflakeInfo.asks s.cache = false ∨ reply = none)
        ∧ t = { s with cache := SnowflakeInfo.getGroupIdAndLogId s.cache reply })
      ∨ ∃ event g, SnowflakeInfo.asks s.cache = true ∧ reply = some event
        ∧ event.groupId = some g ∧ g ∉ s.issued.map Prod.fst
        ∧ event.logId ∉ s.issued.map Prod.snd
        ∧ t = { s with
            cache := SnowflakeInfo.getGroupIdAndLogId s.cache (some event)
            issued := s.issued ++ [(g, event.logId)]
            groupIdTaken := false
            logIdTaken := false } := by
  unfold receive at h
  dsimp only at h
  split at h
  · rename_i event hasks
    split at h
    · exact absurd h (by simp)
    · rename_i g hg
      split at h
      · exact absurd h (by simp)
      · rename_i hfresh
        rw [not_or] at hfresh
        exact Or.inr ⟨event, g, hasks, rfl, hg, hfresh.1, hfresh.2, (Option.some.inj h).symm⟩
  · rename_i hother
    refine Or.inl ⟨?_, (Option.some.inj h).symm⟩
    cases hasks : SnowflakeInfo.asks s.cache with
    | false => exact Or.inl rfl
    | true => exact Or.inr (Option.eq_none_iff_forall_ne_some.mpr fun event => hother event hasks)

theorem step_newTransaction {th : Th} {uuid : String} :
    s.step (.newTransaction th uuid) = some { s with
      cache := (s.cache.getGroupId uuid).2
      current := Function.update s.current th
        (some ⟨(s.cache.getGroupId uuid).1, none, .CREATE, none⟩)
      created := s.created ++ [⟨(s.cache.getGroupId uuid).1, none, .CREATE, none⟩]
      groupIdTaken := true } := rfl

/-- A log row is created with the id in the cache, or with the one drawn. -/
theorem step_newTransactionLog {th : Th} (sql : String) (now : Nat) (bits : Long)
    {info : TransactionInfo} (h : s.current th = some info) :
    (∃ id, s.cache.lookup LOG_ID = some (.long id)
        ∧ s.step (.newTransactionLog th sql now bits) = some { s with
            cache := (s.cache.getLogId bits).2
            logs := s.logs ++ [⟨id, info.groupId, sql, now, 0⟩]
            logIdTaken := true })
      ∨ ((∀ id, s.cache.lookup LOG_ID ≠ some (.long id))
        ∧ s.step (.newTransactionLog th sql now bits) = some { s with
            cache := (s.cache.getLogId bits).2
            logs := s.logs ++ [⟨bits, info.groupId, sql, now, 0⟩]
            drawn := s.drawn ++ [bits] }) := by
  simp only [step, TransactionLog.new, h, Option.map_some]
  split
  · rename_i id hid
    exact Or.inl ⟨id, hid, by rw [Cache.getLogId_long hid]⟩
  · rename_i hno
    exact Or.inr ⟨hno, by rw [Cache.getLogId_random hno]⟩

end TcState

end TxLcn.Tc
