import Mathlib.Logic.Function.Basic
import TxLcn.Lib.Exec
import TxLcn.Tm.TmNode

/-!
# How a TM gets its snowflake identity

A TM that starts goes through the pairs of a data center and a worker, and
registers itself in the common store under the first one that is free there. The
record expires, so a scheduled task reads it and writes it back, and it is
deleted when the TM is destroyed.

Every access to the store is a step of its own, in any order with those of the
other TMs. A TM does not look at what it has written: whoever wrote a record is
known here only for the record.
-/

namespace TxLcn.Tm

open TxLcn.Lib

/-- The pair is made by `nextKey` alone, which keeps both numbers within their bounds. -/
structure SnowflakeVo where
  dataCenterId : Nat
  workerId : Nat
  dataCenterId_mem : 1 ≤ dataCenterId ∧ dataCenterId ≤ 31
  workerId_mem : 1 ≤ workerId ∧ workerId ≤ 31
  deriving DecidableEq

/-- `String.format("%s_%d_%d", TX_MANAGER, dataCenterId, workerId)`. -/
def tmIdOf (dataCenterId workerId : Nat) : String :=
  "TxManager_" ++ toString dataCenterId ++ "_" ++ toString workerId

namespace SnowflakeVo

/-- What the `Snowflake` of the TM is created with. -/
def pair (vo : SnowflakeVo) : Nat × Nat := (vo.dataCenterId, vo.workerId)

def tmId (vo : SnowflakeVo) : String := tmIdOf vo.dataCenterId vo.workerId

/-- `new SnowflakeVo(1L, 1L)`. -/
def first : SnowflakeVo where
  dataCenterId := 1
  workerId := 1
  dataCenterId_mem := by decide
  workerId_mem := by decide

end SnowflakeVo

/-- The next pair, and whether it has started from the first one again (`stopTrying`). -/
def nextKey : Option SnowflakeVo → SnowflakeVo × Bool
  | none => (.first, false)
  | some vo =>
      if hw : vo.workerId < 31 then
        ({ vo with workerId := vo.workerId + 1, workerId_mem := ⟨Nat.succ_pos _, hw⟩ }, false)
      else if hd : vo.dataCenterId < 31 then
        ({ dataCenterId := vo.dataCenterId + 1
           workerId := 1
           dataCenterId_mem := ⟨Nat.succ_pos _, hd⟩
           workerId_mem := by decide }, false)
      else (.first, true)

/-- How many pairs come before `nextKey` starts again. -/
def pairsLeft : Option SnowflakeVo → Nat
  | none => 961
  | some vo => 31 * (31 - vo.dataCenterId) + (31 - vo.workerId)

theorem nextKey_pairsLeft {vo : Option SnowflakeVo} (h : (nextKey vo).2 = false) :
    pairsLeft (some (nextKey vo).1) < pairsLeft vo := by
  cases vo with
  | none => decide
  | some vo =>
      have hdc := vo.dataCenterId_mem
      simp only [nextKey] at h ⊢
      split
      · simp only [pairsLeft]
        omega
      · split
        · simp only [pairsLeft]
          omega
        · rename_i hw hd
          rw [dif_neg hw, dif_neg hd] at h
          cases h

/-- Where `init` of a TM is: before a `tryInit`, between its two accesses, or through. -/
inductive Init where
  | attempting
  | checking (isSetKey : Bool)
  | returned
  deriving Repr, DecidableEq

/-- One TM: its static fields, and where its calls are. -/
structure TmNodeInitiator where
  snowflakeVo : Option SnowflakeVo := none
  stopTrying : Bool := false
  init : Init := .attempting
  /-- What a `resetExpire` has read and not yet written back. -/
  tmNodeInfo : Option TmNodeInfo := none
  destroyed : Bool := false
  deriving DecidableEq

namespace TmNodeInitiator

/-- Set from `snowflakeVo` by every `tryInit`. -/
def tmId (i : TmNodeInitiator) : Option String := i.snowflakeVo.map SnowflakeVo.tmId

/-- Returned from `init` and not destroyed. -/
def live (i : TmNodeInitiator) : Bool := i.init = .returned && !i.destroyed

/-- `tryInit` up to `setIfAbsent`, which has answered `isSetKey`. -/
def tryInit (i : TmNodeInitiator) (isSetKey : Bool) : TmNodeInitiator :=
  { i with
    snowflakeVo := some (nextKey i.snowflakeVo).1
    stopTrying := i.stopTrying || (nextKey i.snowflakeVo).2
    init := .checking isSetKey }

/-- The rest of `tryInit`, and whether `init` returns or calls itself. -/
def checked (i : TmNodeInitiator) (isSetKey isHasKey : Bool) : TmNodeInitiator :=
  { i with
    init := if isHasKey && isSetKey then .returned
      else if i.stopTrying then .returned
      else .attempting }

theorem live_iff {i : TmNodeInitiator} : i.live ↔ i.init = .returned ∧ i.destroyed = false := by
  simp [live]

end TmNodeInitiator

/--
A value of the store and, for the record only, who has put the key there. To
overwrite the value does not change that.
-/
structure Entry (Tm : Type) where
  tmNodeInfo : TmNodeInfo
  registrant : Tm
  deriving Repr, DecidableEq

/-- All TMs and the store they share. -/
structure TmNodes (Tm : Type) where
  initiators : Tm → TmNodeInitiator := fun _ => {}
  redis : String → Option (Entry Tm) := fun _ => none
  /--
  For the record only: a `resetExpire` or `destroy` has overwritten or removed
  what another TM that is live has registered.
  -/
  harmed : Bool := false

/-- One access to the store. -/
inductive TmNodeEvent (Tm : Type) where
  /-- `tryInit` up to `setIfAbsent`. -/
  | setIfAbsent (tm : Tm)
  /-- The rest of `tryInit`, and what `init` makes of it. -/
  | hasKey (tm : Tm)
  /-- `resetExpire`, which reads -/
  | getTmNodeInfo (tm : Tm)
  /-- and writes back with the number of connections. -/
  | set (tm : Tm) (connections : Nat)
  | destroy (tm : Tm)
  /-- The store drops a key. -/
  | expire (key : String)
  deriving Repr, DecidableEq

namespace TmNodes

variable {Tm : Type} [DecidableEq Tm]

/-- Another TM has registered under `key`, and is live. -/
def harms (s : TmNodes Tm) (tm : Tm) (key : String) : Bool :=
  (s.redis key).any fun entry => entry.registrant ≠ tm && (s.initiators entry.registrant).live

/-- Who has registered under `key`, or does so now by writing. -/
def registrant (s : TmNodes Tm) (tm : Tm) (key : String) : Tm :=
  ((s.redis key).map Entry.registrant).getD tm

/-- `tm` goes on as `i`. -/
def setInitiator (s : TmNodes Tm) (tm : Tm) (i : TmNodeInitiator) : TmNodes Tm :=
  { s with initiators := Function.update s.initiators tm i }

section setInitiator

variable {s : TmNodes Tm} {tm tm' : Tm} {i : TmNodeInitiator}

@[simp] theorem setInitiator_self : (s.setInitiator tm i).initiators tm = i :=
  Function.update_self ..

theorem setInitiator_of_ne (h : tm' ≠ tm) :
    (s.setInitiator tm i).initiators tm' = s.initiators tm' := Function.update_of_ne h ..

end setInitiator

/-- `tmNodeRepository.setIfAbsent`, as far as the store is concerned. -/
def register (s : TmNodes Tm) (tm : Tm) (tmNodeInfo : TmNodeInfo) : TmNodes Tm :=
  if (s.redis tmNodeInfo.tmId).isSome then s
  else
    { s with
      redis := Function.update s.redis tmNodeInfo.tmId (some { tmNodeInfo, registrant := tm }) }

omit [DecidableEq Tm] in
/-- Registering takes nobody's record away. -/
theorem register_redis {s : TmNodes Tm} {tm : Tm} {tmNodeInfo : TmNodeInfo} {key : String}
    {entry : Entry Tm} (h : s.redis key = some entry) :
    (s.register tm tmNodeInfo).redis key = some entry := by
  unfold register
  split
  · exact h
  · rename_i hfree
    have hne : key ≠ tmNodeInfo.tmId := by
      rintro rfl
      exact hfree (by rw [h]; rfl)
    exact (Function.update_of_ne hne ..).trans h

omit [DecidableEq Tm] in
theorem register_initiators {s : TmNodes Tm} {tm : Tm} {tmNodeInfo : TmNodeInfo} :
    (s.register tm tmNodeInfo).initiators = s.initiators := by
  unfold register
  split <;> rfl

/-- `hostAndPort` is what each TM finds of itself. -/
def step (hostAndPort : Tm → String) (s : TmNodes Tm) : TmNodeEvent Tm → Option (TmNodes Tm)
  | .setIfAbsent tm =>
      let i := s.initiators tm
      if i.init ≠ .attempting then none
      else
        let tmId := (nextKey i.snowflakeVo).1.tmId
        let tmNodeInfo := { tmId, hostAndPort := hostAndPort tm, connection := 0 }
        some ((s.register tm tmNodeInfo).setInitiator tm (i.tryInit !(s.redis tmId).isSome))
  | .hasKey tm =>
      let i := s.initiators tm
      match i.init with
      | .checking isSetKey =>
          some (s.setInitiator tm (i.checked isSetKey (i.tmId.bind s.redis).isSome))
      | _ => none
  | .getTmNodeInfo tm =>
      let i := s.initiators tm
      if i.tmNodeInfo.isSome then none
      else
        -- without a value the task ends here, with a `NullPointerException`
        some <| s.setInitiator tm
          { i with tmNodeInfo := (i.tmId.bind s.redis).map Entry.tmNodeInfo }
  | .set tm connections =>
      let i := s.initiators tm
      i.tmNodeInfo.map fun tmNodeInfo =>
        { initiators := Function.update s.initiators tm { i with tmNodeInfo := none }
          redis := Function.update s.redis tmNodeInfo.tmId
            (some
              { tmNodeInfo := { tmNodeInfo with connection := connections }
                registrant := s.registrant tm tmNodeInfo.tmId })
          harmed := s.harmed || s.harms tm tmNodeInfo.tmId }
  | .destroy tm =>
      let i := s.initiators tm
      if i.destroyed then none
      else
        some
          { initiators := Function.update s.initiators tm { i with destroyed := true }
            redis := fun key => if i.tmId = some key then none else s.redis key
            harmed := s.harmed || i.tmId.any (s.harms tm) }
  | .expire key => some { s with redis := Function.update s.redis key none }

section step

variable (hostAndPort : Tm → String) {s : TmNodes Tm} {tm : Tm}

theorem step_setIfAbsent (h : (s.initiators tm).init = .attempting) :
    ∃ s' : TmNodes Tm, s'.initiators = s.initiators ∧ ∃ isSetKey,
      step hostAndPort s (.setIfAbsent tm)
        = some (s'.setInitiator tm ((s.initiators tm).tryInit isSetKey)) :=
  ⟨_, register_initiators, _, if_neg (by simp [h])⟩

theorem step_hasKey {isSetKey : Bool} (h : (s.initiators tm).init = .checking isSetKey) :
    step hostAndPort s (.hasKey tm) = some (s.setInitiator tm ((s.initiators tm).checked isSetKey
      ((s.initiators tm).tmId.bind s.redis).isSome)) := by
  simp only [step, h]

end step

end TmNodes

end TxLcn.Tm
