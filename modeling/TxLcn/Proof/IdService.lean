import TxLcn.Proof.SnowflakeIdentity
import TxLcn.Proof.SnowflakeDecode

/-!
# The TMs as one source of ids

A TM makes the ids of groups and of log rows with one generator. It is created
with the first id, from the pair that the TM has been given by then, and it knows
nothing of the generators that other TMs have had with that pair before: a TM
that takes a pair over starts with the first sequence number of whatever time its
clock shows.

`ids_never_repeat` puts together the registry of pairs and the generators. As
long as no two live TMs have one pair, only live TMs issue ids, and the clock of
a TM that takes a pair over is past the last id of that pair, no id is ever issued
twice, by whichever TM.
-/

namespace TxLcn.Tm

/-- `SnowflakeHandler.createSnowflake`. -/
def SnowflakeHandler.createSnowflake (workerId dataCenterId : TxLcn.Lib.Long) :
    Except String Snowflake :=
  Snowflake.create none workerId dataCenterId

end TxLcn.Tm

namespace TxLcn.Proof

open TxLcn.Lib TxLcn.Tm TmNodes TmNodeInitiator Snowflake

variable {Tm : Type}

/-- The TMs with their registry, and the generator of each that has made an id. -/
structure IdService (Tm : Type) where
  nodes : TmNodes Tm := {}
  handlers : Tm → Option Issuer := fun _ => none

inductive ServiceEvent (Tm : Type) where
  | node (e : TmNodeEvent Tm)
  /-- `SnowflakeHandler` of a TM makes an id. -/
  | nextId (tm : Tm) (readings : Readings defaultEpoch)

namespace IdService

/-- What the initialisation of the class `SnowflakeHandler` leaves, if it does not throw. -/
def load (i : TmNodeInitiator) : Option Issuer :=
  match i.snowflakeVo with
  | none => none
  | some vo =>
      match SnowflakeHandler.createSnowflake (BitVec.ofNat 64 vo.workerId)
        (BitVec.ofNat 64 vo.dataCenterId) with
      | .ok snowflake => some { snowflake }
      | .error _ => none

/-- The generator of a TM, made now if it has none. -/
def handler (s : IdService Tm) (tm : Tm) : Option Issuer :=
  match s.handlers tm with
  | some g => some g
  | none => load (s.nodes.initiators tm)

variable [DecidableEq Tm]

def step (hostAndPort : Tm → String) (s : IdService Tm) : ServiceEvent Tm → Option (IdService Tm)
  | .node e => (TmNodes.step hostAndPort s.nodes e).map fun nodes => { s with nodes }
  | .nextId tm readings =>
      match s.handler tm with
      | none => none
      | some g =>
          (g.call readings).map fun g' =>
            { s with handlers := Function.update s.handlers tm (some g') }

/-- The ids that a TM has issued. -/
def issued (s : IdService Tm) (tm : Tm) : List Long :=
  match s.handlers tm with
  | some g => g.issued
  | none => []

end IdService

open IdService

/-- The generators put the same identity into their ids. -/
def SamePair (g g' : Issuer) : Prop :=
  g.snowflake.workerId = g'.snowflake.workerId
    ∧ g.snowflake.dataCenterId = g'.snowflake.dataCenterId

/--
Only a live TM makes ids. If it makes its first one, its clock is past the last
id that any other TM has made with the same pair; and a call of `nextId` after an
interrupted one is let in only with a later reading.
-/
def InTurn (s : IdService Tm) : ServiceEvent Tm → Prop
  | .node e => KeptAlive s.nodes e ∧ KeepsToItsOwn s.nodes e
  | .nextId tm readings =>
      (s.nodes.initiators tm).live
        ∧ ∀ g, s.handler tm = some g → LetInLater g readings
          ∧ (s.handlers tm = none → ∀ tm' g', s.handlers tm' = some g' → SamePair g g' →
            ∀ t, readings.clock.head? = some t → g'.snowflake.lastTimestamp.slt t = true)

/-! ## One generator -/

/-- What is known of a generator in use, from the TM it belongs to. -/
structure InUse (i : TmNodeInitiator) (g : Issuer) : Prop where
  inv : IssuerInv defaultEpoch g
  running : Running g
  returned : i.init = .returned
  pair : ∃ vo : SnowflakeVo, i.snowflakeVo = some vo
    ∧ g.snowflake.workerId = BitVec.ofNat 64 vo.workerId
    ∧ g.snowflake.dataCenterId = BitVec.ofNat 64 vo.dataCenterId
  decodes : ∀ id ∈ g.issued, getWorkerId id = g.snowflake.workerId
    ∧ getDataCenterId id = g.snowflake.dataCenterId

variable {g g' : Issuer} {readings : Readings defaultEpoch}

theorem InUse.epoch {i : TmNodeInitiator} (h : InUse i g) :
    g.snowflake.twepoch = defaultEpoch := h.inv.epoch

/-- A generator has issued an id, or it is new. -/
theorem started_cases (hI : IssuerInv defaultEpoch g) :
    Ready defaultEpoch g.snowflake.workerId g.snowflake.dataCenterId g.snowflake := by
  refine ⟨hI.epoch, rfl, rfl, hI.wf, ?_⟩
  rcases hI.started with ⟨hlast, _, _⟩ | hr
  · exact Or.inl hlast
  · exact Or.inr (hI.epoch ▸ hr.last)

/-- What a call does to the identity, to the time and to the ids. -/
structure Called (g g' : Issuer) : Prop where
  worker : g'.snowflake.workerId = g.snowflake.workerId
  dataCenter : g'.snowflake.dataCenterId = g.snowflake.dataCenterId
  /-- An id is made of the time that is stored. -/
  issued : g'.issued = g.issued ∨ ∃ id n : Long, g'.issued = g.issued ++ [id] ∧ n.toNat < 4096
    ∧ id = g.snowflake.compose g'.snowflake.lastTimestamp n
    ∧ getWorkerId id = g.snowflake.workerId ∧ getDataCenterId id = g.snowflake.dataCenterId

theorem called_of_call (hI : IssuerInv defaultEpoch g) (h : g.call readings = some g') :
    Called g g' := by
  have hready := started_cases hI
  rcases call_some h with ⟨id, s, heq, rfl⟩ | ⟨e, s, heq, rfl⟩
  · obtain ⟨hready', hissued⟩ := nextId_ready hready readings.inRange heq
    have hby := hissued id rfl
    have hdecodes := hby.decodes hready.wf (hready'.epoch.trans hready.epoch.symm)
    exact ⟨hready'.worker, hready'.dataCenter, Or.inr ⟨id, s.sequence, rfl, hby.sequence,
      hby.composed, hdecodes.worker, hdecodes.dataCenter⟩⟩
  · obtain ⟨hready', _⟩ := nextId_ready hready readings.inRange heq
    exact ⟨hready'.worker, hready'.dataCenter, Or.inl rfl⟩

/-- The time of a generator in use does not go back. -/
theorem call_lastTimestamp (hI : IssuerInv defaultEpoch g) (hr : Running g)
    (h : g.call readings = some g') :
    g.snowflake.lastTimestamp.toNat ≤ g'.snowflake.lastTimestamp.toNat := by
  have hended : ∃ r, Ended g.snowflake readings.clock r g'.snowflake := by
    rcases call_some h with ⟨id, s, heq, rfl⟩ | ⟨e, s, heq, rfl⟩
    · exact ⟨_, nextId_ended hI.wf hr.last (readings_inRange hI readings) heq⟩
    · exact ⟨_, nextId_ended hI.wf hr.last (readings_inRange hI readings) heq⟩
  obtain ⟨r, hended⟩ := hended
  generalize g'.snowflake = s' at hended
  cases hended with
  | refused _ _ => exact Nat.le_refl _
  | interrupted _ _ _ _ => exact Nat.le_refl _
  | sameMillis _ _ _ _ _ => exact Nat.le_refl _
  | laterMillis _ _ _ hlater => exact Nat.le_of_lt hlater

/-- The first call of a generator stores the time that it reads. -/
theorem call_first (hI : IssuerInv defaultEpoch g) (hlast : g.snowflake.lastTimestamp = -1)
    (h : g.call readings = some g') : ∃ t, readings.clock.head? = some t
      ∧ InRange defaultEpoch t ∧ g'.snowflake.lastTimestamp = t := by
  have hrange := readings_inRange hI readings
  obtain ⟨clock, hclock⟩ := readings
  cases clock with
  | nil => simp [Issuer.call, nextId] at h
  | cons t clock =>
      have ht : InRange g.snowflake.twepoch t := hrange t List.mem_cons_self
      have hepoch := hI.wf.epoch
      have hfirst : g.snowflake.nextId (t :: clock) = some (g.snowflake.issue t 0 clock) :=
        nextId_first hlast (by have := ht.2; omega)
      refine ⟨t, rfl, hI.epoch ▸ ht, ?_⟩
      rcases call_some h with ⟨id, s, heq, rfl⟩ | ⟨e, s, heq, rfl⟩
      · rw [hfirst] at heq
        cases heq
        rfl
      · rw [hfirst] at heq
        exact absurd heq (by simp [issue])

/-- All ids of a generator in use are below those of its pair with a later time. -/
theorem InUse.not_mem_of_later {i : TmNodeInitiator} (h : InUse i g) {s : Snowflake} {t n : Long}
    (hepoch : s.twepoch = defaultEpoch) (hworker : s.workerId = g.snowflake.workerId)
    (hcenter : s.dataCenterId = g.snowflake.dataCenterId) (ht : InRange defaultEpoch t)
    (hn : n.toNat < 4096) (hlater : g.snowflake.lastTimestamp.toNat < t.toNat) :
    s.compose t n ∉ g.issued := by
  intro hmem
  have hbound := h.running.bound _ hmem
  have hsame : s.compose t n = g.snowflake.compose t n := by
    unfold compose
    rw [hepoch, hworker, hcenter, h.epoch]
  have htop : (if g.interrupted = true then (4095 : Long) else g.snowflake.sequence).toNat
      < 4096 := by
    split
    · decide
    · exact h.inv.wf.sequence
  have habove : g.top.toNat < (g.snowflake.compose t n).toNat :=
    compose_lt_compose h.inv.wf h.running.last (by rwa [h.epoch]) htop hn (Or.inl hlater)
  rw [hsame] at hbound
  omega

/-! ## All of them -/

/-- What holds as long as everybody makes ids in turn. -/
structure Unrepeated (s : IdService Tm) : Prop where
  owners : OwnersKnown s.nodes
  inUse : ∀ tm g, s.handlers tm = some g → InUse (s.nodes.initiators tm) g
  /-- A live TM is ahead of all others that have had its pair. -/
  ahead : ∀ tm tm' g g', tm' ≠ tm → s.handlers tm = some g → s.handlers tm' = some g' →
    SamePair g g' → (s.nodes.initiators tm).live →
    g'.snowflake.lastTimestamp.toNat < g.snowflake.lastTimestamp.toNat
  distinct : ∀ tm tm' g g', tm' ≠ tm → s.handlers tm = some g → s.handlers tm' = some g' →
    ∀ id ∈ g.issued, id ∉ g'.issued

variable [DecidableEq Tm] {hostAndPort : Tm → String} {s t : IdService Tm}

/-- A TM that has returned from `init` keeps its pair, and is not live again once it is not. -/
theorem nodes_step_returned {n n' : TmNodes Tm} {e : TmNodeEvent Tm}
    (h : TmNodes.step hostAndPort n e = some n') (tm : Tm)
    (hret : (n.initiators tm).init = .returned) :
    (n'.initiators tm).init = .returned
      ∧ (n'.initiators tm).snowflakeVo = (n.initiators tm).snowflakeVo
      ∧ ((n'.initiators tm).live → (n.initiators tm).live) := by
  have hsame : n'.initiators tm = n.initiators tm → _ := fun heq =>
    (show (n'.initiators tm).init = .returned
      ∧ (n'.initiators tm).snowflakeVo = (n.initiators tm).snowflakeVo
      ∧ ((n'.initiators tm).live → (n.initiators tm).live) by rw [heq]; exact ⟨hret, rfl, id⟩)
  cases e with
  | setIfAbsent tm' =>
      simp only [TmNodes.step] at h
      split at h
      · cases h
      · rename_i hinit
        cases h
        have hne : tm ≠ tm' := by
          rintro rfl
          exact hinit (by rw [hret]; simp)
        refine hsame ?_
        rw [setInitiator_of_ne hne, register_initiators]
  | hasKey tm' =>
      simp only [TmNodes.step] at h
      split at h
      · rename_i isSetKey hinit
        cases h
        have hne : tm ≠ tm' := by
          rintro rfl
          rw [hret] at hinit
          cases hinit
        exact hsame (setInitiator_of_ne hne)
      · cases h
  | getTmNodeInfo tm' =>
      simp only [TmNodes.step] at h
      split at h
      · cases h
      · cases h
        by_cases hne : tm = tm'
        · subst hne
          rw [setInitiator_self]
          exact ⟨hret, rfl, id⟩
        · exact hsame (setInitiator_of_ne hne)
  | set tm' connections =>
      simp only [TmNodes.step] at h
      obtain ⟨tmNodeInfo, _, rfl⟩ := Option.map_eq_some_iff.mp h
      by_cases hne : tm = tm'
      · subst hne
        dsimp only
        rw [Function.update_self]
        exact ⟨hret, rfl, id⟩
      · exact hsame (Function.update_of_ne hne ..)
  | destroy tm' =>
      simp only [TmNodes.step] at h
      split at h
      · cases h
      · cases h
        by_cases hne : tm = tm'
        · subst hne
          dsimp only
          rw [Function.update_self]
          refine ⟨hret, rfl, fun hlive => ?_⟩
          rw [live_iff] at hlive
          cases hlive.2
        · exact hsame (Function.update_of_ne hne ..)
  | expire key =>
      cases h
      exact hsame rfl

omit [DecidableEq Tm] in
/-- Live TMs that have made ids with one pair are one. -/
theorem Unrepeated.eq_of_samePair (hs : Unrepeated s) {tm tm' : Tm} {i i' : TmNodeInitiator}
    (hi : s.nodes.initiators tm = i) (hi' : s.nodes.initiators tm' = i')
    (h : InUse i g) (h' : InUse i' g') (hlive : i.live) (hlive' : i'.live)
    (hpair : SamePair g g') : tm = tm' := by
  obtain ⟨vo, hvo, hw, hd⟩ := h.pair
  obtain ⟨vo', hvo', hw', hd'⟩ := h'.pair
  have hof : ∀ {a b : Nat}, a ≤ 31 → b ≤ 31 → BitVec.ofNat 64 a = BitVec.ofNat 64 b → a = b := by
    intro a b ha hb heq
    have hnat := congrArg BitVec.toNat heq
    rw [BitVec.toNat_ofNat, BitVec.toNat_ofNat, Nat.mod_eq_of_lt (by omega),
      Nat.mod_eq_of_lt (by omega)] at hnat
    exact hnat
  have hworker : vo.workerId = vo'.workerId :=
    hof vo.workerId_mem.2 vo'.workerId_mem.2 (by rw [← hw, hpair.1, hw'])
  have hcenter : vo.dataCenterId = vo'.dataCenterId :=
    hof vo.dataCenterId_mem.2 vo'.dataCenterId_mem.2 (by rw [← hd, hpair.2, hd'])
  refine hs.owners.identityUnshared.1 tm tm' vo.pair ?_ ?_
  · rw [identity, hi, if_pos hlive, hvo]
    rfl
  · rw [identity, hi', if_pos hlive', hvo', Option.map_some, SnowflakeVo.pair, SnowflakeVo.pair,
      hworker, hcenter]

theorem unrepeated_node {e : TmNodeEvent Tm} (hs : Unrepeated s) (hC : InTurn s (.node e))
    (h : s.step hostAndPort (.node e) = some t) : Unrepeated t := by
  obtain ⟨nodes, hnodes, rfl⟩ := Option.map_eq_some_iff.mp h
  refine ⟨ownersKnown_step hs.owners hC hnodes, ?_, ?_, hs.distinct⟩
  · intro tm g hg
    have hin := hs.inUse tm g hg
    obtain ⟨hret, hvo, _⟩ := nodes_step_returned hnodes tm hin.returned
    exact ⟨hin.inv, hin.running, hret, hvo.symm ▸ hin.pair, hin.decodes⟩
  · intro tm tm' g g' hne hg hg' hpair hlive
    obtain ⟨_, _, hback⟩ := nodes_step_returned hnodes tm (hs.inUse tm g hg).returned
    exact hs.ahead tm tm' g g' hne hg hg' hpair (hback hlive)

omit [DecidableEq Tm] in
/-- The generator of a live TM, in use or new. -/
theorem Unrepeated.handler_some (hs : Unrepeated s) {tm : Tm} (h : s.handler tm = some g) :
    IssuerInv defaultEpoch g
      ∧ (∃ vo : SnowflakeVo, (s.nodes.initiators tm).snowflakeVo = some vo
        ∧ g.snowflake.workerId = BitVec.ofNat 64 vo.workerId
        ∧ g.snowflake.dataCenterId = BitVec.ofNat 64 vo.dataCenterId)
      ∧ (InUse (s.nodes.initiators tm) g ∧ s.handlers tm = some g
        ∨ s.handlers tm = none ∧ g.snowflake.lastTimestamp = -1 ∧ g.issued = []) := by
  unfold handler at h
  split at h
  · rename_i g₀ hg
    cases h
    have hin := hs.inUse tm g hg
    exact ⟨hin.inv, hin.pair, Or.inl ⟨hin, hg⟩⟩
  · rename_i hnone
    unfold load at h
    split at h
    · cases h
    · rename_i vo hvo
      split at h
      · rename_i snowflake hcreate
        cases h
        have hepoch : snowflake.twepoch = defaultEpoch := by
          unfold SnowflakeHandler.createSnowflake create at hcreate
          split at hcreate
          · cases hcreate
          · split at hcreate <;> cases hcreate
            rfl
        have hready := create_ready hcreate (by rw [hepoch]; decide)
        have hlast := (create_wellFormed hcreate (by rw [hepoch]; decide)).2.2
        exact ⟨hepoch ▸ issuerInv_init hcreate (by rw [hepoch]; decide),
          ⟨vo, hvo, hready.worker, hready.dataCenter⟩, Or.inr ⟨hnone, hlast, rfl⟩⟩
      · cases h

theorem inRange_lt {t : Long} (h : InRange defaultEpoch t) : t.toNat < 2 ^ 63 := by
  have hbase : defaultEpoch.toNat + 2 ^ 41 < 2 ^ 63 := by decide
  exact Nat.lt_trans h.2 hbase

omit [DecidableEq Tm] in
/-- **A live TM goes past every other one that has had its pair.** -/
theorem Unrepeated.later (hs : Unrepeated s) {tm tm' : Tm} {g₂ : Issuer}
    (hC : InTurn s (.nextId tm readings)) (hg : s.handler tm = some g)
    (hcall : g.call readings = some g') (hne : tm' ≠ tm) (hg₂ : s.handlers tm' = some g₂)
    (hpair : SamePair g g₂) :
    g₂.snowflake.lastTimestamp.toNat < g'.snowflake.lastTimestamp.toNat := by
  obtain ⟨hlive, hcond⟩ := hC
  obtain ⟨hI, _, hcases⟩ := hs.handler_some hg
  rcases hcases with ⟨hin, hold⟩ | ⟨hnone, hlast, _⟩
  · -- it was ahead, and its time does not go back
    have hahead := hs.ahead tm tm' g g₂ hne hold hg₂ hpair hlive
    have hmono := call_lastTimestamp hI hin.running hcall
    omega
  · obtain ⟨t, hhead, ht, hstored⟩ := call_first hI hlast hcall
    have hpast := (hcond g hg).2 hnone tm' g₂ hg₂ hpair t hhead
    have hin₂ := hs.inUse tm' g₂ hg₂
    have hrange : InRange defaultEpoch g₂.snowflake.lastTimestamp :=
      hin₂.epoch ▸ hin₂.running.last
    rw [hstored]
    exact (Long.slt_iff (inRange_lt hrange) (inRange_lt ht)).mp hpast

omit [DecidableEq Tm] in
theorem Unrepeated.inUse_call (hs : Unrepeated s) {tm : Tm}
    (hC : InTurn s (.nextId tm readings)) (hg : s.handler tm = some g)
    (hcall : g.call readings = some g') : InUse (s.nodes.initiators tm) g' := by
  obtain ⟨hlive, hcond⟩ := hC
  obtain ⟨hI, hpair, hcases⟩ := hs.handler_some hg
  have hI' := issuerInv_call hI (hcond g hg).1 hcall
  have hcalled := called_of_call hI hcall
  have hrunning : Running g' := by
    rcases hI'.started with ⟨hlast', hnone', _⟩ | hr
    · exfalso
      rcases hcases with ⟨hin, _⟩ | ⟨_, hlast, _⟩
      · have hmem := (call_issued_extends hcall).subset hin.running.mem
        rw [hnone'] at hmem
        exact absurd hmem List.not_mem_nil
      · obtain ⟨t, _, ht, hstored⟩ := call_first hI hlast hcall
        exact Long.ne_neg_one (inRange_lt ht) (hstored.symm.trans hlast')
    · exact hr
  have hold : ∀ id ∈ g.issued, getWorkerId id = g.snowflake.workerId
      ∧ getDataCenterId id = g.snowflake.dataCenterId := by
    rcases hcases with ⟨hin, _⟩ | ⟨_, _, hnone⟩
    · exact hin.decodes
    · rw [hnone]
      exact fun id hid => absurd hid List.not_mem_nil
  refine ⟨hI', hrunning, (live_iff.mp hlive).1, ?_, ?_⟩
  · rw [hcalled.worker, hcalled.dataCenter]
    exact hpair
  · rw [hcalled.worker, hcalled.dataCenter]
    rcases hcalled.issued with hsame | ⟨id, n, hmore, _, _, hread⟩
    · rw [hsame]
      exact hold
    · rw [hmore]
      intro id' hid'
      rcases List.mem_append.mp hid' with hid' | hid'
      · exact hold id' hid'
      · rw [List.mem_singleton.mp hid']
        exact hread

omit [DecidableEq Tm] in
/-- No other TM has issued what this call issues. -/
theorem Unrepeated.fresh (hs : Unrepeated s) {tm tm' : Tm} {g₂ : Issuer}
    (hC : InTurn s (.nextId tm readings)) (hg : s.handler tm = some g)
    (hcall : g.call readings = some g') (hne : tm' ≠ tm) (hg₂ : s.handlers tm' = some g₂) :
    ∀ id ∈ g'.issued, id ∉ g₂.issued := by
  obtain ⟨hI, _, hcases⟩ := hs.handler_some hg
  have hcalled := called_of_call hI hcall
  have hin₂ := hs.inUse tm' g₂ hg₂
  have hold : ∀ id ∈ g.issued, id ∉ g₂.issued := by
    rcases hcases with ⟨_, hgot⟩ | ⟨_, _, hnone⟩
    · exact hs.distinct tm tm' g g₂ hne hgot hg₂
    · rw [hnone]
      exact fun id hid => absurd hid List.not_mem_nil
  rcases hcalled.issued with hsame | ⟨id, n, hmore, hn, hid, hworker, hcenter⟩
  · rw [hsame]
    exact hold
  · rw [hmore]
    intro id' hid'
    rcases List.mem_append.mp hid' with hid' | hid'
    · exact hold id' hid'
    · rw [List.mem_singleton.mp hid']
      by_cases hpair : SamePair g g₂
      · rw [hid]
        have hin' := hs.inUse_call hC hg hcall
        have ht : InRange defaultEpoch g'.snowflake.lastTimestamp :=
          hin'.epoch ▸ hin'.running.last
        exact hin₂.not_mem_of_later hI.epoch hpair.1 hpair.2 ht hn
          (hs.later hC hg hcall hne hg₂ hpair)
      · -- an id is read in one way only
        intro hmem
        obtain ⟨hworker₂, hcenter₂⟩ := hin₂.decodes _ hmem
        exact hpair ⟨hworker.symm.trans hworker₂, hcenter.symm.trans hcenter₂⟩

theorem unrepeated_nextId {tm : Tm} (hs : Unrepeated s) (hC : InTurn s (.nextId tm readings))
    (h : s.step hostAndPort (.nextId tm readings) = some t) : Unrepeated t := by
  simp only [IdService.step] at h
  split at h
  · cases h
  · rename_i g hg
    obtain ⟨g', hcall, rfl⟩ := Option.map_eq_some_iff.mp h
    have hin' := hs.inUse_call hC hg hcall
    have hcalled : SamePair g' g :=
      ⟨(called_of_call (hs.handler_some hg).1 hcall).worker,
        (called_of_call (hs.handler_some hg).1 hcall).dataCenter⟩
    have hself : Function.update s.handlers tm (some g') tm = some g' := Function.update_self ..
    have hother : ∀ tm', tm' ≠ tm → Function.update s.handlers tm (some g') tm' = s.handlers tm' :=
      fun tm' hne => Function.update_of_ne hne ..
    refine ⟨hs.owners, ?_, ?_, ?_⟩
    · intro tm' g₂ hg₂
      by_cases hne : tm' = tm
      · subst hne
        cases hself.symm.trans hg₂
        exact hin'
      · exact hs.inUse tm' g₂ ((hother tm' hne).symm.trans hg₂)
    · intro a b ga gb hne hga hgb hpair hlive
      by_cases ha : a = tm
      · subst ha
        cases hself.symm.trans hga
        have hgb' := (hother b hne).symm.trans hgb
        exact hs.later hC hg hcall hne hgb' ⟨hcalled.1.symm.trans hpair.1,
          hcalled.2.symm.trans hpair.2⟩
      · have hga' := (hother a ha).symm.trans hga
        by_cases hb : b = tm
        · -- two live TMs with one pair
          subst hb
          cases hself.symm.trans hgb
          exact absurd (hs.eq_of_samePair rfl rfl (hs.inUse a ga hga') hin' hlive hC.1 hpair) ha
        · exact hs.ahead a b ga gb hne hga' ((hother b hb).symm.trans hgb) hpair hlive
    · intro a b ga gb hne hga hgb
      by_cases ha : a = tm
      · subst ha
        cases hself.symm.trans hga
        exact hs.fresh hC hg hcall hne ((hother b hne).symm.trans hgb)
      · have hga' := (hother a ha).symm.trans hga
        by_cases hb : b = tm
        · subst hb
          cases hself.symm.trans hgb
          intro id hid hid'
          exact hs.fresh hC hg hcall ha hga' id hid' hid
        · exact hs.distinct a b ga gb hne hga' ((hother b hb).symm.trans hgb)

theorem unrepeated_step {e : ServiceEvent Tm} (hs : Unrepeated s) (hC : InTurn s e)
    (h : s.step hostAndPort e = some t) : Unrepeated t := by
  cases e with
  | node e => exact unrepeated_node hs hC h
  | nextId tm readings => exact unrepeated_nextId hs hC h

omit [DecidableEq Tm] in
theorem unrepeated_init : Unrepeated ({} : IdService Tm) where
  owners := ownersKnown_init
  inUse := by
    intro tm g h
    cases h
  ahead := by
    intro tm tm' g g' _ h
    cases h
  distinct := by
    intro tm tm' g g' _ h
    cases h

/--
**No id is issued twice.**

In every run of any number of TMs that start, refresh their records, are
destroyed and make ids in turn, a call after an interrupted one with a later
reading only, the ids of each TM are increasing, and no two TMs have an id in
common, those that had one pair one after the other included.
-/
theorem ids_never_repeat (hostAndPort : Tm → String) (es : List (ServiceEvent Tm))
    (s : IdService Tm) (hC : AllSteps (IdService.step hostAndPort) InTurn {} es)
    (hrun : exec (IdService.step hostAndPort) {} es = some s) :
    (∀ tm, Increasing (s.issued tm) ∧ (s.issued tm).Nodup)
      ∧ ∀ tm tm', tm' ≠ tm → ∀ id ∈ s.issued tm, id ∉ s.issued tm' := by
  have hs : Unrepeated s := exec_invariant_of_allSteps
    (fun _ _ _ hI hc hstep => unrepeated_step hI hc hstep) unrepeated_init hC hrun
  refine ⟨fun tm => ?_, fun tm tm' hne id hid => ?_⟩
  · unfold issued
    cases hg : s.handlers tm with
    | none => exact ⟨List.Pairwise.nil, List.nodup_nil⟩
    | some g =>
        have hinc := (hs.inUse tm g hg).inv.increasing
        exact ⟨hinc, hinc.nodup⟩
  · unfold issued at hid ⊢
    cases hg : s.handlers tm with
    | none =>
        rw [hg] at hid
        exact absurd hid List.not_mem_nil
    | some g =>
        rw [hg] at hid
        cases hg' : s.handlers tm' with
        | none => exact List.not_mem_nil
        | some g' => exact hs.distinct tm tm' g g' hne hg hg' id hid

/-- A TM makes an id and is destroyed, and another one takes its pair a millisecond later. -/
def takenOver : List (ServiceEvent Bool) :=
  [.node (.setIfAbsent false), .node (.hasKey false), .nextId false (readAt 5),
    .node (.destroy false), .node (.setIfAbsent true), .node (.hasKey true),
    .nextId true (readAt 6)]

theorem ids_of_both : ∃ s : IdService Bool,
    exec (IdService.step fun _ => "10.0.0.1:8070") {} takenOver = some s
      ∧ s.issued false = [0x1421000] ∧ s.issued true = [0x1821000]
      ∧ ∀ id ∈ s.issued true, id ∉ s.issued false := by
  have hC : AllSteps (IdService.step fun _ : Bool => "10.0.0.1:8070") InTurn {} takenOver := by
    refine (allSteps_cons rfl).mpr ⟨⟨trivial, trivial⟩, ?_⟩
    refine (allSteps_cons rfl).mpr ⟨⟨trivial, fun _ => ⟨_, rfl, rfl⟩⟩, ?_⟩
    refine (allSteps_cons rfl).mpr ⟨⟨rfl, ?_⟩, ?_⟩
    · intro g hg
      cases hg
      refine ⟨fun hi => (by cases hi), fun _ tm' g' hg' => ?_⟩
      cases hg'
    refine (allSteps_cons rfl).mpr ⟨⟨trivial, fun _ _ => Or.inl rfl⟩, ?_⟩
    refine (allSteps_cons rfl).mpr ⟨⟨trivial, trivial⟩, ?_⟩
    refine (allSteps_cons rfl).mpr ⟨⟨trivial, fun _ => ⟨_, rfl, rfl⟩⟩, ?_⟩
    refine (allSteps_cons rfl).mpr ⟨⟨rfl, ?_⟩, trivial⟩
    intro g hg
    cases hg
    refine ⟨fun hi => (by cases hi), fun _ tm' g' hg' _ t ht => ?_⟩
    cases tm' with
    | false =>
        cases hg'
        cases ht
        rfl
    | true => cases hg'
  exact ⟨_, rfl, rfl, rfl, (ids_never_repeat _ _ _ hC rfl).2 true false (by decide)⟩

end TxLcn.Proof
