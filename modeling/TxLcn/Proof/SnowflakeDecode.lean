import TxLcn.Proof.SnowflakeOrder

/-!
# An id says where and when it was issued

Whatever a generator has been through, the timestamp and the sequence that
`nextId` puts into an id fit into their fields, so the four fields do not
overlap. Each of the three readers gets its field back, and two generators with
different identities never issue the same id.
-/

namespace TxLcn.Proof

open TxLcn.Lib TxLcn.Tm Snowflake

/-- What holds of a generator, interrupted or not: its fields are within their bounds. -/
structure Ready (twepoch workerId dataCenterId : Long) (s : Snowflake) : Prop where
  epoch : s.twepoch = twepoch
  worker : s.workerId = workerId
  dataCenter : s.dataCenterId = dataCenterId
  wf : WellFormed s
  last : s.lastTimestamp = -1 ∨ InRange twepoch s.lastTimestamp

/-- The call has put its own identity and the time that it has stored into the id. -/
structure IssuedBy (s : Snowflake) (id : Long) (s' : Snowflake) : Prop where
  last : InRange s.twepoch s'.lastTimestamp
  sequence : s'.sequence.toNat < 4096
  composed : id = s.compose s'.lastTimestamp s'.sequence

/-- The id can be read, and it is not negative. -/
structure Decodes (workerId dataCenterId : Long) (id : Long) (s : Snowflake) : Prop where
  nonneg : id.slt 0 = false
  worker : getWorkerId id = workerId
  dataCenter : getDataCenterId id = dataCenterId
  time : s.getGenerateDateTime id = s.lastTimestamp

variable {twepoch workerId dataCenterId : Long} {s s' : Snowflake} {clock rest : List Long}
  {id : Long}

/-! ## What a call leaves behind -/

theorem nextId_ready (hs : Ready twepoch workerId dataCenterId s)
    (hclock : ∀ t ∈ clock, InRange twepoch t) {r : Except String Long}
    (h : s.nextId clock = some (r, s', rest)) :
    Ready twepoch workerId dataCenterId s' ∧ ∀ id, r = .ok id → IssuedBy s id s' := by
  obtain ⟨rfl, rfl, rfl, hwf, hlast⟩ := hs
  have hepoch := hwf.epoch
  have hfields : ∀ {s' : Snowflake}, s'.twepoch = s.twepoch → s'.workerId = s.workerId →
      s'.dataCenterId = s.dataCenterId → s'.sequence.toNat < 4096 → WellFormed s' := by
    intro s' he hw hd hn
    exact ⟨he ▸ hepoch, hw ▸ hwf.worker, hd ▸ hwf.dataCenter, hn⟩
  rcases hlast with hfirst | hlast
  · -- nothing has been issued so far
    cases clock with
    | nil => simp [nextId] at h
    | cons t clock =>
        have ht := hclock t List.mem_cons_self
        rw [nextId_first hfirst (by have := ht.2; omega)] at h
        cases h
        refine ⟨⟨rfl, rfl, rfl, hfields rfl rfl rfl zero_lt_sequences, Or.inr ht⟩, ?_⟩
        intro id hid
        cases hid
        exact ⟨ht, zero_lt_sequences, rfl⟩
  · cases nextId_ended hwf hlast hclock h with
    | refused _ _ =>
        refine ⟨⟨rfl, rfl, rfl, hwf, Or.inr hlast⟩, ?_⟩
        intro id hid
        cases hid
    | interrupted _ _ _ _ =>
        refine ⟨⟨rfl, rfl, rfl, hfields rfl rfl rfl zero_lt_sequences, Or.inr hlast⟩, ?_⟩
        intro id hid
        cases hid
    | sameMillis _ _ _ _ hn =>
        refine ⟨⟨rfl, rfl, rfl, hfields rfl rfl rfl hn, Or.inr hlast⟩, ?_⟩
        intro id hid
        cases hid
        exact ⟨hlast, hn, rfl⟩
    | laterMillis _ _ ht _ =>
        refine ⟨⟨rfl, rfl, rfl, hfields rfl rfl rfl zero_lt_sequences, Or.inr ht⟩, ?_⟩
        intro id hid
        cases hid
        exact ⟨ht, zero_lt_sequences, rfl⟩

/-! ## Reading the fields -/

theorem mask_five : (~~~((-1 : Long) <<< 5)).toNat = 2 ^ 5 - 1 := by decide

theorem mask_forty_one : (~~~((-1 : Long) <<< 41)).toNat = 2 ^ 41 - 1 := by decide

/-- A field of `n` bits from bit `k` on. -/
theorem field_toNat {k n : Nat} {mask : Long} (hid : id.toNat < 2 ^ 63)
    (hmask : mask.toNat = 2 ^ n - 1) :
    (id.sshiftRight k &&& mask).toNat = id.toNat / 2 ^ k % 2 ^ n := by
  rw [Long.toNat_and_mask hmask, Long.toNat_sshiftRight_of_lt hid]

theorem IssuedBy.decodes (hwf : WellFormed s) (h : IssuedBy s id s')
    (hepoch : s'.twepoch = s.twepoch) : Decodes s.workerId s.dataCenterId id s' := by
  have hvalue := compose_toNat hwf h.last h.sequence
  have hlt := compose_lt hwf h.last h.sequence
  rw [← h.composed] at hvalue hlt
  have hw := hwf.worker
  have hd := hwf.dataCenter
  have hn := h.sequence
  obtain ⟨hlow, hhigh⟩ := h.last
  -- the value is a sum of the fields, each below the place of the next one
  refine ⟨?_, ?_, ?_, ?_⟩
  · have h0 : (0 : Long).toNat = 0 := by decide
    have hnot : ¬ id.slt 0 = true := by
      rw [Long.slt_iff hlt (by omega)]
      omega
    simpa using hnot
  · refine BitVec.eq_of_toNat_eq ?_
    have hfield := field_toNat (k := 12) hlt mask_five
    have hread : getWorkerId id = id.sshiftRight 12 &&& ~~~((-1 : Long) <<< 5) := rfl
    rw [hread, hfield, hvalue]
    omega
  · refine BitVec.eq_of_toNat_eq ?_
    have hfield := field_toNat (k := 17) hlt mask_five
    have hread : getDataCenterId id = id.sshiftRight 17 &&& ~~~((-1 : Long) <<< 5) := rfl
    rw [hread, hfield, hvalue]
    omega
  · refine BitVec.eq_of_toNat_eq ?_
    have hfield := field_toNat (k := 22) hlt mask_forty_one
    have hread : s'.getGenerateDateTime id
        = (id.sshiftRight 22 &&& ~~~((-1 : Long) <<< 41)) + s'.twepoch := rfl
    have htwepoch := hwf.epoch
    rw [hread, BitVec.toNat_add, hfield, hvalue, hepoch]
    omega

/-! ## Runs -/

theorem create_ready {epochDate : Option Long} (h : create epochDate workerId dataCenterId = .ok s)
    (hepoch : s.twepoch.toNat ≤ 2 ^ 62) : Ready s.twepoch workerId dataCenterId s := by
  obtain ⟨hwf, _, hlast⟩ := create_wellFormed h hepoch
  have hids : s.workerId = workerId ∧ s.dataCenterId = dataCenterId := by
    unfold create at h
    split at h
    · cases h
    · split at h <;> cases h
      exact ⟨rfl, rfl⟩
  exact ⟨rfl, hids.1, hids.2, hwf, Or.inl hlast⟩

/-- **A generator stays ready, whatever its clock does within the range.** -/
theorem exec_ready {g : Issuer} {cs : List (Readings twepoch)}
    (hs : Ready twepoch workerId dataCenterId s)
    (h : exec Issuer.call { snowflake := s } cs = some g) :
    Ready twepoch workerId dataCenterId g.snowflake := by
  refine exec_invariant (I := fun g : Issuer => Ready twepoch workerId dataCenterId g.snowflake)
    ?_ hs h
  intro g c g' hg hcall
  rcases call_some hcall with ⟨id, s', hid, rfl⟩ | ⟨e, s', herror, rfl⟩
  · exact (nextId_ready hg c.inRange hid).1
  · exact (nextId_ready hg c.inRange herror).1

/-- An id that a generator issues, in any state that it can reach, can be read. -/
theorem nextId_decodes {epochDate : Option Long} {g : Issuer} {cs : List (Readings s.twepoch)}
    (hcreate : create epochDate workerId dataCenterId = .ok s)
    (hepoch : s.twepoch.toNat ≤ 2 ^ 62)
    (hrun : exec Issuer.call { snowflake := s } cs = some g) {c : Readings s.twepoch}
    (h : g.snowflake.nextId c.clock = some (.ok id, s', rest)) :
    Decodes workerId dataCenterId id s' := by
  have hready := exec_ready (create_ready hcreate hepoch) hrun
  obtain ⟨hready', hissued⟩ := nextId_ready hready c.inRange h
  have hdecodes := (hissued id rfl).decodes hready.wf (hready'.epoch.trans hready.epoch.symm)
  rw [hready.worker, hready.dataCenter] at hdecodes
  exact hdecodes

/--
**An id decodes to its origin, and ids of different nodes are different.**

The first part is for any generator that the constructor accepts, in any state
that it can reach; the second one for any two of them.
-/
theorem ids_identify {epochDate₁ epochDate₂ : Option Long} {w₁ d₁ w₂ d₂ : Long}
    {s₁ s₂ t₁ t₂ : Snowflake} {g₁ g₂ : Issuer} {id₁ id₂ : Long} {rest₁ rest₂ : List Long}
    (hcreate₁ : create epochDate₁ w₁ d₁ = .ok s₁) (hepoch₁ : s₁.twepoch.toNat ≤ 2 ^ 62)
    (cs₁ : List (Readings s₁.twepoch)) (hrun₁ : exec Issuer.call { snowflake := s₁ } cs₁ = some g₁)
    (c₁ : Readings s₁.twepoch) (h₁ : g₁.snowflake.nextId c₁.clock = some (.ok id₁, t₁, rest₁))
    (hcreate₂ : create epochDate₂ w₂ d₂ = .ok s₂) (hepoch₂ : s₂.twepoch.toNat ≤ 2 ^ 62)
    (cs₂ : List (Readings s₂.twepoch)) (hrun₂ : exec Issuer.call { snowflake := s₂ } cs₂ = some g₂)
    (c₂ : Readings s₂.twepoch) (h₂ : g₂.snowflake.nextId c₂.clock = some (.ok id₂, t₂, rest₂)) :
    Decodes w₁ d₁ id₁ t₁ ∧ ((w₁, d₁) ≠ (w₂, d₂) → id₁ ≠ id₂ ∧ ∃ groupId₁ groupId₂,
      SnowflakeHandler.generateGroupId g₁.snowflake c₁.clock = some (.ok groupId₁, t₁, rest₁)
      ∧ SnowflakeHandler.generateGroupId g₂.snowflake c₂.clock = some (.ok groupId₂, t₂, rest₂)
      ∧ groupId₁ ≠ groupId₂) := by
  have hdecodes₁ := nextId_decodes hcreate₁ hepoch₁ hrun₁ h₁
  have hdecodes₂ := nextId_decodes hcreate₂ hepoch₂ hrun₂ h₂
  refine ⟨hdecodes₁, fun hne => ?_⟩
  have hids : id₁ ≠ id₂ := by
    -- one id is read in one way only
    rintro rfl
    refine hne ?_
    rw [← hdecodes₁.worker, ← hdecodes₁.dataCenter, hdecodes₂.worker, hdecodes₂.dataCenter]
  refine ⟨hids, Long.toBinaryString id₁, Long.toBinaryString id₂, ?_, ?_, ?_⟩
  · rw [SnowflakeHandler.generateGroupId, h₁]
    rfl
  · rw [SnowflakeHandler.generateGroupId, h₂]
    rfl
  · exact fun heq => hids (Long.toBinaryString_injective heq)

/-- A worker of data centre 1 that has issued nothing, or its first id. -/
def workerOne (workerId lastTimestamp : Long) : Snowflake where
  twepoch := defaultEpoch
  workerId
  dataCenterId := 1
  lastTimestamp

/-- One reading of a clock in 2023. -/
def readOnce : Readings defaultEpoch where
  clock := [1700000000000]
  inRange := by
    intro t ht
    rw [List.mem_singleton.mp ht]
    exact ⟨by decide, by decide⟩

/-- Two workers of one data centre issue their second ids in the millisecond of their first. -/
theorem ids_identify_two :
    Decodes 1 1 ((workerOne 1 1700000000000).compose 1700000000000 1)
        { workerOne 1 1700000000000 with sequence := 1 }
      ∧ (workerOne 1 1700000000000).compose 1700000000000 1
        ≠ (workerOne 2 1700000000000).compose 1700000000000 1 := by
  have hone : create none 1 1 = .ok (workerOne 1 (-1)) := rfl
  have htwo : create none 2 1 = .ok (workerOne 2 (-1)) := rfl
  have h := ids_identify hone (by decide) [readOnce] rfl readOnce rfl
    htwo (by decide) [readOnce] rfl readOnce rfl
  exact ⟨h.1, (h.2 (by decide)).1⟩

end TxLcn.Proof
