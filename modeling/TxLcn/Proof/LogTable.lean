import TxLcn.Proof.SnowflakeDecode
import TxLcn.Tc.LogExecutor

/-!
# Whether the identities that a TM issues fit into the log

The timestamp of an id stands above 22 other bits, and the group id is written
in base two, one character for each bit. The column for it has 40 characters, so
there are 18 left for the milliseconds since the epoch: four minutes and 22 seconds.

The log id is stored as a number, in a column that has room for every `long`.
-/

namespace TxLcn.Proof

open TxLcn.Lib TxLcn.Tm TxLcn.Tc Snowflake

/-! ## Readings from one day after the epoch on -/

/-- The milliseconds of a day. -/
def oneDay : Int := 86400000

/-- The readings of a call, from one day after the epoch to the end of the 41 bits. -/
structure DayOn (twepoch : Long) where
  clock : List Long
  inRange : ∀ t ∈ clock, twepoch.toInt + oneDay ≤ t.toInt ∧ t.toInt ≤ twepoch.toInt + 2 ^ 41 - 1

/-- A call, by what it makes of the generator. -/
def draw {twepoch : Long} (s : Snowflake) (c : DayOn twepoch) : Option Snowflake :=
  (s.nextId c.clock).map fun call => call.2.1

/-- The time that a generator has stored, if it has, is a day after the epoch or later. -/
structure Drawing (twepoch : Long) (s : Snowflake) : Prop where
  epoch : s.twepoch = twepoch
  last : s.lastTimestamp = -1 ∨ twepoch.toInt + oneDay ≤ s.lastTimestamp.toInt
    ∧ s.lastTimestamp.toInt < twepoch.toInt + 2 ^ 41 + 2000

variable {twepoch : Long} {s s' : Snowflake} {clock rest : List Long}

/-! ## What a call puts into the id -/

/-- A reading that is let in counts as itself, or as a time at most two seconds later. -/
theorem tolerate_near {last t timestamp : Long} (h : tolerate last t = .ok timestamp)
    (hnear : (last - t).toInt < 2000 → last.toInt < t.toInt + 2000) :
    t.toInt ≤ timestamp.toInt ∧ timestamp.toInt < t.toInt + 2000 := by
  unfold tolerate at h
  split at h
  · rename_i hback
    split at h
    · rename_i hsmall
      cases h
      have h2000 : (2000 : Long).toInt = 2000 := by decide
      rw [BitVec.slt_iff_toInt_lt] at hback hsmall
      rw [h2000] at hsmall
      exact ⟨by omega, hnear hsmall⟩
    · cases h
  · cases h
    exact ⟨by omega, by omega⟩

theorem tilNextMillis_mem {last t : Long} (h : tilNextMillis last clock = some (.ok t, rest)) :
    t ∈ clock := by
  induction clock with
  | nil => cases h
  | cons t' clock ih =>
      rw [tilNextMillis] at h
      split at h
      · exact List.mem_cons_of_mem t' (ih h)
      · split at h
        · cases h
        · cases h
          exact List.mem_cons_self

/-- No more than two seconds between the two is no overflow. -/
theorem Drawing.near (h : Drawing twepoch s) {t : Long} (ht : twepoch.toInt + oneDay ≤ t.toInt)
    (ht' : t.toInt ≤ twepoch.toInt + 2 ^ 41 - 1) (hdiff : (s.lastTimestamp - t).toInt < 2000) :
    s.lastTimestamp.toInt < t.toInt + 2000 := by
  have hday : oneDay = 86400000 := rfl
  have hmin := BitVec.le_toInt t
  have hmax := BitVec.toInt_lt (x := t)
  have hlast := h.last.imp_left fun hfirst : s.lastTimestamp = -1 =>
    show s.lastTimestamp.toInt = -1 by rw [hfirst]; decide
  have hsub : (s.lastTimestamp - t).toInt = s.lastTimestamp.toInt - t.toInt := by
    refine Long.toInt_sub_of_range ?_ ?_
    · omega
    · omega
  omega

/-- The time in an id is a day after the epoch or later. -/
def Late (twepoch : Long) (s : Snowflake) (id : Long) : Prop :=
  ∃ t n, id = s.compose t n ∧ twepoch.toInt + oneDay ≤ t.toInt
    ∧ t.toInt < twepoch.toInt + 2 ^ 41 + 2000

theorem Drawing.issue (h : Drawing twepoch s) {t n : Long}
    (hlow : twepoch.toInt + oneDay ≤ t.toInt) (hhigh : t.toInt < twepoch.toInt + 2 ^ 41 + 2000) :
    Drawing twepoch { s with sequence := n, lastTimestamp := t }
      ∧ ∀ id, Except.ok (s.compose t n) = Except.ok (ε := String) id → Late twepoch s id := by
  refine ⟨⟨h.epoch, Or.inr ⟨hlow, hhigh⟩⟩, ?_⟩
  intro id hid
  cases hid
  exact ⟨t, n, rfl, hlow, hhigh⟩

/-- **One call of a generator that reads the clock a day after the epoch or later.** -/
theorem nextId_drawing (hs : Drawing twepoch s)
    (hclock : ∀ t ∈ clock, twepoch.toInt + oneDay ≤ t.toInt
      ∧ t.toInt ≤ twepoch.toInt + 2 ^ 41 - 1)
    {r : Except String Long} (h : s.nextId clock = some (r, s', rest)) :
    Drawing twepoch s' ∧ ∀ id, r = .ok id → Late twepoch s id := by
  have hfailed : ∀ {e : String} {n : Long}, Drawing twepoch { s with sequence := n }
      ∧ ∀ id, Except.error e = Except.ok (ε := String) id → Late twepoch s id :=
    ⟨⟨hs.epoch, hs.last⟩, fun id hid => by cases hid⟩
  cases clock with
  | nil => cases h
  | cons reading clock =>
      obtain ⟨hlow, hhigh⟩ := hclock reading List.mem_cons_self
      rw [nextId] at h
      split at h
      · cases h
        exact hfailed
      · rename_i timestamp htolerate
        obtain ⟨hafter, hbefore⟩ := tolerate_near htolerate (hs.near hlow hhigh)
        split at h
        · dsimp only at h
          split at h
          · -- the sequence has wrapped, and the time is a reading again
            split at h
            · cases h
            · cases h
              exact hfailed
            · rename_i t rest' hwait
              cases h
              obtain ⟨hlow', hhigh'⟩ :=
                hclock t (List.mem_cons_of_mem reading (tilNextMillis_mem hwait))
              exact hs.issue hlow' (by omega)
          · cases h
            exact hs.issue (by omega) (by omega)
        · cases h
          exact hs.issue (by omega) (by omega)

/-! ## Runs -/

theorem create_drawing {epochDate : Option Long} {w d : Long}
    (h : create epochDate w d = .ok s) : Drawing s.twepoch s := by
  unfold create at h
  split at h
  · cases h
  · split at h <;> cases h
    exact ⟨rfl, Or.inl rfl⟩

theorem exec_drawing {s₁ : Snowflake} {cs : List (DayOn twepoch)} (hs : Drawing twepoch s)
    (h : exec draw s cs = some s₁) : Drawing twepoch s₁ := by
  refine exec_invariant (I := Drawing twepoch) ?_ hs h
  intro s c s' hs hdraw
  obtain ⟨⟨r, s'', rest⟩, hcall, hsame⟩ := Option.map_eq_some_iff.mp hdraw
  rw [← hsame]
  exact (nextId_drawing hs c.inRange hcall).1

/-! ## Widths -/

/-- The time alone makes an id of more than 48 bits. -/
theorem Late.le_toNat {id : Long} (hepoch : s.twepoch = twepoch) (h : Late twepoch s id) :
    2 ^ 48 ≤ id.toNat := by
  obtain ⟨t, n, rfl, hlow, hhigh⟩ := h
  have hday : oneDay = 86400000 := rfl
  have helapsed := Long.toNat_sub_of_toInt_le (x := t) (y := s.twepoch) (by rw [hepoch]; omega)
  rw [hepoch] at helapsed
  have hshift : ((t - s.twepoch) <<< timestampLeftShift).toNat
      = (t - s.twepoch).toNat * 2 ^ 22 := by
    have hk : timestampLeftShift = 22 := rfl
    rw [hk, Long.toNat_shiftLeft_of_lt]
    rw [hepoch]
    omega
  -- the other fields can only add to it
  have hle : ((t - s.twepoch) <<< timestampLeftShift).toNat ≤ (s.compose t n).toNat := by
    unfold compose
    rw [BitVec.toNat_or, BitVec.toNat_or, BitVec.toNat_or]
    exact Nat.le_trans (Nat.le_trans Nat.left_le_or Nat.left_le_or) Nat.left_le_or
  rw [hepoch] at hshift hle
  omega

theorem group_id_fits_iff {groupId : String} :
    MysqlLogExecutor.group_id.type.fits (.text (some groupId)) = true ↔ groupId.length ≤ 40 :=
  decide_eq_true_iff

/-- While the epoch is four minutes away, a group id fits. -/
theorem groupId_fits_iff {t n : Long} (hs : WellFormed s) (ht : InRange s.twepoch t)
    (hn : n.toNat < 4096) :
    MysqlLogExecutor.group_id.type.fits (.text (some (Long.toBinaryString (s.compose t n)))) = true
      ↔ t.toNat < s.twepoch.toNat + 2 ^ 18 := by
  have hvalue := compose_toNat hs ht hn
  have hlow := ht.1
  have hw := hs.worker
  have hd := hs.dataCenter
  rw [group_id_fits_iff, Long.length_toBinaryString_le_iff (by omega), hvalue]
  omega

/-- A log id fits, and it is not negative unless the epoch is. -/
theorem logId_fits {epochDate : Option Long} {w d logId : Long} {g : Issuer}
    {cs : List (Readings s.twepoch)} (hcreate : create epochDate w d = .ok s)
    (hepoch : s.twepoch.toNat ≤ 2 ^ 62) (hrun : exec Issuer.call { snowflake := s } cs = some g)
    {c : Readings s.twepoch}
    (h : SnowflakeHandler.generateLogId g.snowflake c.clock = some (.ok logId, s', rest)) :
    MysqlLogExecutor.id.type.fits (.number logId.toInt) = true ∧ 0 ≤ logId.toInt := by
  have hnonneg := (nextId_decodes hcreate hepoch hrun h).nonneg
  have h0 : (0 : Long).toInt = 0 := by decide
  have hle : ¬ logId.toInt < 0 := by
    rw [← h0, ← BitVec.slt_iff_toInt_lt, hnonneg]
    exact Bool.false_ne_true
  have hmax := BitVec.toInt_lt (x := logId)
  have hfits : MysqlLogExecutor.id.type.fits (.number logId.toInt)
      = (decide (-2 ^ 63 ≤ logId.toInt) && decide (logId.toInt ≤ 2 ^ 63 - 1)) := rfl
  refine ⟨?_, by omega⟩
  rw [hfits, Bool.and_eq_true, decide_eq_true_iff, decide_eq_true_iff]
  omega

/-! ## The row -/

/-- The identity of a row: its log id is not negative, and neither id is cut or rejected. -/
structure IdentityFits (log : TransactionLog) : Prop where
  nonneg : 0 ≤ log.id.toInt
  fits : ∀ column param, (column, param) ∈ MysqlLogExecutor.columns.zip log.params →
    column = MysqlLogExecutor.id ∨ column = MysqlLogExecutor.group_id →
    column.type.fits param = true

variable {log : TransactionLog} {groupId : String}

theorem group_id_mem (hg : log.groupId = some groupId) :
    (MysqlLogExecutor.group_id, Param.text (some groupId))
      ∈ MysqlLogExecutor.columns.zip log.params := by
  rw [← hg]
  exact List.mem_cons_of_mem _ List.mem_cons_self

theorem IdentityFits.length_le (h : IdentityFits log) (hg : log.groupId = some groupId) :
    groupId.length ≤ 40 :=
  group_id_fits_iff.mp (h.fits _ _ (group_id_mem hg) (Or.inr rfl))

theorem length_le_of_keeps (h : MysqlLogExecutor.keeps log = true)
    (hg : log.groupId = some groupId) : groupId.length ≤ 40 :=
  group_id_fits_iff.mp (List.all_eq_true.mp h _ (group_id_mem hg))

/-- A group id made of a late id has too many characters. -/
theorem Late.lt_length {id : Long} (hepoch : s.twepoch = twepoch) (h : Late twepoch s id) :
    40 < (Long.toBinaryString id).length := by
  have hlong := h.le_toNat hepoch
  rw [← Nat.not_le, Long.length_toBinaryString_le_iff (by omega)]
  omega

theorem generateGroupId_late (hs : Drawing twepoch s) (c : DayOn twepoch)
    (h : SnowflakeHandler.generateGroupId s c.clock = some (.ok groupId, s', rest)) :
    40 < groupId.length := by
  obtain ⟨⟨r, s'', rest'⟩, hcall, hsame⟩ := Option.map_eq_some_iff.mp h
  cases r with
  | error e => cases hsame
  | ok id =>
      cases hsame
      exact ((nextId_drawing hs c.inRange hcall).2 id rfl).lt_length hs.epoch

/--
A database that rejects what does not fit saves no row of a group like that, and
the business cannot commit.
-/
theorem executeOn_rejected {info : Tc.TransactionInfo} {current : JdbcTransaction}
    {logs : List TransactionLog} {context : JdbcContext} {table : LogTable}
    (hg : log.groupId = some groupId) (hlong : 40 < groupId.length)
    (hlogs : current.transactionLogs = log :: logs) :
    LcnCommitTransactionJdbcEvent.executeOn (fun _ log => !MysqlLogExecutor.keeps log) info
      (some current) context table = (.error none, table) := by
  have hrejected : MysqlLogExecutor.keeps log = false := by
    by_contra hkept
    have hshort := length_le_of_keeps (by simpa using hkept) hg
    omega
  simp [LcnCommitTransactionJdbcEvent.executeOn, LcnCommitTransactionJdbcEvent.execute, hlogs,
    TransactionLogExecutor.saveLog, hrejected]

/--
**A group id never fits.** For every generator that the constructor accepts, in
every state that it can reach while the clock shows a day after the epoch or
later: a row of the group that is issued then is cut or rejected, whatever its
log id is.
-/
theorem identity_never_fits {epochDate : Option Long} {workerId dataCenterId : Long}
    {s s₁ s₂ : Snowflake} (hcreate : create epochDate workerId dataCenterId = .ok s)
    {cs : List (DayOn s.twepoch)} (hrun : exec draw s cs = some s₁) {c : DayOn s.twepoch}
    (h : SnowflakeHandler.generateGroupId s₁ c.clock = some (.ok groupId, s₂, rest))
    (hlog : log.groupId = some groupId) : ¬ IdentityFits log := by
  intro hfits
  have hlong := generateGroupId_late (exec_drawing (create_drawing hcreate) hrun) c h
  have hshort := hfits.length_le hlog
  omega

/-- One reading of a clock in 2023. -/
def readLater : DayOn defaultEpoch where
  clock := [1700000000000]
  inRange := by
    intro t ht
    rw [List.mem_singleton.mp ht]
    exact ⟨by decide, by decide⟩

/-- The first ids of a worker, on the default epoch. -/
def firstRow : TransactionLog where
  id := (workerOne 1 (-1)).compose 1700000000000 1
  groupId := some (Long.toBinaryString ((workerOne 1 (-1)).compose 1700000000000 0))
  sql := "update account set balance = 1"
  time := 1700000000000
  flag := 0

theorem identity_never_fits_first : ¬ IdentityFits firstRow := by
  have hcreate : create none 1 1 = .ok (workerOne 1 (-1)) := rfl
  have hcall : SnowflakeHandler.generateGroupId (workerOne 1 (-1)) readLater.clock
      = some (.ok (Long.toBinaryString ((workerOne 1 (-1)).compose 1700000000000 0)),
        workerOne 1 1700000000000, []) := rfl
  exact @identity_never_fits [] firstRow _ none 1 1 _ _ _ hcreate [] rfl readLater hcall rfl

/-- The two ids that one answer consists of are too wide for a row. -/
theorem not_identity_fits :
    ¬ ∀ (epochDate : Option Long) (workerId dataCenterId : Long) (s s₁ s₂ s₃ : Snowflake)
        (cs : List (DayOn s.twepoch)) (c c' : DayOn s.twepoch) (groupId : String) (logId : Long)
        (rest rest' : List Long) (log : TransactionLog),
        create epochDate workerId dataCenterId = .ok s → exec draw s cs = some s₁ →
        SnowflakeHandler.generateGroupId s₁ c.clock = some (.ok groupId, s₂, rest) →
        SnowflakeHandler.generateLogId s₂ c'.clock = some (.ok logId, s₃, rest') →
        log.groupId = some groupId → log.id = logId → IdentityFits log := by
  intro h
  have hfits : IdentityFits firstRow :=
    h none 1 1 (workerOne 1 (-1)) (workerOne 1 (-1)) (workerOne 1 1700000000000)
      { workerOne 1 1700000000000 with sequence := 1 } [] readLater readLater _ _ [] [] firstRow
      rfl rfl rfl rfl rfl rfl
  have hlength := hfits.length_le rfl
  revert hlength
  decide +kernel

end TxLcn.Proof
