import TxLcn.Tm.Snowflake

/-!
# The ids of one generator are increasing, unless a rollover was interrupted

`nextId` keeps the pair `(lastTimestamp, sequence)` ahead of every id it has
handed out. There is one way to lose that. When the sequence wraps, `nextId` has
already stored `sequence = 0` at the time it waits in `tilNextMillis`; if the
clock turns out to be behind, `tilNextMillis` throws and the generator is left
at `(lastTimestamp, 0)` although `(lastTimestamp, 4095)` is out. The next call
that is let in without a later reading then hands out `(lastTimestamp, 1)` again.

`ids_increasing_iff` says that this is the only way.
-/

namespace TxLcn.Proof

open TxLcn.Lib TxLcn.Tm Snowflake

/-! ## Constants -/

@[simp] theorem maxWorkerId_eq : maxWorkerId = 31 := by decide

@[simp] theorem maxDataCenterId_eq : maxDataCenterId = 31 := by decide

theorem sequenceMask_toNat : sequenceMask.toNat = 2 ^ 12 - 1 := by decide

theorem zero_lt_sequences : (0 : Long).toNat < 4096 := by decide

/-! ## Readings and identities in range -/

/-- A clock value that the 41 bits of an id can carry. -/
def InRange (twepoch timestamp : Long) : Prop :=
  twepoch.toNat ≤ timestamp.toNat ∧ timestamp.toNat < twepoch.toNat + 2 ^ 41

/-- What the constructor checks, together with the bound on the epoch. -/
structure WellFormed (s : Snowflake) : Prop where
  /-- The epoch is between `0` and `2^62`. -/
  epoch : s.twepoch.toNat ≤ 2 ^ 62
  /-- The worker id has five bits. -/
  worker : s.workerId.toNat < 32
  /-- The data centre id has five bits. -/
  dataCenter : s.dataCenterId.toNat < 32
  /-- The sequence has twelve bits. -/
  sequence : s.sequence.toNat < 4096

/-- A generator the constructor accepts is well formed and has issued nothing. -/
theorem create_wellFormed {epochDate : Option Long} {w d : Long} {s : Snowflake}
    (h : create epochDate w d = .ok s) (hepoch : s.twepoch.toNat ≤ 2 ^ 62) :
    WellFormed s ∧ s.sequence = 0 ∧ s.lastTimestamp = -1 := by
  unfold create at h
  simp only [maxWorkerId_eq, maxDataCenterId_eq] at h
  split at h
  · exact absurd h (by simp)
  · rename_i hw
    split at h
    · exact absurd h (by simp)
    · rename_i hd
      cases h
      simp only [Bool.or_eq_true, not_or, Bool.not_eq_true] at hw hd
      have hw' := Long.toNat_le_of_not_slt (by decide) hw.1 hw.2
      have hd' := Long.toNat_le_of_not_slt (by decide) hd.1 hd.2
      have h31 : (31 : Long).toNat = 31 := by decide
      rw [h31] at hw' hd'
      exact ⟨⟨hepoch, Nat.lt_succ_of_le hw', Nat.lt_succ_of_le hd', zero_lt_sequences⟩, rfl, rfl⟩

/-- **The value of an id.** The four fields do not overlap. -/
theorem compose_toNat {s : Snowflake} (h : WellFormed s) {t n : Long}
    (ht : InRange s.twepoch t) (hn : n.toNat < 4096) :
    (s.compose t n).toNat = (t.toNat - s.twepoch.toNat) * 2 ^ 22
      + s.dataCenterId.toNat * 2 ^ 17 + s.workerId.toNat * 2 ^ 12 + n.toNat := by
  obtain ⟨ht₁, ht₂⟩ := ht
  have hw := h.worker
  have hd := h.dataCenter
  have e₁ : ((t - s.twepoch) <<< timestampLeftShift).toNat
      = (t.toNat - s.twepoch.toNat) * 2 ^ 22 := by
    have hsub := Long.toNat_sub_of_le ht₁
    have hk : timestampLeftShift = 22 := rfl
    rw [hk, Long.toNat_shiftLeft_of_lt (by omega), hsub]
  have e₂ : (s.dataCenterId <<< dataCenterIdShift).toNat = s.dataCenterId.toNat * 2 ^ 17 := by
    have hk : dataCenterIdShift = 17 := rfl
    rw [hk, Long.toNat_shiftLeft_of_lt (by omega)]
  have e₃ : (s.workerId <<< workerIdShift).toNat = s.workerId.toNat * 2 ^ 12 := by
    have hk : workerIdShift = 12 := rfl
    rw [hk, Long.toNat_shiftLeft_of_lt (by omega)]
  -- each field lies below the lowest bit of those or-ed so far
  have o₁ := Long.toNat_or_of_dvd (k := 22) (x := (t - s.twepoch) <<< timestampLeftShift)
    (y := s.dataCenterId <<< dataCenterIdShift) (by omega) (by omega)
  have o₂ := Long.toNat_or_of_dvd (k := 17)
    (x := (t - s.twepoch) <<< timestampLeftShift ||| s.dataCenterId <<< dataCenterIdShift)
    (y := s.workerId <<< workerIdShift) (by omega) (by omega)
  have o₃ := Long.toNat_or_of_dvd (k := 12)
    (x := (t - s.twepoch) <<< timestampLeftShift ||| s.dataCenterId <<< dataCenterIdShift
      ||| s.workerId <<< workerIdShift)
    (y := n) (by omega) hn
  unfold compose
  omega

/-! ## What one call can do -/

theorem tolerate_cases {last t : Long} (hl : last.toNat < 2 ^ 63) (ht : t.toNat < 2 ^ 63) :
    (last.toNat < t.toNat ∧ tolerate last t = .ok t)
      ∨ (t.toNat ≤ last.toNat ∧ last.toNat < t.toNat + 2000 ∧ tolerate last t = .ok last)
      ∨ (t.toNat + 2000 ≤ last.toNat
        ∧ tolerate last t = .error (clockMovedBackwards (last - t))) := by
  have h2000 : (2000 : Long).toNat = 2000 := by decide
  unfold tolerate
  by_cases hlt : t.slt last = true
  · have hlt' := (Long.slt_iff ht hl).mp hlt
    have hsub := Long.toNat_sub_of_le (Nat.le_of_lt hlt')
    have hslt : (last - t).slt 2000 = true ↔ last.toNat - t.toNat < 2000 := by
      rw [Long.slt_iff (by omega) (by omega), hsub, h2000]
    rw [if_pos hlt]
    -- the clock is behind; what is left is by how much
    by_cases hc : (last - t).slt 2000 = true
    · rw [if_pos hc]
      exact Or.inr (Or.inl ⟨by omega, by have := hslt.mp hc; omega, rfl⟩)
    · rw [if_neg hc]
      exact Or.inr (Or.inr ⟨by have := mt hslt.mpr hc; omega, rfl⟩)
  · have hge := mt (Long.slt_iff ht hl).mpr hlt
    rw [if_neg hlt]
    rcases Nat.lt_or_ge last.toNat t.toNat with h | h
    · exact Or.inl ⟨h, rfl⟩
    · have heq : t = last := BitVec.eq_of_toNat_eq (by omega)
      exact Or.inr (Or.inl ⟨by omega, by omega, by rw [heq]⟩)

theorem tilNextMillis_cases {last : Long} (hl : last.toNat < 2 ^ 63) :
    ∀ {clock rest : List Long} {r : Except String Long},
      (∀ t ∈ clock, t.toNat < 2 ^ 63) → tilNextMillis last clock = some (r, rest) →
      (∃ e, r = .error e) ∨ ∃ t ∈ clock, r = .ok t ∧ last.toNat < t.toNat
  | [], _, _, _, h => by simp [tilNextMillis] at h
  | t :: clock, rest, r, hc, h => by
      have ht := hc t List.mem_cons_self
      rw [tilNextMillis] at h
      split at h
      · -- the clock has not moved: the loop goes on
        rcases tilNextMillis_cases hl (fun t' h' => hc t' (List.mem_cons_of_mem t h')) h with
          he | ⟨t', ht', hr⟩
        · exact Or.inl he
        · exact Or.inr ⟨t', List.mem_cons_of_mem t ht', hr⟩
      · rename_i hne
        split at h
        · cases h; exact Or.inl ⟨_, rfl⟩
        · rename_i hslt
          cases h
          have hge := mt (Long.slt_iff ht hl).mpr hslt
          have hne' : t.toNat ≠ last.toNat := fun he => hne (BitVec.eq_of_toNat_eq he)
          exact Or.inr ⟨t, List.mem_cons_self, rfl, by omega⟩

/-- The ways a call of `nextId` can end on a generator that has issued an id before. -/
inductive Ended (s : Snowflake) (clock : List Long) : Except String Long → Snowflake → Prop where
  /-- The clock is two seconds or more behind; nothing is written. -/
  | refused {t : Long} {e : String} : clock.head? = some t →
      t.toNat + 2000 ≤ s.lastTimestamp.toNat → Ended s clock (.error e) s
  /-- The sequence wrapped and `tilNextMillis` threw; the sequence stays written. -/
  | interrupted {t : Long} {e : String} : clock.head? = some t →
      t.toNat ≤ s.lastTimestamp.toNat → s.lastTimestamp.toNat < t.toNat + 2000 →
      s.sequence.toNat = 4095 → Ended s clock (.error e) { s with sequence := 0 }
  /-- Another id of the same millisecond. -/
  | sameMillis {t n : Long} : clock.head? = some t →
      t.toNat ≤ s.lastTimestamp.toNat → s.lastTimestamp.toNat < t.toNat + 2000 →
      n.toNat = s.sequence.toNat + 1 → n.toNat < 4096 →
      Ended s clock (.ok (s.compose s.lastTimestamp n)) { s with sequence := n }
  /-- The first id of a later millisecond: read at once, or waited for. -/
  | laterMillis {u t : Long} : clock.head? = some u →
      s.lastTimestamp.toNat < u.toNat ∨ s.sequence.toNat = 4095 →
      InRange s.twepoch t → s.lastTimestamp.toNat < t.toNat →
      Ended s clock (.ok (s.compose t 0)) { s with sequence := 0, lastTimestamp := t }

theorem next_sequence {n : Long} (h : n.toNat < 4096) :
    ((n + 1) &&& sequenceMask).toNat = (n.toNat + 1) % 4096 := by
  have h1 : (1 : Long).toNat = 1 := by decide
  have hadd : (n + 1).toNat = n.toNat + 1 := by
    rw [BitVec.toNat_add, h1, Nat.mod_eq_of_lt (by omega)]
  rw [Long.toNat_and_mask sequenceMask_toNat, hadd]
  norm_num

/-- The sequence is back at zero after the last number. -/
theorem sequence_wrapped {n : Long} (h : n.toNat < 4096) (hzero : (n + 1) &&& sequenceMask = 0) :
    n.toNat = 4095 := by
  have hnext := next_sequence h
  have h0 : (0 : Long).toNat = 0 := by decide
  rw [hzero, h0] at hnext
  omega

/-- Before that it counts. -/
theorem sequence_counts {n : Long} (h : n.toNat < 4096)
    (hne : (n + 1) &&& sequenceMask ≠ 0) :
    ((n + 1) &&& sequenceMask).toNat = n.toNat + 1
      ∧ ((n + 1) &&& sequenceMask).toNat < 4096 := by
  have hnext := next_sequence h
  have hpos : ((n + 1) &&& sequenceMask).toNat ≠ 0 := fun h0 => hne (BitVec.eq_of_toNat_eq h0)
  constructor <;> omega

theorem nextId_ended {s : Snowflake} (hwf : WellFormed s)
    (hlast : InRange s.twepoch s.lastTimestamp) {clock rest : List Long}
    (hclock : ∀ t ∈ clock, InRange s.twepoch t) {r : Except String Long} {s' : Snowflake}
    (h : s.nextId clock = some (r, s', rest)) : Ended s clock r s' := by
  have hepoch := hwf.epoch
  have hl : s.lastTimestamp.toNat < 2 ^ 63 := by have := hlast.2; omega
  have hc : ∀ t ∈ clock, t.toNat < 2 ^ 63 := fun t ht => by have := (hclock t ht).2; omega
  cases clock with
  | nil => simp [nextId] at h
  | cons t clock =>
      have ht := hclock t List.mem_cons_self
      rw [nextId] at h
      rcases tolerate_cases hl (hc t List.mem_cons_self) with
        ⟨hlt, heq⟩ | ⟨hle, hlt, heq⟩ | ⟨hback, heq⟩
      · -- a later reading
        have hne : t ≠ s.lastTimestamp := by rintro rfl; omega
        rw [heq] at h
        dsimp only at h
        rw [if_neg hne] at h
        cases h
        exact .laterMillis rfl (Or.inl hlt) ht hlt
      · -- a tolerated one: it counts as `lastTimestamp`
        rw [heq] at h
        dsimp only at h
        rw [if_pos rfl] at h
        split at h
        · -- the sequence has wrapped, and `tilNextMillis` is run
          rename_i hzero
          have hwrap : s.sequence.toNat = 4095 := sequence_wrapped hwf.sequence hzero
          split at h
          · exact absurd h (by simp)
          · cases h
            rw [hzero]
            exact .interrupted rfl hle hlt hwrap
          · rename_i t' clock' htil
            cases h
            rcases tilNextMillis_cases hl (fun x hx => hc x (List.mem_cons_of_mem t hx)) htil with
              ⟨e, he⟩ | ⟨x, hx, hr, hlater⟩
            · exact absurd he (by simp)
            · cases hr
              rw [hzero]
              exact .laterMillis rfl (Or.inr hwrap) (hclock _ (List.mem_cons_of_mem t hx)) hlater
        · rename_i hnz
          cases h
          obtain ⟨hn, hn'⟩ := sequence_counts hwf.sequence hnz
          exact .sameMillis rfl hle hlt hn hn'
      · -- too far back
        rw [heq] at h
        cases h
        exact .refused rfl hback

/-- The very first call issues sequence number 0. -/
theorem nextId_first {s : Snowflake} (hlast : s.lastTimestamp = -1) {t : Long} {clock : List Long}
    (ht : t.toNat < 2 ^ 63) : s.nextId (t :: clock) = some (s.issue t 0 clock) := by
  rw [nextId, hlast, tolerate, Long.not_slt_neg_one ht]
  dsimp only
  rw [if_neg Bool.false_ne_true]
  dsimp only
  rw [if_neg (Long.ne_neg_one ht)]

/-! ## Runs of calls -/

/-- The values `genTime` returns during one call, all within the 41 bits. -/
structure Readings (twepoch : Long) where
  clock : List Long
  inRange : ∀ t ∈ clock, InRange twepoch t

/-- A generator, the ids it has returned so far, and whether the last call that
wrote to it ended in an exception. -/
structure Issuer where
  snowflake : Snowflake
  issued : List Long := []
  interrupted : Bool := false

/-- One call that takes exactly the given readings. -/
def Issuer.call {twepoch : Long} (g : Issuer) (c : Readings twepoch) : Option Issuer :=
  match g.snowflake.nextId c.clock with
  | some (.ok id, s, []) => some { snowflake := s, issued := g.issued ++ [id] }
  | some (.error _, s, []) =>
      some { g with
        snowflake := s
        interrupted := g.interrupted || decide (s ≠ g.snowflake) }
  | _ => none

/-- Strictly increasing as signed values. -/
def Increasing (ids : List Long) : Prop := ids.Pairwise fun a b => a.slt b = true

/--
After a call that `tilNextMillis` interrupted, no call is let in that reads
`lastTimestamp` or a tolerated earlier time.
-/
def LetInLater {twepoch : Long} (g : Issuer) (c : Readings twepoch) : Prop :=
  g.interrupted = true → ∀ t, c.clock.head? = some t →
    g.snowflake.lastTimestamp.slt t = true ∨ (g.snowflake.lastTimestamp - t).slt 2000 = false

/-- The greatest id handed out. -/
def Issuer.top (g : Issuer) : Long :=
  g.snowflake.compose g.snowflake.lastTimestamp
    (if g.interrupted = true then 4095 else g.snowflake.sequence)

/-- What holds once an id has been issued. -/
structure Running (g : Issuer) : Prop where
  /-- The stored time is a reading. -/
  last : InRange g.snowflake.twepoch g.snowflake.lastTimestamp
  /-- An interrupted rollover has left the sequence at zero. -/
  rolled : g.interrupted = true → g.snowflake.sequence = 0
  /-- The top id has been issued. -/
  mem : g.top ∈ g.issued
  /-- Nothing above it has. -/
  bound : ∀ id ∈ g.issued, id.toNat ≤ g.top.toNat

/-- The invariant of a generator in use. -/
structure IssuerInv (twepoch : Long) (g : Issuer) : Prop where
  /-- The epoch never changes. -/
  epoch : g.snowflake.twepoch = twepoch
  /-- Neither do the identities, and the sequence stays in its field. -/
  wf : WellFormed g.snowflake
  /-- The ids so far increase. -/
  increasing : Increasing g.issued
  /-- Either nothing has been issued, or the top id has. -/
  started : (g.snowflake.lastTimestamp = -1 ∧ g.issued = [] ∧ g.interrupted = false) ∨ Running g

theorem compose_lt {s : Snowflake} (h : WellFormed s) {t n : Long}
    (ht : InRange s.twepoch t) (hn : n.toNat < 4096) : (s.compose t n).toNat < 2 ^ 63 := by
  have hw := h.worker
  have hd := h.dataCenter
  have ht₂ := ht.2
  rw [compose_toNat h ht hn]
  omega

/-- Within one generator an id grows with its time, and with its sequence number. -/
theorem compose_lt_compose {s : Snowflake} (h : WellFormed s) {t₁ t₂ n₁ n₂ : Long}
    (ht₁ : InRange s.twepoch t₁) (ht₂ : InRange s.twepoch t₂)
    (hn₁ : n₁.toNat < 4096) (hn₂ : n₂.toNat < 4096)
    (hlt : t₁.toNat < t₂.toNat ∨ t₁ = t₂ ∧ n₁.toNat < n₂.toNat) :
    (s.compose t₁ n₁).toNat < (s.compose t₂ n₂).toNat := by
  have hw := h.worker
  have hd := h.dataCenter
  have h₁ := ht₁.1
  rw [compose_toNat h ht₁ hn₁, compose_toNat h ht₂ hn₂]
  rcases hlt with hlt | ⟨rfl, hlt⟩ <;> omega

theorem increasing_snoc {ids : List Long} {top x : Long} (h : Increasing ids)
    (hb : ∀ id ∈ ids, id.toNat ≤ top.toNat) (hlt : top.toNat < x.toNat)
    (hx : x.toNat < 2 ^ 63) : Increasing (ids ++ [x]) := by
  refine List.pairwise_append.mpr ⟨h, List.pairwise_singleton _ _, ?_⟩
  intro a ha b hb'
  rw [List.mem_singleton] at hb'
  have := hb a ha
  exact hb' ▸ (Long.slt_iff (by omega) hx).mpr (by omega)

theorem not_increasing_snoc {ids : List Long} {top x : Long} (hmem : top ∈ ids)
    (hle : x.toNat ≤ top.toNat) (htop : top.toNat < 2 ^ 63) : ¬ Increasing (ids ++ [x]) := by
  intro h
  have hlt := (List.pairwise_append.mp h).2.2 top hmem x (List.mem_singleton.mpr rfl)
  have := (Long.slt_iff htop (by omega)).mp hlt
  omega

theorem call_some {twepoch : Long} {g g' : Issuer} {c : Readings twepoch}
    (h : g.call c = some g') :
    (∃ id s, g.snowflake.nextId c.clock = some (.ok id, s, [])
        ∧ g' = { snowflake := s, issued := g.issued ++ [id] })
      ∨ ∃ e s, g.snowflake.nextId c.clock = some (.error e, s, [])
        ∧ g' = { g with
            snowflake := s
            interrupted := g.interrupted || decide (s ≠ g.snowflake) } := by
  unfold Issuer.call at h
  split at h
  · rename_i id s heq
    exact Or.inl ⟨id, s, heq, (Option.some.inj h).symm⟩
  · rename_i e s heq
    exact Or.inr ⟨e, s, heq, (Option.some.inj h).symm⟩
  · exact absurd h (by simp)

/-- Ids are only ever appended. -/
theorem call_issued_extends {twepoch : Long} {g g' : Issuer} {c : Readings twepoch}
    (h : g.call c = some g') : g.issued <+: g'.issued := by
  rcases call_some h with ⟨id, s, _, rfl⟩ | ⟨e, s, _, rfl⟩
  · exact List.prefix_append _ _
  · exact List.prefix_rfl

/-- What the condition says about a call that is let in without a later reading. -/
theorem letInLater_false {twepoch : Long} {g : Issuer} {c : Readings twepoch} {t : Long}
    (hl : g.snowflake.lastTimestamp.toNat < 2 ^ 63) (ht : t.toNat < 2 ^ 63)
    (hhead : c.clock.head? = some t) (hle : t.toNat ≤ g.snowflake.lastTimestamp.toNat)
    (hlt : g.snowflake.lastTimestamp.toNat < t.toNat + 2000) (hC : LetInLater g c) :
    g.interrupted = false := by
  have h2000 : (2000 : Long).toNat = 2000 := by decide
  have hsub := Long.toNat_sub_of_le hle
  by_contra hi
  rcases hC (by simpa using hi) t hhead with h | h
  · have := (Long.slt_iff hl ht).mp h
    omega
  · have hslt : (g.snowflake.lastTimestamp - t).slt 2000 = true :=
      (Long.slt_iff (by omega) (by omega)).mpr (by omega)
    rw [h] at hslt
    exact Bool.false_ne_true hslt

/-- A call that returns an id above the top one keeps the invariant. -/
theorem running_issue {g : Issuer} {s : Snowflake} {x : Long} (hr : Running g)
    (hlast : InRange s.twepoch s.lastTimestamp) (hx : x = s.compose s.lastTimestamp s.sequence)
    (hlt : g.top.toNat < x.toNat) : Running { snowflake := s, issued := g.issued ++ [x] } where
  last := hlast
  rolled := fun h => absurd h Bool.false_ne_true
  mem := List.mem_append_right _ (List.mem_singleton.mpr hx.symm)
  bound := by
    have htop : Issuer.top { snowflake := s, issued := g.issued ++ [x] } = x := hx.symm
    intro id hid
    rw [htop]
    rcases List.mem_append.mp hid with h | h
    · have := hr.bound id h
      omega
    · exact Nat.le_of_eq (congrArg BitVec.toNat (List.mem_singleton.mp h))

/-- The first id of a generator starts the run. -/
theorem issuerInv_first {twepoch : Long} {g g' : Issuer} {c : Readings twepoch}
    (hI : IssuerInv twepoch g) (hlast : g.snowflake.lastTimestamp = -1)
    (hnone : g.issued = []) (h : g.call c = some g') : IssuerInv twepoch g' := by
  have hwf := hI.wf
  obtain ⟨clock, hrange⟩ := c
  cases clock with
  | nil => simp [Issuer.call, nextId] at h
  | cons t clock =>
      have ht : InRange g.snowflake.twepoch t := by
        rw [hI.epoch]; exact hrange t List.mem_cons_self
      have hfirst : g.snowflake.nextId (t :: clock) = some (g.snowflake.issue t 0 clock) :=
        nextId_first hlast (by have := hwf.epoch; have := ht.2; omega)
      rcases call_some h with ⟨id, s, heq, rfl⟩ | ⟨e, s, heq, _⟩
      · rw [hfirst] at heq
        cases heq
        rw [hnone]
        refine ⟨hI.epoch, ⟨hwf.epoch, hwf.worker, hwf.dataCenter, zero_lt_sequences⟩,
          List.pairwise_singleton _ _, Or.inr ⟨ht, fun hi => absurd hi Bool.false_ne_true,
            List.mem_singleton.mpr rfl, ?_⟩⟩
        intro id hid
        exact Nat.le_of_eq (congrArg BitVec.toNat (List.mem_singleton.mp hid))
      · rw [hfirst] at heq
        exact absurd heq (by simp [issue])

/-- An exception hands out nothing, and only an interrupted rollover writes. -/
theorem issuerInv_error {twepoch : Long} {g : Issuer} {c : Readings twepoch}
    (hI : IssuerInv twepoch g) (hr : Running g) {e : String} {s : Snowflake}
    (h : Ended g.snowflake c.clock (.error e) s) :
    IssuerInv twepoch { g with
      snowflake := s
      interrupted := g.interrupted || decide (s ≠ g.snowflake) } := by
  have hwf := hI.wf
  cases h with
  | refused _ _ =>
      rw [show decide (g.snowflake ≠ g.snowflake) = false by simp, Bool.or_false]
      exact hI
  | interrupted _ _ _ hseq =>
      -- the wrap was due, so the sequence was not zero, and `4095` is out
      have h0 : (0 : Long).toNat = 0 := by decide
      have hne : ({ g.snowflake with sequence := 0 } : Snowflake) ≠ g.snowflake := by
        intro heq
        have := congrArg (fun q => q.sequence.toNat) heq
        dsimp only at this
        omega
      have hni : g.interrupted = false := by
        by_contra hi
        have := hr.rolled (by simpa using hi)
        rw [this] at hseq
        omega
      have htop : Issuer.top { g with
          snowflake := { g.snowflake with sequence := 0 }, interrupted := true } = g.top := by
        have h4095 : g.snowflake.sequence = 4095 := BitVec.eq_of_toNat_eq (by rw [hseq]; decide)
        unfold Issuer.top
        rw [hni, if_neg Bool.false_ne_true, h4095]
        rfl
      rw [show decide (({ g.snowflake with sequence := 0 } : Snowflake) ≠ g.snowflake) = true from
        decide_eq_true hne, Bool.or_true]
      refine ⟨hI.epoch, ⟨hwf.epoch, hwf.worker, hwf.dataCenter, zero_lt_sequences⟩,
        hI.increasing, Or.inr ⟨hr.last, fun _ => rfl, ?_, ?_⟩⟩
      · rw [htop]; exact hr.mem
      · rw [htop]; exact hr.bound

/-- An answered call, the condition met, goes above everything issued before. -/
theorem issuerInv_ok {twepoch : Long} {g : Issuer} {c : Readings twepoch}
    (hI : IssuerInv twepoch g) (hr : Running g) (hC : LetInLater g c)
    (hrange : ∀ t ∈ c.clock, InRange g.snowflake.twepoch t) {id : Long} {s : Snowflake}
    (h : Ended g.snowflake c.clock (.ok id) s) :
    IssuerInv twepoch { snowflake := s, issued := g.issued ++ [id] } := by
  have hwf := hI.wf
  have hepoch := hwf.epoch
  have hlast := hr.last
  have h0 : (0 : Long).toNat = 0 := by decide
  have h4095 : (4095 : Long).toNat = 4095 := by decide
  have hl : g.snowflake.lastTimestamp.toNat < 2 ^ 63 := by have := hlast.2; omega
  have htopn : (if g.interrupted = true then (4095 : Long) else g.snowflake.sequence).toNat
      < 4096 := by
    split
    · omega
    · exact hwf.sequence
  cases h with
  | @sameMillis t n hhead hle hlt hn hn' =>
      have ht := hrange t (List.mem_of_mem_head? hhead)
      -- without an interruption the stored sequence is the last one handed out
      have hni := letInLater_false hl (by have := ht.2; omega) hhead hle hlt hC
      have hlt : g.top.toNat < (g.snowflake.compose g.snowflake.lastTimestamp n).toNat :=
        compose_lt_compose hwf hlast hlast htopn hn' (Or.inr ⟨rfl, by
          rw [hni, if_neg Bool.false_ne_true]; omega⟩)
      exact ⟨hI.epoch, ⟨hepoch, hwf.worker, hwf.dataCenter, hn'⟩,
        increasing_snoc hI.increasing hr.bound hlt (compose_lt hwf hlast hn'),
        Or.inr (running_issue hr hlast rfl hlt)⟩
  | @laterMillis u t _ _ ht hlater =>
      have hlt : g.top.toNat < (g.snowflake.compose t 0).toNat :=
        compose_lt_compose hwf hlast ht htopn (by omega) (Or.inl hlater)
      exact ⟨hI.epoch, ⟨hepoch, hwf.worker, hwf.dataCenter, zero_lt_sequences⟩,
        increasing_snoc hI.increasing hr.bound hlt (compose_lt hwf ht (by omega)),
        Or.inr (running_issue hr ht rfl hlt)⟩

theorem readings_inRange {twepoch : Long} {g : Issuer} (hI : IssuerInv twepoch g)
    (c : Readings twepoch) : ∀ t ∈ c.clock, InRange g.snowflake.twepoch t := by
  rw [hI.epoch]
  exact c.inRange

/-- **One call, the condition met: the invariant is kept.** -/
theorem issuerInv_call {twepoch : Long} {g g' : Issuer} {c : Readings twepoch}
    (hI : IssuerInv twepoch g) (hC : LetInLater g c) (h : g.call c = some g') :
    IssuerInv twepoch g' := by
  rcases hI.started with ⟨hlast, hnone, _⟩ | hr
  · exact issuerInv_first hI hlast hnone h
  · have hrange := readings_inRange hI c
    rcases call_some h with ⟨id, s, heq, rfl⟩ | ⟨e, s, heq, rfl⟩
    · exact issuerInv_ok hI hr hC hrange (nextId_ended hI.wf hr.last hrange heq)
    · exact issuerInv_error hI hr (nextId_ended hI.wf hr.last hrange heq)

/-- **One call, the condition missed: an id comes out that is not above the last.** -/
theorem not_increasing_call {twepoch : Long} {g g' : Issuer} {c : Readings twepoch}
    (hI : IssuerInv twepoch g) (hC : ¬ LetInLater g c) (h : g.call c = some g') :
    ¬ Increasing g'.issued := by
  have hwf := hI.wf
  have hepoch := hwf.epoch
  have hrange := readings_inRange hI c
  unfold LetInLater at hC
  push Not at hC
  obtain ⟨hi, t, hhead, hslt, hnear⟩ := hC
  rcases hI.started with ⟨_, _, hni⟩ | hr
  · rw [hni] at hi; exact absurd hi Bool.false_ne_true
  · have h0 : (0 : Long).toNat = 0 := by decide
    have h4095 : (4095 : Long).toNat = 4095 := by decide
    have hseq : g.snowflake.sequence.toNat = 0 := by rw [hr.rolled hi, h0]
    have hlast := hr.last
    have hl : g.snowflake.lastTimestamp.toNat < 2 ^ 63 := by have := hlast.2; omega
    have ht : t.toNat < 2 ^ 63 := by
      have := (hrange t (List.mem_of_mem_head? hhead)).2
      omega
    have hle : t.toNat ≤ g.snowflake.lastTimestamp.toNat := by
      have := mt (Long.slt_iff hl ht).mpr hslt
      omega
    have hback : ¬ t.toNat + 2000 ≤ g.snowflake.lastTimestamp.toNat := by
      have hsub := Long.toNat_sub_of_le hle
      have h2000 : (2000 : Long).toNat = 2000 := by decide
      rw [ne_eq, Bool.not_eq_false, Long.slt_iff (by omega) (by omega)] at hnear
      omega
    have htop : g.top = g.snowflake.compose g.snowflake.lastTimestamp 4095 := by
      unfold Issuer.top; rw [if_pos hi]
    rcases call_some h with ⟨id, s, heq, rfl⟩ | ⟨e, s, heq, rfl⟩
    · cases nextId_ended hwf hlast hrange heq with
      | @sameMillis t' n _ _ _ hn hn' =>
          -- sequence number 1 of a millisecond that has been used up
          refine not_increasing_snoc hr.mem ?_ (by rw [htop]; exact compose_lt hwf hlast (by omega))
          rw [htop]
          exact Nat.le_of_lt (compose_lt_compose hwf hlast hlast hn' (by omega)
            (Or.inr ⟨rfl, by omega⟩))
      | @laterMillis u t' hhead' hwhy _ _ =>
          rw [hhead] at hhead'
          cases hhead'
          omega
    · cases nextId_ended hwf hlast hrange heq with
      | refused hhead' hb =>
          rw [hhead] at hhead'
          cases hhead'
          exact absurd hb hback
      | interrupted _ _ _ hs => omega

/-- A generator that has issued nothing yet. -/
theorem issuerInv_init {epochDate : Option Long} {w d : Long} {s : Snowflake}
    (h : create epochDate w d = .ok s) (hepoch : s.twepoch.toNat ≤ 2 ^ 62) :
    IssuerInv s.twepoch { snowflake := s } := by
  obtain ⟨hwf, _, hlast⟩ := create_wellFormed h hepoch
  exact ⟨rfl, hwf, List.Pairwise.nil, Or.inl ⟨hlast, rfl, rfl⟩⟩

theorem Increasing.nodup {ids : List Long} (h : Increasing ids) : ids.Nodup :=
  h.imp fun hab he => by
    rw [he, BitVec.slt_iff_toInt_lt] at hab
    exact Int.lt_irrefl _ hab

theorem exec_issued_extends {twepoch : Long} {g g' : Issuer} {cs : List (Readings twepoch)}
    (h : exec Issuer.call g cs = some g') : g.issued <+: g'.issued :=
  exec_invariant (I := fun x => g.issued <+: x.issued)
    (fun _ _ _ hs hstep => hs.trans (call_issued_extends hstep)) List.prefix_rfl h

/--
**When the ids of a generator increase.**

For a generator the constructor accepts, with an epoch between `0` and `2^62`,
and for every run of calls on readings within the 41 bits, calls that throw
included: the ids returned are strictly increasing, and so pairwise distinct,
exactly when no call is let in without a later reading after one that
`tilNextMillis` interrupted.
-/
theorem ids_increasing_iff {epochDate : Option Long} {workerId dataCenterId : Long}
    {s : Snowflake} (hnew : create epochDate workerId dataCenterId = .ok s)
    (hepoch : s.twepoch.toNat ≤ 2 ^ 62) {calls : List (Readings s.twepoch)} {g : Issuer}
    (hrun : exec Issuer.call { snowflake := s } calls = some g) :
    (Increasing g.issued ∧ g.issued.Nodup) ↔
      AllSteps Issuer.call LetInLater { snowflake := s } calls := by
  have hiff : AllStates Issuer.call (fun x => Increasing x.issued) { snowflake := s } calls ↔
      AllSteps Issuer.call LetInLater { snowflake := s } calls :=
    allStates_iff_allSteps (I := IssuerInv s.twepoch) (fun _ hI => hI.increasing)
      (fun _ _ _ hI hC h => issuerInv_call hI hC h)
      (fun _ _ _ hI hC h => not_increasing_call hI hC h) (issuerInv_init hnew hepoch)
  rw [← hiff]
  refine ⟨?_, ?_⟩
  · intro hlast
    obtain ⟨hinc, _⟩ := hlast
    refine allStates_iff_split.mpr fun pre post t hsplit hpre => ?_
    rw [hsplit, exec_append_some] at hrun
    obtain ⟨t', ht', hpost⟩ := hrun
    rw [hpre] at ht'
    cases ht'
    exact hinc.sublist (exec_issued_extends hpost).sublist
  · intro h
    have hinc : Increasing g.issued := h.last hrun
    exact ⟨hinc, hinc.nodup⟩

/-! ## A rollover that the clock interrupts -/

/-- The generator of worker 1 in data centre 1, on the default epoch. -/
def generator : Snowflake := { twepoch := defaultEpoch, workerId := 1, dataCenterId := 1 }

theorem inRange_near {k : Nat} (h : k < 10) :
    InRange generator.twepoch (defaultEpoch + BitVec.ofNat 64 k) := by
  have hbase : defaultEpoch.toNat = 1288834974657 := by decide
  have hk : (BitVec.ofNat 64 k).toNat = k := by rw [BitVec.toNat_ofNat, Nat.mod_eq_of_lt (by omega)]
  show defaultEpoch.toNat ≤ (defaultEpoch + BitVec.ofNat 64 k).toNat
    ∧ (defaultEpoch + BitVec.ofNat 64 k).toNat < defaultEpoch.toNat + 2 ^ 41
  rw [BitVec.toNat_add, hk, hbase, Nat.mod_eq_of_lt (by omega)]
  omega

/-- A call that reads the clock `k` milliseconds after the epoch. -/
def readAt (k : Fin 10) : Readings generator.twepoch where
  clock := [defaultEpoch + BitVec.ofNat 64 k]
  inRange := fun _ ht => (List.mem_singleton.mp ht).symm ▸ inRange_near k.isLt

/-- A call whose second reading, taken in `tilNextMillis`, is earlier than its first. -/
def readAtThen (k j : Fin 10) : Readings generator.twepoch where
  clock := [defaultEpoch + BitVec.ofNat 64 k, defaultEpoch + BitVec.ofNat 64 j]
  inRange := by
    intro t ht
    rcases List.mem_cons.mp ht with rfl | ht
    · exact inRange_near k.isLt
    · exact (List.mem_singleton.mp ht).symm ▸ inRange_near j.isLt

/-- Three calls, the last one in a later millisecond. -/
theorem ids_increasing_three :
    (Increasing [0x1421000, 0x1421001, 0x1821000]
        ∧ [0x1421000, 0x1421001, (0x1821000 : Long)].Nodup) ↔
      AllSteps Issuer.call LetInLater { snowflake := generator }
        [readAt 5, readAt 5, readAt 6] :=
  @ids_increasing_iff none 1 1 generator rfl (by decide) [readAt 5, readAt 5, readAt 6]
    { snowflake := { generator with lastTimestamp := defaultEpoch + 6 },
      issued := [0x1421000, 0x1421001, 0x1821000] } rfl

/-- `n + 1` calls within one millisecond hand out the sequence numbers `0 … n`. -/
theorem exec_sameMillis (k : Fin 10) : ∀ n < 4096,
    exec Issuer.call { snowflake := generator } (List.replicate (n + 1) (readAt k)) =
      some { snowflake := { generator with
               sequence := BitVec.ofNat 64 n
               lastTimestamp := defaultEpoch + BitVec.ofNat 64 k }
             issued := (List.range (n + 1)).map fun i =>
               generator.compose (defaultEpoch + BitVec.ofNat 64 k) (BitVec.ofNat 64 i) }
  | 0, _ => by
      have ht : (defaultEpoch + BitVec.ofNat 64 k).toNat < 2 ^ 63 := by
        have hbase : generator.twepoch.toNat + 2 ^ 41 < 2 ^ 63 := by decide
        exact Nat.lt_trans (inRange_near k.isLt).2 hbase
      rw [List.replicate_one, exec_singleton, Issuer.call]
      simp only [readAt, nextId_first (s := generator) rfl ht, issue]
      rfl
  | n + 1, hn => by
      have hseq : (BitVec.ofNat 64 n + 1) &&& sequenceMask = BitVec.ofNat 64 (n + 1) := by
        apply BitVec.eq_of_toNat_eq
        have hval : (BitVec.ofNat 64 n).toNat = n := by
          rw [BitVec.toNat_ofNat, Nat.mod_eq_of_lt (by omega)]
        rw [next_sequence (by omega), hval, BitVec.toNat_ofNat]
        omega
      have hnz : BitVec.ofNat 64 (n + 1) ≠ 0 := by
        intro h
        have := congrArg BitVec.toNat h
        rw [BitVec.toNat_ofNat, Nat.mod_eq_of_lt (by omega)] at this
        exact Nat.succ_ne_zero n this
      have hslt : (defaultEpoch + BitVec.ofNat 64 k).slt (defaultEpoch + BitVec.ofNat 64 k)
          = false := by
        rw [BitVec.slt_eq_decide]; simp
      rw [List.replicate_succ', exec_append, exec_sameMillis k n (by omega), Option.bind_some,
        exec_singleton, Issuer.call]
      simp only [readAt, nextId, tolerate, hslt, Bool.false_eq_true, if_false, if_true, hseq, hnz,
        issue]
      rw [List.range_succ (n := n + 1), List.map_append]
      rfl

theorem nextId_wrapBack :
    nextId { generator with sequence := 4095, lastTimestamp := defaultEpoch + 5 }
        (readAtThen 5 4).clock =
      some (.error (clockMovedBackwards 1),
        { generator with sequence := 0, lastTimestamp := defaultEpoch + 5 }, []) := rfl

theorem nextId_afterWrapBack :
    nextId { generator with sequence := 0, lastTimestamp := defaultEpoch + 5 }
        (readAt 5).clock =
      some (.ok (generator.compose (defaultEpoch + 5) 1),
        { generator with sequence := 1, lastTimestamp := defaultEpoch + 5 }, []) := rfl

/-- The call that wraps reads an earlier time, the next one the old time again. -/
theorem exec_interrupted (ids : List Long) :
    exec Issuer.call { snowflake := { generator with
        sequence := 4095, lastTimestamp := defaultEpoch + 5 }, issued := ids }
      [readAtThen 5 4, readAt 5] =
      some { snowflake := { generator with sequence := 1, lastTimestamp := defaultEpoch + 5 },
             issued := ids ++ [generator.compose (defaultEpoch + 5) 1] } := by
  rw [exec_cons, Issuer.call, nextId_wrapBack, Option.bind_some, exec_singleton, Issuer.call,
    nextId_afterWrapBack]

/--
**Not every run increases.** After 4096 ids of one millisecond the clock steps
back by one millisecond during the wait, and then returns: the second id of that
millisecond is handed out twice.
-/
theorem ids_not_always_increasing :
    ¬ ∀ (epochDate : Option Long) (workerId dataCenterId : Long) (s : Snowflake),
        create epochDate workerId dataCenterId = .ok s → s.twepoch.toNat ≤ 2 ^ 62 →
        ∀ (calls : List (Readings s.twepoch)) (g : Issuer),
          exec Issuer.call { snowflake := s } calls = some g →
          Increasing g.issued ∧ g.issued.Nodup := by
  intro hall
  have hrun := exec_append_some.mpr ⟨_, exec_sameMillis 5 4095 (by omega),
    exec_interrupted ((List.range 4096).map fun i =>
      generator.compose (defaultEpoch + 5) (BitVec.ofNat 64 i))⟩
  obtain ⟨_, hnd⟩ := hall none 1 1 generator rfl (by decide) _ _ hrun
  have hmem : generator.compose (defaultEpoch + 5) 1 ∈ (List.range 4096).map fun i =>
      generator.compose (defaultEpoch + 5) (BitVec.ofNat 64 i) :=
    List.mem_map.mpr ⟨1, List.mem_range.mpr (by omega), rfl⟩
  exact (List.nodup_append.mp hnd).2.2 _ hmem _ (List.mem_singleton.mpr rfl) rfl

end TxLcn.Proof
