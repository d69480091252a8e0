import Mathlib.Tactic.NormNum

/-!
# Java's `long`

A `long` is a 64-bit word compared by its two's complement value. Below `2^63`
the signed order is the order of the unsigned values, and shifting left, masking
and or-ing disjoint fields are multiplication, remainder and addition. That is
all a bit-packed identifier needs.
-/

namespace TxLcn.Lib

/-- A 64-bit two's complement integer. -/
abbrev Long := BitVec 64

instance : LawfulBEq Long := inferInstance

namespace Long

theorem toInt_of_lt {x : Long} (hx : x.toNat < 2 ^ 63) : x.toInt = x.toNat :=
  BitVec.toInt_eq_toNat_of_lt (by omega)

/-- The signed order of two non-negative values. -/
theorem slt_iff {x y : Long} (hx : x.toNat < 2 ^ 63) (hy : y.toNat < 2 ^ 63) :
    x.slt y = true ↔ x.toNat < y.toNat := by
  rw [BitVec.slt_iff_toInt_lt, toInt_of_lt hx, toInt_of_lt hy, Int.ofNat_lt]

/-- No non-negative value lies below `-1`. -/
theorem not_slt_neg_one {x : Long} (hx : x.toNat < 2 ^ 63) : x.slt (-1) = false := by
  have h : ¬ x.slt (-1) = true := by
    rw [BitVec.slt_iff_toInt_lt, toInt_of_lt hx]
    have : ((-1 : Long)).toInt = -1 := by decide
    omega
  simpa using h

theorem ne_neg_one {x : Long} (hx : x.toNat < 2 ^ 63) : x ≠ -1 := by
  rintro rfl
  exact absurd hx (by decide)

/-- A value checked to lie between `0` and `b`. -/
theorem toNat_le_of_not_slt {x b : Long} (hb : b.toNat < 2 ^ 63) (h₁ : b.slt x = false)
    (h₂ : x.slt 0 = false) : x.toNat ≤ b.toNat := by
  have hx : x.toNat < 2 ^ 63 := by
    have h0 : ¬ x.toInt < (0 : Long).toInt := by
      rw [← BitVec.slt_iff_toInt_lt, h₂]; exact Bool.false_ne_true
    have : (0 : Long).toInt = 0 := by decide
    rw [BitVec.toInt_eq_toNat_cond] at h0
    split at h0 <;> omega
  have h : ¬ b.toNat < x.toNat := by
    rw [← slt_iff hb hx, h₁]; exact Bool.false_ne_true
  omega

theorem toNat_sub_of_le {x y : Long} (h : y.toNat ≤ x.toNat) :
    (x - y).toNat = x.toNat - y.toNat :=
  BitVec.toNat_sub_of_le (by simpa [BitVec.le_def] using h)

/-- A difference that is a `long`. -/
theorem toInt_sub_of_range {x y : Long} (h₁ : -2 ^ 63 ≤ x.toInt - y.toInt)
    (h₂ : x.toInt - y.toInt < 2 ^ 63) : (x - y).toInt = x.toInt - y.toInt := by
  rw [BitVec.toInt_sub]
  exact Int.bmod_eq_of_le (by omega) (by omega)

/-- The unsigned value of a difference that is no negative `long`. -/
theorem toNat_sub_of_toInt_le {x y : Long} (h : y.toInt ≤ x.toInt) :
    ((x - y).toNat : Int) = x.toInt - y.toInt := by
  rw [BitVec.toNat_sub, BitVec.toInt_eq_toNat_cond, BitVec.toInt_eq_toNat_cond] at *
  omega

theorem toNat_shiftLeft_of_lt {x : Long} {k : Nat} (h : x.toNat * 2 ^ k < 2 ^ 64) :
    (x <<< k).toNat = x.toNat * 2 ^ k := by
  rw [BitVec.toNat_shiftLeft, Nat.shiftLeft_eq, Nat.mod_eq_of_lt h]

/-- Or-ing a value into free low bits adds it. -/
theorem toNat_or_of_dvd {x y : Long} {k : Nat} (hx : 2 ^ k ∣ x.toNat) (hy : y.toNat < 2 ^ k) :
    (x ||| y).toNat = x.toNat + y.toNat := by
  obtain ⟨a, ha⟩ := hx
  rw [BitVec.toNat_or, ha, ← Nat.two_pow_add_eq_or_of_lt hy]

/-- Masking with `2^k - 1` keeps the low `k` bits. -/
theorem toNat_and_mask {x m : Long} {k : Nat} (hm : m.toNat = 2 ^ k - 1) :
    (x &&& m).toNat = x.toNat % 2 ^ k := by
  rw [BitVec.toNat_and, hm, Nat.and_two_pow_sub_one_eq_mod]

/-- The arithmetic shift of a non-negative value divides. -/
theorem toNat_sshiftRight_of_lt {x : Long} {k : Nat} (hx : x.toNat < 2 ^ 63) :
    (x.sshiftRight k).toNat = x.toNat / 2 ^ k := by
  have hmsb : x.msb = false := BitVec.msb_eq_false_iff_two_mul_lt.mpr (by omega)
  rw [BitVec.toNat_sshiftRight_of_msb_false hmsb, Nat.shiftRight_eq_div_pow]

/-- The digits of the unsigned value. -/
def toBinaryString (x : Long) : String := String.ofList (Nat.toDigits 2 x.toNat)

theorem toBinaryString_injective {x y : Long} (h : toBinaryString x = toBinaryString y) :
    x = y := by
  have hdigits : Nat.toDigits 2 x.toNat = Nat.toDigits 2 y.toNat := by
    have hlist := congrArg String.toList h
    simpa [toBinaryString] using hlist
  have hvalue := congrArg (fun ds => Nat.ofDigitChars 2 ds 0) hdigits
  simp only [Nat.ofDigitChars_toDigits (by decide : 1 < 2) (by decide)] at hvalue
  exact BitVec.eq_of_toNat_eq hvalue

/-- As many digits as the unsigned value has. -/
theorem length_toBinaryString_le_iff {x : Long} {n : Nat} (hn : 0 < n) :
    (toBinaryString x).length ≤ n ↔ x.toNat < 2 ^ n := by
  unfold toBinaryString
  rw [String.length_ofList]
  exact Nat.length_toDigits_le_iff (by omega) hn

end Long

end TxLcn.Lib
