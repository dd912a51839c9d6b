/-
The double nearest to a number that is not negative.

A double that is put together from a mantissa and an exponent has no sign bit: the exponent field is
below its greatest value and the mantissa is short.  So the double that stands for a number above
zero is not below zero, however large the number is.

* `Number.not_ofBits_lt_zero` — a double without a sign bit is not below zero;
* `Decimal.unitsOf_le` — the mantissa for a whole number has at most fifty-three bits;
* `Number.not_nearFloat_lt_zero` — **a number that is not zero or below has no double below zero**.
-/

import PhpAudit.Proofs.Number.Order

set_option autoImplicit false

namespace PhpAudit

/-! ### Signs -/

namespace Number

open Float.Model (UnpackedFloat Format)
open Float.Model.UnpackedFloat (Sign)

/-- What an unpacked double shows when its sign is positive. -/
inductive Unsigned : UnpackedFloat → Prop
  | nan : Unsigned .notANumber
  | infinite : Unsigned (.infinity .positive)
  | zero : Unsigned (.zero .positive)
  | finite {m : Nat} {e : Int} (hm : 0 < m) : Unsigned (.finite .positive m e hm)

theorem Unsigned.not_lt_zero {u : UnpackedFloat} (h : Unsigned u) :
    u.compare (0.0 : Float).toModel.unpack ≠ some .lt := by
  have hzero : (0.0 : Float).toModel.unpack = .zero .positive := by rfl
  rw [hzero]
  cases h <;> simp [UnpackedFloat.compare]

/-- Bits without the sign bit are those of a double with a positive sign. -/
theorem unsigned_unpack {b : BitVec 64}
    (h : Sign.ofBitVec (@UnpackedFloat.unpackSign .binary64 b) = .positive) :
    Unsigned (UnpackedFloat.unpack .binary64 b) := by
  simp only [UnpackedFloat.unpack, h]
  split
  · split
    · exact .infinite
    · exact .nan
  · split
    · split
      · exact .zero
      · exact .finite _
    · exact .finite _

/-- Packing keeps the sign. -/
theorem Unsigned.unpack_pack {u : UnpackedFloat} (h : Unsigned u) :
    Unsigned (Float.Model.pack u).unpack := by
  have hpack : ∃ e m, UnpackedFloat.pack .binary64 u =
      UnpackedFloat.packComponents .binary64 .positive e m := by
    cases h with
    | nan => exact ⟨_, _, rfl⟩
    | infinite => exact ⟨_, _, rfl⟩
    | zero => exact ⟨_, _, rfl⟩
    | finite hm =>
        simp only [UnpackedFloat.pack]
        split
        · exact ⟨_, _, rfl⟩
        · split <;> exact ⟨_, _, rfl⟩
  obtain ⟨e, m, hpack⟩ := hpack
  refine unsigned_unpack (?_ : Sign.ofBitVec
    (@UnpackedFloat.unpackSign .binary64 (UnpackedFloat.pack .binary64 u)) = .positive)
  rw [hpack, UnpackedFloat.unpackSign_packComponents]
  rfl

/-- A double without a sign bit is not below zero. -/
theorem not_ofBits_lt_zero {bits : UInt64} (h : bits.toNat < 2 ^ 63) :
    ¬ Float.ofBits bits < 0.0 := by
  have hsign : Sign.ofBitVec (@UnpackedFloat.unpackSign .binary64 bits.toBitVec) = .positive := by
    have hneg := isNegative_unpackSign bits.toBitVec
    have hzero : bits.toBitVec.toNat / Nat.pow 2 63 = 0 := Nat.div_eq_of_lt h
    rw [hzero] at hneg
    cases hs : Sign.ofBitVec (@UnpackedFloat.unpackSign .binary64 bits.toBitVec) with
    | positive => rfl
    | negative => rw [hs] at hneg; cases hneg
  rw [lt_iff_compare]
  exact (unsigned_unpack hsign).unpack_pack.not_lt_zero

end Number

/-! ### Whole numbers -/

namespace Decimal

theorem scaleOf_one {num : Nat} (h : num ≠ 0) : scaleOf num 1 = (num.log2 : Int) - 52 := by
  have hguess : ((bitLength num : Nat) : Int) - bitLength 1 = num.log2 := by
    have hone : bitLength 1 = 1 := by decide
    have hnum : bitLength num = num.log2 + 1 := by simp [bitLength, h]
    omega
  have hreaches : reaches num 1 num.log2 = true := by
    have hle : 2 ^ num.log2 ≤ num := Nat.log2_self_le h
    simpa [reaches] using hle
  simp only [scaleOf, hguess, hreaches, if_true, leastExponent]
  omega

theorem roundDiv_le {num den bound : Nat} (h : num < bound * den) : roundDiv num den ≤ bound := by
  have hwhole : num / den < bound := Nat.div_lt_of_lt_mul (Nat.mul_comm bound den ▸ h)
  simp only [roundDiv]
  split
  · omega
  · split
    · omega
    · split <;> omega

/-- The mantissa for a whole number has at most fifty-three bits, or is the least number with one
bit more. -/
theorem unitsOf_le {num : Nat} (h : num ≠ 0) : unitsOf num 1 (scaleOf num 1) ≤ 2 ^ 53 := by
  have hlt : num < 2 ^ (num.log2 + 1) := Nat.lt_log2_self
  rw [scaleOf_one h, unitsOf]
  split
  · rename_i hlarge
    refine roundDiv_le ?_
    have hexp : num.log2 + 1 = 53 + ((num.log2 : Int) - 52).toNat := by omega
    rw [hexp, pow_add] at hlt
    simpa using hlt
  · rename_i hsmall
    refine roundDiv_le ?_
    have hexp : 53 = num.log2 + 1 + (-((num.log2 : Int) - 52)).toNat := by omega
    have hscaled := Nat.mul_lt_mul_of_pos_right hlt
      (Nat.two_pow_pos (-((num.log2 : Int) - 52)).toNat)
    rw [← pow_add, ← hexp] at hscaled
    simpa using hscaled

/-- A double that is put together is not below zero. -/
theorem not_assemble?_lt_zero {mantissa : Nat} {e : Int} {x : Float} (hm : mantissa ≤ 2 ^ 53)
    (h : assemble? mantissa e = some x) : ¬ x < 0.0 := by
  have hbits : ∃ n, n < 2 ^ 63 ∧ x = Float.ofBits (Nat.toUInt64 n) := by
    have hpow : Nat.pow 2 52 = 2 ^ 52 ∧ Nat.pow 2 53 = 2 ^ 53 := ⟨rfl, rfl⟩
    simp only [assemble?, hpow, beq_iff_eq] at h
    split at h
    · split at h
      · cases h
      · rw [if_neg (by omega)] at h
        exact ⟨_, by omega, (Option.some.inj h).symm⟩
    · split at h
      · cases h
      · split at h
        · exact ⟨_, by omega, (Option.some.inj h).symm⟩
        · exact ⟨_, by omega, (Option.some.inj h).symm⟩
  obtain ⟨n, hn, rfl⟩ := hbits
  refine Number.not_ofBits_lt_zero ?_
  rw [Nat.toUInt64_eq, UInt64.toNat_ofNat_of_lt' (Nat.lt_trans hn (by decide))]
  exact hn

theorem not_nearest?_lt_zero {num : Nat} {x : Float} (h : nearest? num 1 = some x) :
    ¬ x < 0.0 := by
  simp only [nearest?] at h
  split at h
  · cases h
    decide
  · rename_i hnum
    exact not_assemble?_lt_zero (unitsOf_le (by simpa using hnum)) h

end Decimal

namespace Number

/-- A double that is not zero or below is not below zero. -/
theorem not_lt_zero_of_not_le {x : Float} (h : (float x).le (.int 0) = false) : ¬ x < 0.0 := by
  intro hlt
  have hzero : (float 0.0).place? = (int 0).place? := by
    have hclass : Decimal.classify 0.0 = .finite ⟨false, 0, -1074, false⟩ := rfl
    rw [place?, place?, hclass, Decimal.Class.place?, Decimal.Binary.steps_zero, zero_mul]
  have hcompare : (float x).compare? (int 0) = some .lt := by
    rw [compare?_eq, ← hzero, ← compare?_float, compare?, if_pos hlt]
  rw [le, hcompare] at h
  cases h

/-- **The double of a number that is not zero or below is not below zero.** -/
theorem not_nearFloat_lt_zero {n : Number} (h : n.le (.int 0) = false) : ¬ n.nearFloat < 0.0 := by
  cases n with
  | float x => exact not_lt_zero_of_not_le h
  | int n =>
      have hpos : ¬ n < 0 := by
        intro hneg
        rw [le, compare?, compare_lt_iff_lt.2 hneg] at h
        cases h
      rw [nearFloat, floatOfInt?, if_neg hpos]
      cases hnear : Decimal.nearest? n.natAbs 1 with
      | none =>
          simp only [Option.map_none, Option.getD_none]
          decide
      | some x =>
          simp only [Option.map_some, Option.getD_some, if_neg hpos]
          exact Decimal.not_nearest?_lt_zero hnear

end Number

end PhpAudit
