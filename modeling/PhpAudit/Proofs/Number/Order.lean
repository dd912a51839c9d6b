/-
The exact order of numbers.

Numbers of both kinds have a common scale: a whole number and a finite double are whole multiples
of the smallest double, and the infinite doubles bound them.  Comparing two numbers compares their
places on that scale, whichever kinds they are, so the order is transitive although whole numbers
and doubles are compared by different rules.

Main definitions:

* `Number.place?` — the place of a number on the scale, none if it is no number;
* `Number.Reads` — what the bit pattern of a double says, read in two ways.

Main results:

* `Number.unpack_reads` — the two readings of a double agree;
* `Number.compare?_eq` — comparing numbers is comparing their places;
* `Number.le_trans` — the order is transitive.
-/

import Mathlib
import PhpAudit.Number

set_option autoImplicit false

namespace PhpAudit

/-! ### Places on a common scale -/

/-- A finite double in units of the smallest one. -/
def Decimal.Binary.steps (b : Decimal.Binary) : Int :=
  if b.negative then -(b.mantissa * 2 ^ (b.exponent + 1074).toNat)
  else b.mantissa * 2 ^ (b.exponent + 1074).toNat

theorem Decimal.Binary.steps_zero (negative : Bool) (e : Int) (narrow : Bool) :
    Binary.steps ⟨negative, 0, e, narrow⟩ = 0 := by
  cases negative <;> simp [steps]

/-- The place of a double on the scale. -/
def Decimal.Class.place? : Decimal.Class → Option (WithBot (WithTop Int))
  | .nan => none
  | .infinite negative => some (if negative then ⊥ else ⊤)
  | .finite b => some (b.steps : WithTop Int)

namespace Number

open Decimal.Binary (steps_zero)
open Float.Model (UnpackedFloat Format)
open Float.Model.UnpackedFloat (Sign)

/-- The place of a number on the scale; none if it is no number. -/
def place? : Number → Option (WithBot (WithTop Int))
  | int n => some ((n * 2 ^ 1074 : Int) : WithTop Int)
  | float x => (Decimal.classify x).place?

/-! ### The two readings of a double -/

/-- Whether a sign is the negative one. -/
def isNegative : Sign → Bool
  | .negative => true
  | .positive => false

/-- A mantissa and an exponent as a double holds them: the exponent is the least one, or the
mantissa is long. -/
structure Canonical (m : Nat) (e : Int) : Prop where
  least : -1074 ≤ e
  short : m < 2 ^ 53
  long : e = -1074 ∨ 2 ^ 52 ≤ m

/-- The form that the arithmetic of doubles works with, and the double taken apart. -/
inductive Reads : UnpackedFloat → Decimal.Class → Prop
  | nan : Reads .notANumber .nan
  | infinite (s : Sign) : Reads (.infinity s) (.infinite (isNegative s))
  | zero (s : Sign) : Reads (.zero s) (.finite ⟨isNegative s, 0, -1074, false⟩)
  | finite (s : Sign) {m : Nat} {e : Int} (hm : 0 < m) (narrow : Bool) (h : Canonical m e) :
      Reads (.finite s m e hm) (.finite ⟨isNegative s, m, e, narrow⟩)

theorem unpackExponent_toNat (b : BitVec 64) :
    (@UnpackedFloat.unpackExponent .binary64 b).toNat = b.toNat / Nat.pow 2 52 % 2048 := by
  simp [UnpackedFloat.unpackExponent, BitVec.extractLsb_toNat, Nat.shiftRight_eq_div_pow]

theorem unpackMantissa_toNat (b : BitVec 64) :
    (@UnpackedFloat.unpackMantissa .binary64 b).toNat = b.toNat % Nat.pow 2 52 := by
  simp [UnpackedFloat.unpackMantissa, BitVec.extractLsb_toNat]

theorem isNegative_unpackSign (b : BitVec 64) :
    isNegative (Sign.ofBitVec (@UnpackedFloat.unpackSign .binary64 b)) =
      (b.toNat / Nat.pow 2 63 == 1) := by
  have hbit : ∀ c : BitVec 1, isNegative (Sign.ofBitVec c) = (c.toNat == 1) := by decide
  have hnat : (@UnpackedFloat.unpackSign .binary64 b).toNat = b.toNat / Nat.pow 2 63 := by
    have := b.isLt
    simp [UnpackedFloat.unpackSign, BitVec.extractLsb_toNat, Nat.shiftRight_eq_div_pow]
    omega
  rw [hbit, hnat]

/-- The leading one that a long mantissa does not store. -/
theorem toNat_withLeadingOne (v : BitVec 52) : (1#1 ++ v).toNat = v.toNat + 2 ^ 52 := by
  have hcons : 1#1 ++ v = (BitVec.cons true v).cast (Nat.add_comm 52 1) := rfl
  rw [hcons, BitVec.toNat_cast, BitVec.toNat_cons']
  exact Nat.add_comm _ _

theorem eq_ones_iff (v : BitVec 11) : v = -1#11 ↔ v.toNat = 2047 := by
  rw [← BitVec.toNat_inj]
  rfl

theorem eq_zero_iff {w : Nat} (v : BitVec w) : v = 0#w ↔ v.toNat = 0 := by
  rw [← BitVec.toNat_inj, BitVec.toNat_ofNat, Nat.zero_mod]

theorem unpack_reads (x : Float) : Reads x.toModel.unpack (Decimal.classify x) := by
  let bits : BitVec 64 := x.toModel.toBits.toBitVec
  have hexp : (@UnpackedFloat.unpackExponent .binary64 bits).toNat =
      x.toBits.toNat / Nat.pow 2 52 % 2048 := unpackExponent_toNat bits
  have hman : (@UnpackedFloat.unpackMantissa .binary64 bits).toNat =
      x.toBits.toNat % Nat.pow 2 52 := unpackMantissa_toNat bits
  have hsign : isNegative (Sign.ofBitVec (@UnpackedFloat.unpackSign .binary64 bits)) =
      (x.toBits.toNat / Nat.pow 2 63 == 1) := isNegative_unpackSign bits
  have hshort : (@UnpackedFloat.unpackMantissa .binary64 bits).toNat < 2 ^ 52 :=
    (@UnpackedFloat.unpackMantissa .binary64 bits).isLt
  simp only [Decimal.classify, Float.Model.unpack, UnpackedFloat.unpack, ← hsign, ← hexp, ← hman,
    beq_iff_eq, eq_ones_iff, eq_zero_iff, toNat_withLeadingOne, bits]
  split
  · split
    · exact .infinite _
    · exact .nan
  · split
    · split
      · rename_i hzero
        rw [hzero]
        exact .zero _
      · rename_i hfield _
        rw [hfield]
        exact .finite _ _ _ ⟨le_rfl, by omega, .inl rfl⟩
    · have hbias : (Format.binary64.exponentBias : Int) = 1023 := rfl
      exact .finite _ _ _ ⟨by omega, by omega, .inr (by omega)⟩

/-! ### Comparison -/

theorem Canonical.shift_lt {m n : Nat} {d e : Int} (hm : Canonical m d) (hn : Canonical n e)
    (h : d < e) : m * 2 ^ (d + 1074).toNat < n * 2 ^ (e + 1074).toNat := by
  have hlong : 2 ^ 52 ≤ n := hn.long.resolve_left (by have := hm.least; omega)
  have hexp : (d + 1074).toNat + 1 ≤ (e + 1074).toNat := by
    have := hm.least
    omega
  calc m * 2 ^ (d + 1074).toNat
      < 2 ^ 53 * 2 ^ (d + 1074).toNat := Nat.mul_lt_mul_of_pos_right hm.short (Nat.two_pow_pos _)
    _ = 2 ^ 52 * 2 ^ ((d + 1074).toNat + 1) := by ring
    _ ≤ n * 2 ^ (e + 1074).toNat :=
        Nat.mul_le_mul hlong (Nat.pow_le_pow_right (by decide) hexp)

/-- Places of finite numbers compare as whole numbers do. -/
theorem cmp_coe (u v : Int) :
    cmp ((u : WithTop Int) : WithBot (WithTop Int)) ((v : WithTop Int) : WithBot (WithTop Int)) =
      cmp u v := by
  rw [WithBot.coe_strictMono.cmp_map_eq, WithTop.coe_strictMono.cmp_map_eq]

/-- Exponents are compared first, and mantissas under one exponent. -/
theorem Canonical.compare_eq {m n : Nat} {d e : Int} (hm : Canonical m d) (hn : Canonical n e) :
    (compare d e).then (compare m n) =
      cmp (m * 2 ^ (d + 1074).toNat : Int) (n * 2 ^ (e + 1074).toNat) := by
  rcases lt_trichotomy d e with h | rfl | h
  · rw [compare_lt_iff_lt.2 h]
    have hlt := hm.shift_lt hn h
    exact (LT.lt.cmp_eq_lt (by exact_mod_cast hlt)).symm
  · rw [compare_eq_iff_eq.2 rfl, cmp_mul_pos_right (by positivity)]
    exact (cmp_eq_compare m n).symm.trans ((Nat.strictMono_cast (α := Int)).cmp_map_eq m n).symm
  · rw [compare_gt_iff_gt.2 h]
    have hlt := hn.shift_lt hm h
    exact (LT.lt.cmp_eq_gt (by exact_mod_cast hlt)).symm

/-- The size of a finite double other than zero. -/
theorem size_pos {m : Nat} (hm : 0 < m) (e : Int) :
    (0 : Int) < m * 2 ^ (e + 1074).toNat := by
  positivity

/-- Comparing doubles is comparing their places. -/
theorem Reads.compare_eq {u v : UnpackedFloat} {c d : Decimal.Class} (hu : Reads u c)
    (hv : Reads v d) : u.compare v = Option.map₂ cmp c.place? d.place? := by
  cases hu with
  | nan => cases v <;> rfl
  | infinite s =>
      cases hv with
      | nan => cases s <;> rfl
      | infinite t => cases s <;> cases t <;> rfl
      | zero t => cases s <;> rfl
      | finite t hn narrow hc => cases s <;> rfl
  | zero s =>
      cases hv with
      | nan => rfl
      | infinite t => cases t <;> rfl
      | zero t => cases s <;> cases t <;> rfl
      | @finite t n e hn narrow hc =>
          have hpos := size_pos hn e
          simp only [Decimal.Class.place?, Option.map₂_some_some, cmp_coe, steps_zero]
          cases t with
          | negative => exact congrArg some (LT.lt.cmp_eq_gt (neg_lt_zero.2 hpos)).symm
          | positive => exact congrArg some hpos.cmp_eq_lt.symm
  | @finite s m e hm narrow hc =>
      have hpos := size_pos hm e
      cases hv with
      | nan => rfl
      | infinite t => cases t <;> rfl
      | zero t =>
          simp only [Decimal.Class.place?, Option.map₂_some_some, cmp_coe, steps_zero]
          cases s with
          | negative => exact congrArg some (neg_lt_zero.2 hpos).cmp_eq_lt.symm
          | positive => exact congrArg some hpos.cmp_eq_gt.symm
      | @finite t n e' hn narrow' hc' =>
          have hpos' := size_pos hn e'
          simp only [Decimal.Class.place?, Option.map₂_some_some, cmp_coe]
          cases s with
          | negative =>
              cases t with
              | negative =>
                  refine congrArg some ?_
                  rw [hc.compare_eq hc', cmp_swap]
                  have hanti : StrictAnti (Neg.neg : Int → Int) := fun _ _ h => neg_lt_neg h
                  exact (hanti.cmp_map_eq _ _).symm
              | positive =>
                  exact congrArg some (((neg_lt_zero.2 hpos).trans hpos').cmp_eq_lt).symm
          | positive =>
              cases t with
              | negative => exact congrArg some ((neg_lt_zero.2 hpos').trans hpos).cmp_eq_gt.symm
              | positive => exact congrArg some (hc.compare_eq hc')

/-- A finite double is a whole multiple of the smallest one. -/
theorem magnitude_scaled (b : Decimal.Binary) (hb : -1074 ≤ b.exponent) :
    ∃ k : Int, 0 < k ∧ b.magnitude.den * k = 2 ^ 1074 ∧
      b.magnitude.num * k = b.mantissa * 2 ^ (b.exponent + 1074).toNat := by
  simp only [Decimal.Binary.magnitude, Decimal.Ratio.ofBinary]
  split
  · have hexp : (b.exponent + 1074).toNat = b.exponent.toNat + 1074 := by omega
    refine ⟨2 ^ 1074, by positivity, one_mul _, ?_⟩
    rw [hexp, pow_add, ← mul_assoc]
    exact congrArg (· * (2 ^ 1074 : Int)) (Nat.cast_mul _ _)
  · have hexp : (-b.exponent).toNat + (b.exponent + 1074).toNat = 1074 := by omega
    refine ⟨2 ^ (b.exponent + 1074).toNat, by positivity, ?_, rfl⟩
    rw [← hexp, pow_add]
    exact congrArg (· * (2 ^ (b.exponent + 1074).toNat : Int)) (Nat.cast_pow 2 _)

theorem Reads.least {u : UnpackedFloat} {b : Decimal.Binary} (h : Reads u (.finite b)) :
    -1074 ≤ b.exponent := by
  cases h with
  | zero s => exact le_rfl
  | finite s hm narrow hc => exact hc.least

theorem compareInt_eq (n : Int) (x : Float) :
    compareInt n x = Option.map₂ cmp (int n).place? (float x).place? := by
  simp only [compareInt, place?]
  cases h : Decimal.classify x with
  | nan => rfl
  | infinite negative => cases negative <;> rfl
  | finite b =>
      obtain ⟨k, hk, hden, hnum⟩ := magnitude_scaled b (h ▸ unpack_reads x).least
      simp only [Decimal.Class.place?, Option.map₂_some_some, cmp_coe, Decimal.Binary.steps]
      refine congrArg some ?_
      rw [← cmp_eq_compare, ← cmp_mul_pos_right hk, mul_assoc, hden, ← hnum]
      split
      · rw [neg_mul]
      · rfl

theorem lt_iff_compare (x y : Float) :
    x < y ↔ x.toModel.unpack.compare y.toModel.unpack = some .lt := by
  have hlt : x.lt y = decide (x.toModel < y.toModel) := rfl
  show x.lt y = true ↔ _
  rw [hlt, decide_eq_true_iff]
  exact beq_iff_eq

theorem beq_iff_compare (x y : Float) :
    x == y ↔ x.toModel.unpack.compare y.toModel.unpack = some .eq := by
  have hbeq : (x == y) = (x.toModel.unpack.compare y.toModel.unpack == some .eq) := rfl
  rw [hbeq]
  exact beq_iff_eq

/-- The order of doubles is the one of their places. -/
theorem compare?_float (x y : Float) :
    (float x).compare? (float y) = Option.map₂ cmp (float x).place? (float y).place? := by
  simp only [compare?, lt_iff_compare, beq_iff_compare,
    (unpack_reads _).compare_eq (unpack_reads _), place?]
  cases (Decimal.classify x).place? with
  | none => simp
  | some u =>
      cases (Decimal.classify y).place? with
      | none => simp
      | some v =>
          simp only [Option.map₂_some_some, Option.some.injEq, cmp_eq_lt_iff, cmp_eq_eq_iff]
          rcases lt_trichotomy u v with h | rfl | h
          · rw [if_pos h, h.cmp_eq_lt]
          · rw [if_neg (lt_irrefl u), if_pos rfl, cmp_self_eq_eq]
          · rw [if_neg h.not_gt, if_neg h.ne', if_pos h, h.cmp_eq_gt]

/-- Comparing numbers is comparing their places. -/
theorem compare?_eq (a b : Number) : a.compare? b = Option.map₂ cmp a.place? b.place? := by
  cases a with
  | int n =>
      cases b with
      | int m =>
          have hunit : (0 : Int) < 2 ^ 1074 := by positivity
          rw [place?, place?, Option.map₂_some_some, cmp_coe, cmp_mul_pos_right hunit,
            cmp_eq_compare]
          rfl
      | float y => exact compareInt_eq n y
  | float x =>
      cases b with
      | int m =>
          rw [compare?, compareInt_eq, Option.map_map₂, Option.map₂_swap]
          simp only [cmp_swap]
      | float y => exact compare?_float x y

/-- One number is at most another if its place is. -/
theorem le_iff {a b : Number} :
    a.le b = true ↔ ∃ u v, a.place? = some u ∧ b.place? = some v ∧ u ≤ v := by
  rw [le, compare?_eq]
  cases a.place? with
  | none => simp
  | some u =>
      cases b.place? with
      | none => simp
      | some v => simp [le_iff_lt_or_eq]

theorem le_trans {a b c : Number} (hab : a.le b = true) (hbc : b.le c = true) :
    a.le c = true := by
  obtain ⟨u, v, hu, hv, huv⟩ := le_iff.1 hab
  obtain ⟨v', w, hv', hw, hvw⟩ := le_iff.1 hbc
  cases hv.symm.trans hv'
  exact le_iff.2 ⟨u, w, hu, hw, huv.trans hvw⟩

end Number

end PhpAudit
