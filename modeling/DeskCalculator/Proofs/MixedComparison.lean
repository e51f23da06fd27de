import DeskCalculator.Value.Basic
import Mathlib

/-!
Integers beside floats. What a float stands for is a rational number, unless it is infinite or no
number at all, and an integer stands to the float as it stands to this number. Neither of the two is
rounded. So an integer that grows never falls back to the other side of a float, and no two integers
are level with the same one.
-/

open Float.Model (UnpackedFloat)
open Float.Model.UnpackedFloat (Sign unpackSign unpackExponent unpackMantissa)

namespace DeskCalculator

namespace Binary64

/-- The number that a finite float stands for: an integer times a power of two. -/
def number? : UnpackedFloat → Option ℚ
  | .zero _ => some 0
  | .finite sign significand exponent _ => some (sign.apply significand * 2 ^ exponent)
  | .infinity _ | .notANumber => none

/-- The sign that an order is told by. -/
def signOf : Ordering → SignType
  | .lt => -1
  | .eq => 0
  | .gt => 1

/-- How an integer stands to a float. It is below one infinity and above the other, and it is level
with a float that is no number. -/
inductive Stands (n : Int) : UnpackedFloat → Ordering → Prop where
  | number {u : UnpackedFloat} {q : ℚ} {o : Ordering} (number : number? u = some q)
      (sign : signOf o = SignType.sign ((n : ℚ) - q)) : Stands n u o
  | below : Stands n (.infinity .positive) .lt
  | above : Stands n (.infinity .negative) .gt
  | nan : Stands n .notANumber .eq

def isNegative : Sign → Bool
  | .negative => true
  | .positive => false

section fields
variable (b : BitVec (Float.Model.Format.numBits .binary64))

theorem toNat_unpackExponent : (unpackExponent b).toNat = b.toNat / leadingBit % 0x800 := by
  rw [unpackExponent, BitVec.toNat_cast, BitVec.extractLsb_toNat, Nat.shiftRight_eq_div_pow]
  rfl

theorem toNat_unpackMantissa : (unpackMantissa b).toNat = b.toNat % leadingBit := by
  rw [unpackMantissa, BitVec.toNat_cast, BitVec.extractLsb_toNat, Nat.shiftRight_zero]
  rfl

theorem isNegative_unpackSign :
    isNegative (.ofBitVec (unpackSign b)) = decide (signBit ≤ b.toNat) := by
  have top : (unpackSign b).toNat = b.toNat / signBit := by
    rw [unpackSign, BitVec.toNat_cast, BitVec.extractLsb_toNat, Nat.shiftRight_eq_div_pow]
    exact Nat.mod_eq_of_lt (Nat.div_lt_of_lt_mul b.isLt)
  have positive : 0 < signBit := by decide
  unfold Sign.ofBitVec
  split
  · rename_i zero
    rw [zero] at top
    have small := (Nat.div_eq_zero_iff_lt positive).mp top.symm
    exact (decide_eq_false (Nat.not_le_of_lt small)).symm
  · rename_i one
    refine (decide_eq_true (Nat.le_of_not_lt fun small => one ?_)).symm
    rw [Nat.div_eq_of_lt small] at top
    exact BitVec.eq_of_toNat_eq top

end fields

/-- A float in parts, as the standard model of floats unpacks it. -/
def ofUnpacked : UnpackedFloat → Binary64
  | .notANumber => nan
  | .infinity sign => infinite (isNegative sign)
  | .zero sign => finite (isNegative sign) 0 (-1074)
  | .finite sign significand exponent _ => finite (isNegative sign) significand exponent

theorem toNat_leading (fraction : BitVec 52) :
    (1#1 ++ fraction).toNat = leadingBit + fraction.toNat := by
  have leading : leadingBit = 2 ^ 52 := rfl
  rw [BitVec.toNat_append, Nat.or_comm, leading, Nat.add_comm]
  exact Nat.or_two_pow_eq_add_of_lt fraction.isLt

/-- A float is taken apart as the standard model does it. -/
theorem ofFloat_eq (x : Float) : ofFloat x = ofUnpacked x.toModel.unpack := by
  have bits : x.toBits.toNat = x.toModel.toBits.toBitVec.toNat := rfl
  simp only [ofFloat, bits, Float.Model.unpack]
  generalize x.toModel.toBits.toBitVec = b
  rw [← toNat_unpackExponent, ← toNat_unpackMantissa, ← isNegative_unpackSign]
  unfold UnpackedFloat.unpack
  have special : (@unpackExponent .binary64 b).toNat = 0x7FF ↔ @unpackExponent .binary64 b = -1#11 := by
    rw [BitVec.toNat_eq]
    rfl
  have subnormal : (@unpackExponent .binary64 b).toNat = 0 ↔ @unpackExponent .binary64 b = 0#11 := by
    rw [BitVec.toNat_eq]
    rfl
  have empty : (@unpackMantissa .binary64 b).toNat = 0 ↔ @unpackMantissa .binary64 b = 0#52 := by
    rw [BitVec.toNat_eq]
    rfl
  dsimp only
  simp only [special, subnormal, empty]
  split
  · split <;> rfl
  · split
    · rename_i isSubnormal
      rw [isSubnormal]
      split
      · rename_i isZero
        rw [isZero]
        rfl
      · rfl
    · rw [ofUnpacked, toNat_leading]
      rfl

theorem signOf_cmp (a b : ℚ) : signOf (cmp a b) = SignType.sign (a - b) := by
  obtain lt | rfl | gt := lt_trichotomy a b
  · rw [(cmp_eq_lt_iff a b).mpr lt, sign_neg (sub_neg.mpr lt)]
    rfl
  · rw [cmp_self_eq_eq, sub_self, sign_zero]
    rfl
  · rw [(cmp_eq_gt_iff a b).mpr gt, sign_pos (sub_pos.mpr gt)]
    rfl

theorem signOf_swap (o : Ordering) : signOf o.swap = -signOf o := by
  cases o <;> rfl

theorem compare_eq_cmp (a b : Int) : compare a b = cmp (a : ℚ) (b : ℚ) := by
  rw [Int.cast_strictMono.cmp_map_eq, cmp_eq_compare]

/-- An integer is compared with a finite float by the number that it stands for. -/
theorem compareInt_finite (n : Int) (negative : Bool) (significand : Nat) (exponent : Int) :
    (finite negative significand exponent).compareInt n =
      cmp (n : ℚ) (signed negative significand * 2 ^ exponent) := by
  unfold compareInt
  dsimp only
  split
  · rename_i whole
    obtain ⟨k, rfl⟩ := Int.eq_ofNat_of_zero_le whole
    have scaled : signed negative (significand <<< k) = signed negative significand * 2 ^ k := by
      cases negative <;> simp [signed, Nat.shiftLeft_eq]
    rw [Int.toNat_natCast, scaled, compare_eq_cmp]
    push_cast
    rw [zpow_natCast]
  · rename_i fractional
    obtain ⟨k, rfl⟩ := Int.exists_eq_neg_ofNat (Int.le_of_lt (Int.not_le.mp fractional))
    have positive : (0 : ℚ) < 2 ^ k := by positivity
    rw [neg_neg, Int.toNat_natCast, Nat.shiftLeft_eq, Nat.one_mul, compare_eq_cmp,
      ← cmp_mul_pos_right positive (n : ℚ), mul_assoc, zpow_neg, zpow_natCast,
      inv_mul_cancel₀ positive.ne', mul_one]
    push_cast
    rfl

/-- An integer stands to a float as the comparison says. -/
theorem stands_compareInt (n : Int) (x : Float) :
    Stands n x.toModel.unpack ((ofFloat x).compareInt n) := by
  rw [ofFloat_eq]
  cases x.toModel.unpack with
  | notANumber => exact .nan
  | infinity sign =>
    cases sign with
    | positive => exact .below
    | negative => exact .above
  | zero sign =>
    refine .number rfl ?_
    rw [ofUnpacked, compareInt_finite, signOf_cmp]
    cases sign <;> simp [isNegative, signed]
  | finite sign significand exponent =>
    refine .number rfl ?_
    rw [ofUnpacked, compareInt_finite, signOf_cmp]
    cases sign <;> rfl

namespace Stands

variable {n n' : Int} {u : UnpackedFloat} {o o' : Ordering}

/-- A greater integer is not on a lower side. -/
theorem mono (h : Stands n u o) (h' : Stands n' u o') (le : n ≤ n') (numeric : u.isNaN = false) :
    signOf o ≤ signOf o' := by
  cases h with
  | number number sign =>
    cases h' with
    | number number' sign' =>
      cases number.symm.trans number'
      rw [sign, sign']
      exact SignType.sign.monotone (sub_le_sub_right (Int.cast_le.mpr le) _)
    | below | above | nan => cases number
  | below =>
    cases h' with
    | number number' => cases number'
    | below => exact le_rfl
  | above =>
    cases h' with
    | number number' => cases number'
    | above => exact le_rfl
  | nan => cases numeric

/-- Only one integer is level with a finite float. -/
theorem eq_of_level (h : Stands n u .eq) (h' : Stands n' u .eq) (finite : u.isFinite) : n = n' := by
  cases h with
  | number number sign =>
    cases h' with
    | number number' sign' =>
      cases number.symm.trans number'
      have level := sub_eq_zero.mp (sign_eq_zero_iff.mp sign.symm)
      have level' := sub_eq_zero.mp (sign_eq_zero_iff.mp sign'.symm)
      exact Int.cast_injective (level.trans level'.symm)
    | nan => cases number
  | nan => cases finite

end Stands

end Binary64

namespace Value

open Binary64

/-- An integer of any size is compared with any float, and it stands to the float as the answer says:
by the sign of its difference from the number that a finite float stands for. The other way round the
sign is turned. The sign never falls when the integer grows, unless the float is no number, and no
two integers are level with the same finite float. -/
theorem compared_exactly (rule : Text) (x : Float) :
    (∀ n : Int, ∃ o o', (int n).compare rule (float x) = .ok o ∧
      (float x).compare rule (int n) = .ok o' ∧
      Stands n x.toModel.unpack o ∧ signOf o' = -signOf o) ∧
    (x.isNaN = false → ∀ n n' o o', n ≤ n' → (int n).compare rule (float x) = .ok o →
      (int n').compare rule (float x) = .ok o' → signOf o ≤ signOf o') ∧
    (x.isFinite → ∀ n n', (int n).compare rule (float x) = .ok .eq →
      (int n').compare rule (float x) = .ok .eq → n = n') := by
  have stands {n : Int} {o : Ordering} (answer : (int n).compare rule (float x) = .ok o) :
      Stands n x.toModel.unpack o := by
    cases answer
    exact stands_compareInt n x
  refine ⟨fun n => ⟨_, _, rfl, rfl, stands rfl, signOf_swap _⟩, ?_, ?_⟩
  · intro numeric n n' o o' le answer answer'
    exact (stands answer).mono (stands answer') le numeric
  · intro finite n n' level level'
    exact (stands level).eq_of_level (stands level') finite

/-- Among the integers only 2^53 is level with the float 2^53, though 2^53 + 1 would be rounded to
the same float. -/
theorem compared_exactly_beyond_precision :
    let x : Float := .ofBits 0x4340000000000000
    (int 9007199254740993).compare '=' (float x) = .ok .gt ∧
      signOf .eq ≤ signOf .gt ∧
      ∀ n, (int n).compare '=' (float x) = .ok .eq → n = 9007199254740992 := by
  intro x
  obtain ⟨-, mono, level⟩ := compared_exactly '=' x
  have same : (int 9007199254740992).compare '=' (float x) = .ok .eq := by decide +kernel
  have above : (int 9007199254740993).compare '=' (float x) = .ok .gt := by decide +kernel
  exact ⟨above, mono (by decide +kernel) _ _ _ _ (by decide) same above,
    fun n answer => level (by decide +kernel) n _ answer same⟩

end Value

end DeskCalculator
