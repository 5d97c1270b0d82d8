import Drafting.Proofs.Numbers

/-!
Floating-point numbers up to their sign. Two numbers have one size if they differ at most in the
sign, an undefined number having the size of itself only. Differences taken in either order have one
size, and so have the products and quotients of numbers of one size with a third number, because
rounding does not look at the sign. Numbers of one size are zero together, and have one square.

Differences themselves are not the opposites of each other: the difference of equal numbers is
positive zero in either order.
-/

namespace Drafting

open Scalar Float.Model

/-! ## Packing without the sign -/

theorem mantissa_pos {m : BitVec Format.binary64.mantissaBitsWithoutImplicit} (h : ¬ m = 0#_) :
    0 < m.toNat := by
  rw [Nat.pos_iff_ne_zero]
  exact fun hzero => h (BitVec.eq_of_toNat_eq hzero)

theorem leading_mantissa_pos (m : BitVec Format.binary64.mantissaBitsWithoutImplicit) :
    0 < (1#1 ++ m).toNat := by
  rw [BitVec.toNat_append, Nat.pos_iff_ne_zero]
  intro hzero
  have hleading := (Nat.or_eq_zero_iff.mp hzero).1
  rw [Nat.shiftLeft_eq_zero_iff] at hleading
  cases hleading

/-- The number of a sign, an exponent and a mantissa as they are stored. -/
def unpackParts (s : UnpackedFloat.Sign) (e : BitVec Format.binary64.exponentBits)
    (m : BitVec Format.binary64.mantissaBitsWithoutImplicit) : UnpackedFloat :=
  let exponent : Int := (e.toNat : Int) - (Format.binary64.exponentBias + 52)
  if e = -1#_ then
    if m = 0#_ then .infinity s else .notANumber
  else if e = 0#_ then
    if h : m = 0#_ then .zero s
    else .finite s m.toNat (exponent + 1) (mantissa_pos h)
  else .finite s (1#1 ++ m).toNat exponent (leading_mantissa_pos m)

theorem unpack_packComponents (s : UnpackedFloat.Sign)
    (e : BitVec Format.binary64.exponentBits)
    (m : BitVec Format.binary64.mantissaBitsWithoutImplicit) :
    UnpackedFloat.unpack .binary64 (UnpackedFloat.packComponents .binary64 s e m) =
      unpackParts s e m := by
  have hbit : UnpackedFloat.unpackSign (UnpackedFloat.packComponents .binary64 s e m) =
      s.toBitVec := by
    change (s.toBitVec ++ e ++ m).extractLsb' 63 1 = s.toBitVec
    rw [BitVec.extractLsb'_append_eq_of_le (by decide),
      BitVec.extractLsb'_append_eq_of_le (by decide)]
    cases s <;> rfl
  have hsign : UnpackedFloat.Sign.ofBitVec s.toBitVec = s := by cases s <;> rfl
  change unpackParts (UnpackedFloat.Sign.ofBitVec (UnpackedFloat.unpackSign _))
    (UnpackedFloat.unpackExponent _) (UnpackedFloat.unpackMantissa _) = _
  rw [hbit, hsign, UnpackedFloat.unpackExponent_packComponents,
    UnpackedFloat.unpackMantissa_packComponents]

theorem abs_packComponents (s : UnpackedFloat.Sign) (e : BitVec Format.binary64.exponentBits)
    (m : BitVec Format.binary64.mantissaBitsWithoutImplicit) :
    (UnpackedFloat.unpack .binary64 (UnpackedFloat.packComponents .binary64 s e m)).abs =
      UnpackedFloat.unpack .binary64 (UnpackedFloat.packComponents .binary64 .positive e m) := by
  rw [unpack_packComponents, unpack_packComponents]
  unfold unpackParts
  dsimp only
  rw [apply_ite UnpackedFloat.abs, apply_ite UnpackedFloat.abs, apply_ite UnpackedFloat.abs,
    apply_dite UnpackedFloat.abs]
  rfl

/-- A number is packed apart from its sign. -/
theorem abs_unpack_pack (u : UnpackedFloat) : (pack u).unpack.abs = (pack u.abs).unpack := by
  cases u with
  | notANumber => rfl
  | infinity s | zero s => cases s <;> rfl
  | finite s m e hm =>
    change (UnpackedFloat.unpack .binary64 (UnpackedFloat.pack .binary64 (.finite s m e hm))).abs =
      UnpackedFloat.unpack .binary64 (UnpackedFloat.pack .binary64 (.finite .positive m e hm))
    unfold UnpackedFloat.pack
    dsimp only
    split
    · exact abs_packComponents _ _ _
    · split <;> exact abs_packComponents _ _ _

/-! ## Operations without the sign -/

section Unpacked

variable {u v w : UnpackedFloat}

theorem abs_roundWithAccuracy (s t : UnpackedFloat.Sign) (m : Nat) (e : Int)
    (a : UnpackedFloat.Accuracy) :
    (UnpackedFloat.roundWithAccuracy .binary64 s m e a).abs =
      (UnpackedFloat.roundWithAccuracy .binary64 t m e a).abs := by
  unfold UnpackedFloat.roundWithAccuracy
  dsimp only
  rw [apply_dite UnpackedFloat.abs, apply_dite UnpackedFloat.abs]
  rfl

theorem abs_round (s t : UnpackedFloat.Sign) (m : Nat) (e : Int) :
    (UnpackedFloat.round .binary64 s m e).abs = (UnpackedFloat.round .binary64 t m e).abs :=
  abs_roundWithAccuracy s t _ _ .exact

theorem abs_normalize_neg (m : Int) (e : Int) :
    (UnpackedFloat.normalize .binary64 (-m) e .positive).abs =
      (UnpackedFloat.normalize .binary64 m e .positive).abs := by
  unfold UnpackedFloat.normalize
  rcases Int.lt_trichotomy m 0 with hm | rfl | hm
  · rw [Int.compare_eq_gt.mpr (by omega), Int.compare_eq_lt.mpr hm]
    exact abs_round .positive .negative _ e
  · rfl
  · rw [Int.compare_eq_lt.mpr (by omega), Int.compare_eq_gt.mpr hm, Int.neg_neg]
    exact abs_round .negative .positive _ e

theorem add_comm_unpacked (u v : UnpackedFloat) :
    UnpackedFloat.add .binary64 u v = UnpackedFloat.add .binary64 v u := by
  cases u with
  | notANumber => cases v <;> rfl
  | infinity s =>
    cases v with
    | infinity t => cases s <;> cases t <;> rfl
    | notANumber | zero | finite => rfl
  | zero s =>
    cases v with
    | zero t => cases s <;> cases t <;> rfl
    | notANumber | infinity | finite => rfl
  | finite s m e hm =>
    cases v with
    | notANumber | infinity | zero => rfl
    | finite t m' e' hm' =>
      unfold UnpackedFloat.add
      dsimp only
      rw [Int.min_comm e' e, Int.add_comm]

theorem sign_mul_comm (s t : UnpackedFloat.Sign) : s * t = t * s := by
  cases s <;> cases t <;> rfl

theorem mul_comm_unpacked (u v : UnpackedFloat) :
    UnpackedFloat.mul .binary64 u v = UnpackedFloat.mul .binary64 v u := by
  cases u with
  | notANumber => cases v <;> rfl
  | infinity s =>
    cases v with
    | notANumber | zero => rfl
    | infinity t => exact congrArg UnpackedFloat.infinity (sign_mul_comm s t)
    | finite t m e hm => exact congrArg UnpackedFloat.infinity (sign_mul_comm s t)
  | zero s =>
    cases v with
    | notANumber | infinity => rfl
    | zero t => exact congrArg UnpackedFloat.zero (sign_mul_comm s t)
    | finite t m e hm => exact congrArg UnpackedFloat.zero (sign_mul_comm s t)
  | finite s m e hm =>
    cases v with
    | notANumber => rfl
    | infinity t => exact congrArg UnpackedFloat.infinity (sign_mul_comm s t)
    | zero t => exact congrArg UnpackedFloat.zero (sign_mul_comm s t)
    | finite t m' e' hm' =>
      unfold UnpackedFloat.mul
      dsimp only
      rw [sign_mul_comm s t, Nat.mul_comm m m', Int.add_comm e e']

/-- Differences in either order differ at most in the sign. -/
theorem abs_sub_comm_unpacked (u v : UnpackedFloat) :
    (UnpackedFloat.sub .binary64 u v).abs = (UnpackedFloat.sub .binary64 v u).abs := by
  cases u with
  | notANumber => cases v <;> rfl
  | infinity s =>
    cases v with
    | infinity t => cases s <;> cases t <;> rfl
    | notANumber | zero | finite => rfl
  | zero s =>
    cases v with
    | zero t => cases s <;> cases t <;> rfl
    | notANumber | infinity | finite => rfl
  | finite s m e hm =>
    cases v with
    | notANumber | infinity | zero => rfl
    | finite t m' e' hm' =>
      unfold UnpackedFloat.sub
      dsimp only
      rw [Int.min_comm e' e, ← Int.neg_sub, abs_normalize_neg]

/-- The size of a product depends on the sizes of its factors only. -/
theorem abs_mul_unpacked (u v : UnpackedFloat) :
    (UnpackedFloat.mul .binary64 u v).abs = (UnpackedFloat.mul .binary64 u.abs v).abs := by
  cases u with
  | notANumber => rfl
  | infinity s | zero s => cases v <;> rfl
  | finite s m e hm =>
    cases v with
    | notANumber | infinity | zero => rfl
    | finite t m' e' hm' => exact abs_roundWithAccuracy _ _ _ _ _

theorem abs_div_unpacked (u v : UnpackedFloat) :
    (UnpackedFloat.div .binary64 u v).abs = (UnpackedFloat.div .binary64 u.abs v).abs := by
  cases u with
  | notANumber => rfl
  | infinity s | zero s => cases v <;> rfl
  | finite s m e hm =>
    cases v with
    | notANumber | infinity | zero => rfl
    | finite t m' e' hm' => exact abs_roundWithAccuracy _ _ _ _ _

theorem mul_self_unpacked (u : UnpackedFloat) :
    UnpackedFloat.mul .binary64 u u = UnpackedFloat.mul .binary64 u.abs u.abs := by
  cases u with
  | notANumber => rfl
  | infinity s | zero s => cases s <;> rfl
  | finite s m e hm => cases s <;> rfl

theorem compare_zero_abs (u : UnpackedFloat) :
    u.abs.compare (.zero .positive) = some .eq ↔ u.compare (.zero .positive) = some .eq := by
  cases u with
  | notANumber | zero => rfl
  | infinity s => cases s <;> exact ⟨nofun, nofun⟩
  | finite s m e hm => cases s <;> exact ⟨nofun, nofun⟩

/-- Equal numbers are the same, or both are zero. -/
theorem eq_or_zeros_of_compare (h : u.compare v = some .eq) :
    u = v ∨ ∃ s t, u = .zero s ∧ v = .zero t := by
  cases u with
  | notANumber => cases h
  | infinity s =>
    cases v with
    | infinity t => cases s <;> cases t <;> first | exact .inl rfl | cases h
    | notANumber | zero | finite => cases s <;> cases h
  | zero s =>
    cases v with
    | zero t => exact .inr ⟨s, t, rfl, rfl⟩
    | notANumber => cases h
    | infinity t => cases t <;> cases h
    | finite t m e hm => cases t <;> cases h
  | finite s m e hm =>
    cases v with
    | notANumber => cases s <;> cases h
    | infinity t => cases s <;> cases t <;> cases h
    | zero t => cases s <;> cases h
    | finite t m' e' hm' =>
      -- of one sign, exponents and mantissas are the same
      have hsame : s = t ∧ (compare e e').then (compare m m') = .eq := by
        cases s with
        | positive =>
          cases t with
          | positive => exact ⟨rfl, Option.some.inj h⟩
          | negative => cases h
        | negative =>
          cases t with
          | positive => cases h
          | negative => exact ⟨rfl, Ordering.swap_eq_eq.mp (Option.some.inj h)⟩
      obtain ⟨rfl, hthen⟩ := hsame
      rw [Ordering.then_eq_eq, Int.compare_eq_eq, Nat.compare_eq_eq] at hthen
      obtain ⟨rfl, rfl⟩ := hthen
      exact .inl rfl

/-- Zeros of either sign leave the same size of a difference. -/
theorem abs_sub_zero (s t : UnpackedFloat.Sign) (u : UnpackedFloat) :
    (UnpackedFloat.sub .binary64 u (.zero s)).abs =
      (UnpackedFloat.sub .binary64 u (.zero t)).abs := by
  cases u with
  | notANumber | infinity | finite => rfl
  | zero r => cases r <;> cases s <;> cases t <;> rfl

theorem sub_self_unpacked (h : u.isFinite = true) :
    UnpackedFloat.sub .binary64 u u = .zero .positive := by
  cases u with
  | notANumber | infinity => cases h
  | zero s => cases s <;> rfl
  | finite s m e hm =>
    unfold UnpackedFloat.sub UnpackedFloat.normalize
    dsimp only
    rw [Int.sub_self]
    rfl

end Unpacked

/-! ## Numbers of one size -/

/-- Two numbers differ at most in the sign. -/
def SameSize (a b : Float) : Prop := a.toModel.unpack.abs = b.toModel.unpack.abs

/-- Equality of numbers is equality in their order. -/
theorem beq_eq_some_iff (a b : Float) :
    (a == b) = true ↔ a.toModel.unpack.compare b.toModel.unpack = some .eq := by
  change (a.toModel.unpack.compare b.toModel.unpack == some .eq) = true ↔ _
  rw [beq_iff_eq]

namespace SameSize

variable {a b c : Float}

theorem refl (a : Float) : SameSize a a := rfl

theorem symm (h : SameSize a b) : SameSize b a := Eq.symm h

theorem trans (h : SameSize a b) (h' : SameSize b c) : SameSize a c := Eq.trans h h'

/-- What two unpacked numbers of one size are packed to has one size. -/
theorem ofModel {u v : UnpackedFloat} (h : u.abs = v.abs) :
    SameSize (.ofModel (pack u)) (.ofModel (pack v)) := by
  change (pack u).unpack.abs = (pack v).unpack.abs
  rw [abs_unpack_pack, abs_unpack_pack, h]

theorem sub_swap (a b : Float) : SameSize (a - b) (b - a) :=
  ofModel (abs_sub_comm_unpacked _ _)

theorem mul_right (h : SameSize a b) (c : Float) : SameSize (a * c) (b * c) := by
  refine ofModel ?_
  rw [abs_mul_unpacked, h, ← abs_mul_unpacked]

theorem div_right (h : SameSize a b) (c : Float) : SameSize (a / c) (b / c) := by
  refine ofModel ?_
  rw [abs_div_unpacked, h, ← abs_div_unpacked]

theorem mul_self (h : SameSize a b) : a * a = b * b := by
  refine congrArg (fun u => Float.ofModel (pack u)) ?_
  rw [mul_self_unpacked, h, ← mul_self_unpacked]

theorem abs_eq (h : SameSize a b) : Float.abs a = Float.abs b :=
  congrArg (fun u => Float.ofModel (pack u)) h

/-- Numbers of one size are zero together. -/
theorem isZero_iff (h : SameSize a b) :
    (a == (zero : Float)) = true ↔ (b == (zero : Float)) = true := by
  have hzero : ∀ x : Float, (x == (zero : Float)) = true ↔
      x.toModel.unpack.abs.compare (.zero .positive) = some .eq := by
    intro x
    rw [compare_zero_abs]
    exact beq_eq_some_iff x zero
  rw [hzero, hzero, h]

/-- Equal numbers can be taken away from a number with results of one size: they are the same, or
zeros of either sign. -/
theorem sub_of_beq (h : (a == b) = true) (x : Float) : SameSize (x - a) (x - b) := by
  refine ofModel ?_
  rcases eq_or_zeros_of_compare ((beq_eq_some_iff a b).mp h) with heq | ⟨s, t, ha, hb⟩
  · rw [heq]
  · rw [ha, hb]
    exact abs_sub_zero s t _

end SameSize

theorem float_add_comm (a b : Float) : a + b = b + a :=
  congrArg (fun u => Float.ofModel (pack u)) (add_comm_unpacked _ _)

theorem float_mul_comm (a b : Float) : a * b = b * a :=
  congrArg (fun u => Float.ofModel (pack u)) (mul_comm_unpacked _ _)

theorem float_sub_self {a : Float} (h : Scalar.isFinite a = true) : a - a = zero :=
  congrArg (fun u => Float.ofModel (pack u)) (sub_self_unpacked h)

end Drafting
