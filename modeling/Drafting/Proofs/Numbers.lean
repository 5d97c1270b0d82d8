import Drafting.Scalar

/-!
Floating-point numbers as far as proofs need them. A finite number is not infinite and is at most
itself, no number is below itself, and none is both at most and above another. Of an undefined
number only the last two hold.

A number that is cut off at two bounds lies between them, whatever it was, and a sum of squares is
never below zero: it has no minus sign, even where it is infinite or undefined.
-/

namespace Drafting

open Scalar Float.Model

theorem le_eq (a b : Float) : le a b = a.toModel.unpack.le b.toModel.unpack := by
  change decide (decide (a.toModel.unpack.le b.toModel.unpack = true) = true) = _
  simp

theorem lt_eq (a b : Float) : lt a b = a.toModel.unpack.lt b.toModel.unpack := by
  change decide (decide (a.toModel.unpack.lt b.toModel.unpack = true) = true) = _
  simp

theorem isInfinite_of_isFinite {a : Float} (h : Scalar.isFinite a = true) :
    isInfinite a = false := by
  change a.toModel.unpack.isFinite = true at h
  change a.toModel.unpack.isInf = false
  cases hu : a.toModel.unpack with
  | infinity s =>
    rw [hu] at h
    cases h
  | notANumber | zero | finite => rfl

theorem compare_self_of_isFinite {u : UnpackedFloat} (h : u.isFinite = true) :
    u.compare u = some .eq := by
  cases u with
  | infinity s => cases h
  | notANumber => cases h
  | zero s => rfl
  | finite s m e hm =>
    have hself : (compare e e).then (compare m m) = .eq := by simp [Std.ReflCmp.compare_self]
    cases s with
    | positive => exact congrArg some hself
    | negative => exact congrArg (fun o => some o.swap) hself

theorem le_self_of_isFinite {a : Float} (h : Scalar.isFinite a = true) : le a a = true := by
  change a.toModel.unpack.isFinite = true at h
  rw [le_eq, UnpackedFloat.le, compare_self_of_isFinite h]
  rfl

theorem compare_swap (u v : UnpackedFloat) : v.compare u = (u.compare v).map Ordering.swap := by
  cases u with
  | notANumber => cases v <;> rfl
  | infinity s =>
    cases v with
    | notANumber => cases s <;> rfl
    | infinity t => cases s <;> cases t <;> rfl
    | zero t => cases s <;> rfl
    | finite t m e hm => cases s <;> rfl
  | zero s =>
    cases v with
    | notANumber => rfl
    | infinity t => cases t <;> rfl
    | zero t => rfl
    | finite t m e hm => cases t <;> rfl
  | finite s m e hm =>
    cases v with
    | notANumber => cases s <;> rfl
    | infinity t => cases s <;> cases t <;> rfl
    | zero t => cases s <;> rfl
    | finite t m' e' hm' =>
      -- of one sign, exponents and mantissas are compared in turn
      have hswap : (compare e' e).then (compare m' m) =
          ((compare e e').then (compare m m')).swap := by
        simp [Ordering.swap_then, ← Std.OrientedCmp.eq_swap]
      cases s with
      | positive =>
        cases t with
        | positive => exact congrArg some hswap
        | negative => rfl
      | negative =>
        cases t with
        | positive => rfl
        | negative => exact congrArg (fun o => some o.swap) hswap

theorem not_lt_self (a : Float) : lt a a = false := by
  have hswap := compare_swap a.toModel.unpack a.toModel.unpack
  rw [lt_eq, UnpackedFloat.lt]
  cases hc : a.toModel.unpack.compare a.toModel.unpack with
  | none => rfl
  | some o =>
    rw [hc] at hswap
    cases o with
    | lt => cases hswap
    | eq | gt => rfl

theorem not_lt_of_le {a b : Float} (h : le a b = true) : lt b a = false := by
  rw [le_eq, UnpackedFloat.le] at h
  rw [lt_eq, UnpackedFloat.lt, compare_swap]
  cases hc : a.toModel.unpack.compare b.toModel.unpack with
  | none => rfl
  | some o =>
    cases o with
    | lt | eq => rfl
    | gt => simp [hc] at h

theorem le_of_lt {a b : Float} (h : lt a b = true) : le a b = true := by
  rw [lt_eq, UnpackedFloat.lt, beq_iff_eq] at h
  rw [le_eq, UnpackedFloat.le, h]
  rfl

/-- What is cut off at two bounds lies between them. An undefined number becomes the upper one. -/
theorem between_larger_smaller {low high : Float} (hlow : Scalar.isFinite low = true)
    (hhigh : Scalar.isFinite high = true) (h : lt low high = true) (a : Float) :
    le low (larger low (smaller high a)) = true ∧
      le (larger low (smaller high a)) high = true := by
  unfold larger smaller
  by_cases ha : lt a high = true
  · rw [if_pos ha]
    by_cases hl : lt low a = true
    · rw [if_pos hl]
      exact ⟨le_of_lt hl, le_of_lt ha⟩
    · rw [if_neg hl]
      exact ⟨le_self_of_isFinite hlow, le_of_lt h⟩
  · rw [if_neg ha, if_pos h]
    exact ⟨le_of_lt h, le_self_of_isFinite hhigh⟩

/-! ## Numbers without a minus sign -/

/-- A number is undefined or has no minus sign. -/
def Unsigned : UnpackedFloat → Prop
  | .notANumber => True
  | .infinity s | .zero s | .finite s .. => s = .positive

theorem unsigned_ite {c : Prop} [Decidable c] {u v : UnpackedFloat} (hu : Unsigned u)
    (hv : Unsigned v) : Unsigned (if c then u else v) := by
  split
  · exact hu
  · exact hv

theorem unsigned_dite {c : Prop} [Decidable c] {u : c → UnpackedFloat} {v : ¬ c → UnpackedFloat}
    (hu : ∀ h, Unsigned (u h)) (hv : ∀ h, Unsigned (v h)) : Unsigned (dite c u v) := by
  split
  · exact hu _
  · exact hv _

theorem unsigned_packComponents (e : BitVec Format.binary64.exponentBits)
    (m : BitVec Format.binary64.mantissaBitsWithoutImplicit) :
    Unsigned (UnpackedFloat.unpack .binary64
      (UnpackedFloat.packComponents .binary64 .positive e m)) := by
  have hsign : UnpackedFloat.unpackSign
      (UnpackedFloat.packComponents .binary64 .positive e m) = 0#1 := by
    change (0#1 ++ e ++ m).extractLsb' 63 1 = 0#1
    rw [BitVec.extractLsb'_append_eq_of_le (by decide),
      BitVec.extractLsb'_append_eq_of_le (by decide)]
    rfl
  have hpositive : UnpackedFloat.Sign.ofBitVec 0#1 = .positive := rfl
  unfold UnpackedFloat.unpack
  dsimp only
  rw [hsign, hpositive]
  refine unsigned_ite ?_ (unsigned_dite ?_ ?_)
  · exact unsigned_ite rfl trivial
  · intro _
    exact unsigned_dite (fun _ => rfl) fun _ => rfl
  · intro _
    rfl

theorem Unsigned.pack {u : UnpackedFloat} (h : Unsigned u) : Unsigned (pack u).unpack := by
  show Unsigned (UnpackedFloat.unpack .binary64 (UnpackedFloat.pack .binary64 u))
  cases u with
  | notANumber => exact unsigned_packComponents _ _
  | infinity s | zero s =>
    cases h
    exact unsigned_packComponents _ _
  | finite s m e hm =>
    -- too large a number is packed as an infinite one, and a small one without its leading bit
    cases h
    unfold UnpackedFloat.pack
    dsimp only
    split
    · exact unsigned_packComponents _ _
    · split <;> exact unsigned_packComponents _ _

theorem unsigned_roundWithAccuracy (m : Nat) (e : Int) (a : UnpackedFloat.Accuracy) :
    Unsigned (UnpackedFloat.roundWithAccuracy .binary64 .positive m e a) := by
  unfold UnpackedFloat.roundWithAccuracy
  exact unsigned_dite (fun _ => rfl) fun _ => rfl

theorem unsigned_mul_self (u : UnpackedFloat) : Unsigned (UnpackedFloat.mul .binary64 u u) := by
  cases u with
  | notANumber => trivial
  | infinity s | zero s => cases s <;> trivial
  | finite s m e hm => cases s <;> exact unsigned_roundWithAccuracy _ _ _

theorem Unsigned.add {u v : UnpackedFloat} (hu : Unsigned u) (hv : Unsigned v) :
    Unsigned (UnpackedFloat.add .binary64 u v) := by
  cases u with
  | notANumber => trivial
  | infinity s =>
    cases hu
    cases v with
    | infinity t =>
      cases hv
      trivial
    | notANumber | zero | finite => trivial
  | zero s =>
    cases hu
    cases v with
    | zero t =>
      cases hv
      trivial
    | notANumber => trivial
    | infinity | finite => exact hv
  | finite s m e hm =>
    cases hu
    cases v with
    | notANumber | zero => trivial
    | infinity => exact hv
    | finite t m' e' hm' =>
      -- the sum of the mantissas is not negative, so that it is rounded without a minus sign
      cases hv
      unfold UnpackedFloat.add UnpackedFloat.normalize
      dsimp only
      split
      · rename_i hnegative
        rw [Int.compare_eq_lt] at hnegative
        simp only [UnpackedFloat.Sign.apply] at hnegative
        omega
      · trivial
      · exact unsigned_roundWithAccuracy _ _ _

theorem Unsigned.not_lt_zero {a : Float} (h : Unsigned a.toModel.unpack) :
    lt a (zero : Float) = false := by
  have hzero : (zero : Float).toModel.unpack = .zero .positive := rfl
  rw [lt_eq, UnpackedFloat.lt, hzero]
  cases hu : a.toModel.unpack with
  | notANumber | zero => rfl
  | infinity s | finite s m e hm =>
    rw [hu] at h
    cases h
    rfl

/-- A sum of two squares is not below zero. -/
theorem not_squares_lt_zero (a b : Float) : lt (a * a + b * b) (zero : Float) = false := by
  have hsquare : ∀ c : Float, Unsigned (c * c).toModel.unpack := fun c =>
    (unsigned_mul_self c.toModel.unpack).pack
  exact ((hsquare a).add (hsquare b)).pack.not_lt_zero

end Drafting
