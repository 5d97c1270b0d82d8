import Mathlib.Algebra.Group.Nat.Defs
import Mathlib.Algebra.Order.Group.Int
import Mathlib.Data.Prod.Lex
import Drafting.Proofs.Magnitudes

/-!
Finite floating-point numbers in their order. A finite number has a rank in a linear order: its
sign, then its exponent and its mantissa. Numbers compare as their ranks do, and equal numbers, that
is, the same up to the sign of a zero, have one rank. So the smaller of two numbers has the smaller
rank, and the larger one the larger.

Two numbers have a difference of zero only if they are equal: what is left of them is not below the
least positive number, and rounding does not lose it.
-/

namespace Drafting

open Scalar Float.Model

/-! ## Ranks -/

section Unpacked

/-- Where a number stands: zero between the negative and the positive numbers, and those of one sign
by exponent and then by mantissa. -/
def unpackedRank : UnpackedFloat → ℤ ×ₗ ℤ ×ₗ ℤ
  | .infinity .positive => toLex (2, toLex (0, 0))
  | .finite .positive m e _ => toLex (1, toLex (e, m))
  | .zero _ | .notANumber => toLex (0, toLex (0, 0))
  | .finite .negative m e _ => toLex (-1, toLex (-e, -m))
  | .infinity .negative => toLex (-2, toLex (0, 0))

theorem rank_lt_of_sign {a b : ℤ} (h : a < b) (x y : ℤ ×ₗ ℤ) : toLex (a, x) < toLex (b, y) :=
  Prod.Lex.toLex_lt_toLex.mpr (.inl h)

theorem rank_lt_iff {a e m e' m' : ℤ} :
    toLex (a, toLex (e, m)) < toLex (a, toLex (e', m')) ↔ e < e' ∨ e = e' ∧ m < m' := by
  simp [Prod.Lex.toLex_lt_toLex]

variable {u v : UnpackedFloat} (hu : u.isFinite = true) (hv : v.isFinite = true)
include hu hv

theorem compare_eq_lt_iff : u.compare v = some .lt ↔ unpackedRank u < unpackedRank v := by
  cases u with
  | notANumber | infinity => cases hu
  | zero s =>
    cases v with
    | notANumber | infinity => cases hv
    | zero t => exact iff_of_false nofun (lt_irrefl _)
    | finite t m e hm =>
      cases t with
      | positive => exact iff_of_true rfl (rank_lt_of_sign (by decide) _ _)
      | negative => exact iff_of_false nofun (rank_lt_of_sign (by decide) _ _).not_gt
  | finite s m e hm =>
    cases v with
    | notANumber | infinity => cases hv
    | zero t =>
      cases s with
      | positive => exact iff_of_false nofun (rank_lt_of_sign (by decide) _ _).not_gt
      | negative => exact iff_of_true rfl (rank_lt_of_sign (by decide) _ _)
    | finite t m' e' hm' =>
      cases s with
      | positive =>
        cases t with
        | positive =>
          change some ((compare e e').then (compare m m')) = some .lt ↔
            toLex (1, toLex (e, (m : ℤ))) < toLex (1, toLex (e', (m' : ℤ)))
          rw [rank_lt_iff, Option.some_inj, Ordering.then_eq_lt, Int.compare_eq_lt,
            Int.compare_eq_eq, Nat.compare_eq_lt, Int.ofNat_lt]
        | negative => exact iff_of_false nofun (rank_lt_of_sign (by decide) _ _).not_gt
      | negative =>
        cases t with
        | positive => exact iff_of_true rfl (rank_lt_of_sign (by decide) _ _)
        | negative =>
          change some ((compare e e').then (compare m m')).swap = some .lt ↔
            toLex (-1, toLex (-e, -(m : ℤ))) < toLex (-1, toLex (-e', -(m' : ℤ)))
          rw [rank_lt_iff, Option.some_inj, Ordering.swap_eq_lt, Ordering.then_eq_gt,
            Int.compare_eq_gt, Int.compare_eq_eq, Nat.compare_eq_gt,
            Int.neg_lt_neg_iff, Int.neg_lt_neg_iff, neg_inj, Int.ofNat_lt]

theorem compare_isSome : (u.compare v).isSome = true := by
  cases u with
  | notANumber | infinity => cases hu
  | zero s =>
    cases v with
    | notANumber | infinity => cases hv
    | zero t => rfl
    | finite t m e hm => cases t <;> rfl
  | finite s m e hm =>
    cases v with
    | notANumber | infinity => cases hv
    | zero t => cases s <;> rfl
    | finite t m' e' hm' => cases s <;> cases t <;> rfl

theorem compare_eq_eq_iff : u.compare v = some .eq ↔ unpackedRank u = unpackedRank v := by
  have hlt := compare_eq_lt_iff hu hv
  have hgt := compare_eq_lt_iff hv hu
  rw [compare_swap] at hgt
  obtain ⟨o, ho⟩ := Option.isSome_iff_exists.mp (compare_isSome hu hv)
  rw [ho] at hlt hgt ⊢
  cases o with
  | lt => exact iff_of_false nofun (hlt.mp rfl).ne
  | gt => exact iff_of_false nofun (hgt.mp rfl).ne'
  | eq =>
    refine iff_of_true rfl (le_antisymm (not_lt.mp fun h => ?_) (not_lt.mp fun h => ?_))
    · cases hgt.mpr h
    · cases hlt.mpr h

end Unpacked

/-- Where a floating-point number stands among others. -/
def rank (a : Float) : ℤ ×ₗ ℤ ×ₗ ℤ := unpackedRank a.toModel.unpack

section Ranked

variable {a b : Float} (ha : Scalar.isFinite a = true) (hb : Scalar.isFinite b = true)
include ha hb

theorem lt_iff_rank : lt a b = true ↔ rank a < rank b := by
  rw [lt_eq, UnpackedFloat.lt, beq_iff_eq]
  exact compare_eq_lt_iff ha hb

theorem beq_iff_rank : (a == b) = true ↔ rank a = rank b := by
  rw [beq_eq_some_iff]
  exact compare_eq_eq_iff ha hb

theorem le_iff_rank : le a b = true ↔ rank a ≤ rank b := by
  rw [le_iff_lt_or_eq, ← lt_iff_rank ha hb, ← beq_iff_rank ha hb, lt_eq, le_eq, UnpackedFloat.lt,
    UnpackedFloat.le, beq_eq_some_iff]
  cases a.toModel.unpack.compare b.toModel.unpack with
  | none => decide
  | some o => cases o <;> decide

theorem rank_smaller : rank (smaller a b) = min (rank a) (rank b) := by
  unfold smaller
  split
  · rename_i h
    exact (min_eq_right ((lt_iff_rank hb ha).mp h).le).symm
  · rename_i h
    exact (min_eq_left (not_lt.mp fun hlt => h ((lt_iff_rank hb ha).mpr hlt))).symm

theorem rank_larger : rank (larger a b) = max (rank a) (rank b) := by
  unfold larger
  split
  · rename_i h
    exact (max_eq_right ((lt_iff_rank ha hb).mp h).le).symm
  · rename_i h
    exact (max_eq_left (not_lt.mp fun hlt => h ((lt_iff_rank ha hb).mpr hlt))).symm

end Ranked

/-! ## Numbers as they are stored -/

/-- A finite number is written as it is stored: with 53 bits, of which the first is set unless the
exponent is the least one. -/
def Canonical : UnpackedFloat → Prop
  | .finite _ m e _ => m < 2 ^ 53 ∧ -1074 ≤ e ∧ (2 ^ 52 ≤ m ∨ e = -1074)
  | _ => True

theorem leading_mantissa_bounds (m : BitVec Format.binary64.mantissaBitsWithoutImplicit) :
    2 ^ 52 ≤ (1#1 ++ m).toNat ∧ (1#1 ++ m).toNat < 2 ^ 53 := by
  refine ⟨?_, (1#1 ++ m).isLt⟩
  rw [BitVec.toNat_append]
  exact Nat.left_le_or

/-- What a sign, an exponent and a mantissa can stand for. -/
theorem unpackParts_cases (s : UnpackedFloat.Sign) (e : BitVec Format.binary64.exponentBits)
    (m : BitVec Format.binary64.mantissaBitsWithoutImplicit) :
    (unpackParts s e m = .infinity s ∨ unpackParts s e m = .notANumber) ∨
    (e = 0#_ ∧ m = 0#_ ∧ unpackParts s e m = .zero s) ∨
    (∃ hm, unpackParts s e m = .finite s m.toNat (-1074) hm) ∨
    (e ≠ 0#_ ∧ ∃ hm, unpackParts s e m = .finite s (1#1 ++ m).toNat (e.toNat - 1075) hm) := by
  by_cases hlast : e = -1#_
  · have h : unpackParts s e m = if m = 0#_ then .infinity s else .notANumber := if_pos hlast
    rw [h]
    by_cases hm : m = 0#_
    · exact .inl (.inl (if_pos hm))
    · exact .inl (.inr (if_neg hm))
  by_cases hzero : e = 0#_
  · have h : unpackParts s e m = if hm : m = 0#_ then .zero s
        else .finite s m.toNat (e.toNat - 1075 + 1) (mantissa_pos hm) :=
      (if_neg hlast).trans (if_pos hzero)
    subst hzero
    by_cases hm : m = 0#_
    · exact .inr (.inl ⟨rfl, hm, h.trans (dif_pos hm)⟩)
    · exact .inr (.inr (.inl ⟨mantissa_pos hm, h.trans (dif_neg hm)⟩))
  · exact .inr (.inr (.inr ⟨hzero, leading_mantissa_pos m, (if_neg hlast).trans (if_neg hzero)⟩))

theorem canonical_unpackParts (s : UnpackedFloat.Sign)
    (e : BitVec Format.binary64.exponentBits)
    (m : BitVec Format.binary64.mantissaBitsWithoutImplicit) : Canonical (unpackParts s e m) := by
  obtain (h | h) | ⟨-, -, h⟩ | ⟨_, h⟩ | ⟨hzero, _, h⟩ := unpackParts_cases s e m <;> rw [h]
  · trivial
  · trivial
  · trivial
  · exact ⟨Nat.lt_trans m.isLt (by decide), by decide, .inr rfl⟩
  · obtain ⟨hlow, hhigh⟩ := leading_mantissa_bounds m
    have hpos : e.toNat ≠ 0 := fun h => hzero (BitVec.eq_of_toNat_eq h)
    exact ⟨hhigh, by omega, .inl hlow⟩

theorem canonical_unpack (a : Float) : Canonical a.toModel.unpack :=
  canonical_unpackParts _ _ _

theorem mantissa_shiftRight (em : UnpackedFloat.ExtendedMantissa) (k : Nat) :
    (em >>> k).mantissa = em.mantissa / 2 ^ k := by
  induction k with
  | zero => exact (Nat.div_one _).symm
  | succ k ih =>
    change (em >>> k).mantissa / 2 = em.mantissa / 2 ^ (k + 1)
    rw [ih, Nat.div_div_eq_div_mul, Nat.pow_succ]

theorem mantissa_ofMantissaAndAccuracy (m : Nat) (a : UnpackedFloat.Accuracy) :
    (UnpackedFloat.ExtendedMantissa.ofMantissaAndAccuracy m a).mantissa = m := by
  cases a with
  | exact => rfl
  | inexact o => cases o <;> rfl

theorem le_roundToNearestEven (m : Nat) (a : UnpackedFloat.Accuracy) :
    m ≤ a.roundToNearestEven m := by
  cases a with
  | exact => exact Nat.le_refl m
  | inexact o =>
    cases o with
    | lt => exact Nat.le_refl m
    | eq => exact Nat.le_add_right m _
    | gt => exact Nat.le_add_right m 1

/-- The exponent that 53 bits of a number have, but not less than the least one. -/
theorem targetExponent_eq (t : Int) : Format.binary64.targetExponent t = max (t - 53) (-1074) := rfl

/-- Shifting a positive mantissa to its target exponent leaves some of it, at most 53 bits. -/
theorem shifted_mantissa_bounds {m : Nat} (hm : 0 < m) {e : Int} (he : -1074 ≤ e) :
    0 < m / 2 ^ (Format.binary64.targetExponent (totalExponent m e) - e).toNat ∧
      m / 2 ^ (Format.binary64.targetExponent (totalExponent m e) - e).toNat < 2 ^ 53 := by
  have hlow : 2 ^ m.log2 ≤ m := Nat.log2_self_le hm.ne'
  have hhigh : m < 2 ^ (m.log2 + 1) := Nat.lt_log2_self
  rw [targetExponent_eq, totalExponent]
  rcases Nat.lt_or_ge m.log2 53 with hlog | hlog
  · -- the mantissa has no more than 53 bits, and nothing is shifted out
    have hshift : (max ((m.log2 : Int) + 1 + e - 53) (-1074) - e).toNat = 0 := by omega
    rw [hshift, Nat.pow_zero, Nat.div_one]
    exact ⟨hm, Nat.lt_of_lt_of_le hhigh (Nat.pow_le_pow_right (by decide) (by omega))⟩
  · have hshift : (max ((m.log2 : Int) + 1 + e - 53) (-1074) - e).toNat = m.log2 - 52 := by omega
    rw [hshift]
    constructor
    · refine Nat.div_pos (Nat.le_trans (Nat.pow_le_pow_right (by decide) ?_) hlow)
        (Nat.two_pow_pos _)
      omega
    · rw [Nat.div_lt_iff_lt_mul (Nat.two_pow_pos _), ← Nat.pow_add]
      have hsum : 53 + (m.log2 - 52) = m.log2 + 1 := by omega
      rw [hsum]
      exact hhigh

/-- What rounding does to a mantissa before it looks at the bits that were shifted out. -/
theorem mantissa_shiftToTargetExponent (m : Nat) (e : Int) (a : UnpackedFloat.Accuracy) :
    (UnpackedFloat.shiftToTargetExponent .binary64 m e a).1.mantissa =
      m / 2 ^ (Format.binary64.targetExponent (totalExponent m e) - e).toNat := by
  unfold UnpackedFloat.shiftToTargetExponent UnpackedFloat.shiftToExponent
  dsimp only
  rw [mantissa_shiftRight, mantissa_ofMantissaAndAccuracy]

/-- Rounding leaves a positive mantissa of at most 53 bits. -/
theorem roundWithAccuracy_positive (s : UnpackedFloat.Sign) {m : Nat} (hm : 0 < m) {e : Int}
    (he : -1074 ≤ e) (a : UnpackedFloat.Accuracy) :
    ∃ m' e' hm', UnpackedFloat.roundWithAccuracy .binary64 s m e a = .finite s m' e' hm' ∧
      m' < 2 ^ 53 ∧ -1074 ≤ e' := by
  have hexponent : ∀ (m : Nat) (e : Int) (a : UnpackedFloat.Accuracy), -1074 ≤ e →
      -1074 ≤ (UnpackedFloat.shiftToTargetExponent .binary64 m e a).2 := by
    intro m e a he
    unfold UnpackedFloat.shiftToTargetExponent UnpackedFloat.shiftToExponent
    dsimp only
    omega
  have hrounded :
      0 < (UnpackedFloat.shiftToTargetExponent .binary64 m e a).1.roundedMantissa := by
    refine Nat.lt_of_lt_of_le ?_ (le_roundToNearestEven _ _)
    rw [mantissa_shiftToTargetExponent]
    exact (shifted_mantissa_bounds hm he).1
  -- what was rounded up may have one bit more, and is shifted again
  obtain ⟨hlow, hhigh⟩ := shifted_mantissa_bounds hrounded (hexponent m e a he)
  rw [← mantissa_shiftToTargetExponent _ _ .exact] at hlow hhigh
  unfold UnpackedFloat.roundWithAccuracy
  dsimp only
  rw [dif_neg hlow.ne']
  exact ⟨_, _, hlow, rfl, hhigh, hexponent _ _ _ (hexponent m e a he)⟩

theorem round_positive (s : UnpackedFloat.Sign) {m : Nat} (hm : 0 < m) {e : Int}
    (he : -1074 ≤ e) :
    ∃ m' e' hm', UnpackedFloat.round .binary64 s m e = .finite s m' e' hm' ∧
      m' < 2 ^ 53 ∧ -1074 ≤ e' := by
  unfold UnpackedFloat.round UnpackedFloat.decreaseExponent
  dsimp only
  refine roundWithAccuracy_positive s ?_ ?_ .exact
  · rw [Nat.shiftLeft_eq]
    exact Nat.mul_pos hm (Nat.two_pow_pos _)
  · rw [targetExponent_eq]
    omega

theorem unpackParts_eq_zero {s t : UnpackedFloat.Sign} {e : BitVec Format.binary64.exponentBits}
    {m : BitVec Format.binary64.mantissaBitsWithoutImplicit} (h : unpackParts s e m = .zero t) :
    e = 0#_ ∧ m = 0#_ := by
  obtain (hparts | hparts) | ⟨he, hm, -⟩ | ⟨_, hparts⟩ | ⟨-, _, hparts⟩ := unpackParts_cases s e m
  case inr.inl => exact ⟨he, hm⟩
  all_goals
    rw [hparts] at h
    cases h

/-- A number other than zero is not packed as a zero. -/
theorem unpack_pack_ne_zero {s t : UnpackedFloat.Sign} {m : Nat} {e : Int} (hm : 0 < m)
    (hbits : m < 2 ^ 53) (he : -1074 ≤ e) : (pack (.finite s m e hm)).unpack ≠ .zero t := by
  intro h
  change UnpackedFloat.unpack .binary64 (UnpackedFloat.pack .binary64 _) = _ at h
  have hbias : (Format.binary64.exponentBias : Int) = 1023 := rfl
  unfold UnpackedFloat.pack UnpackedFloat.packedInfinity at h
  dsimp only at h
  rw [hbias] at h
  split at h
  · rw [unpack_packComponents] at h
    exact absurd (unpackParts_eq_zero h).1 (by decide)
  · rename_i hfits
    split at h
    · -- with all bits, the exponent is not the one of zero
      rw [unpack_packComponents] at h
      have hexponent := congrArg BitVec.toNat (unpackParts_eq_zero h).1
      rw [BitVec.toNat_ofNat, BitVec.toNat_zero, Nat.mod_eq_of_lt (by omega)] at hexponent
      omega
    · rename_i hshort
      rw [unpack_packComponents] at h
      have hmantissa := congrArg BitVec.toNat (unpackParts_eq_zero h).2
      have hlog : m.log2 < 53 := (Nat.log2_lt hm.ne').mpr hbits
      have hsmall : m < 2 ^ 52 := by
        refine (Nat.log2_lt hm.ne').mp ?_
        have hbits : Format.binary64.mantissaBits = 53 := rfl
        omega
      rw [BitVec.toNat_ofNat, BitVec.toNat_zero, Nat.mod_eq_of_lt hsmall] at hmantissa
      omega

/-! ## Differences -/

/-- A mantissa that is stored is not another one shifted: this would need a bit more. -/
theorem aligned_inj {m m' : Nat} {e e' : Int} (hm : m < 2 ^ 53) (he : -1074 ≤ e)
    (hm' : 2 ^ 52 ≤ m' ∨ e' = -1074) (hle : e ≤ e') (h : m = m' <<< (e' - e).toNat) :
    e = e' ∧ m = m' := by
  obtain ⟨k, hk⟩ := Int.le.dest hle
  have hshift : (e' - e).toNat = k := by omega
  rw [hshift, Nat.shiftLeft_eq] at h
  cases k with
  | zero => exact ⟨by omega, by simpa using h⟩
  | succ k =>
    have hleading : 2 ^ 52 ≤ m' := hm'.resolve_right (by omega)
    have hlarge : 2 ^ 53 ≤ m' * 2 ^ (k + 1) :=
      calc 2 ^ 53 = 2 ^ 52 * 2 ^ 1 := rfl
        _ ≤ m' * 2 ^ (k + 1) :=
          Nat.mul_le_mul hleading (Nat.pow_le_pow_right (by decide) (by omega))
    omega

theorem Sign.apply_eq_apply {s t : UnpackedFloat.Sign} {m m' : Nat} (hm : 0 < m) (hm' : 0 < m')
    (h : s.apply m - t.apply m' = 0) : s = t ∧ m = m' := by
  cases s <;> cases t <;> simp only [UnpackedFloat.Sign.apply] at h
  · exact ⟨rfl, by omega⟩
  · omega
  · omega
  · exact ⟨rfl, by omega⟩

/-- Rounding loses no number from the least positive one on. -/
theorem normalize_ne_zero {m e : Int} (hm : m ≠ 0) (he : -1074 ≤ e) (t : UnpackedFloat.Sign) :
    (pack (UnpackedFloat.normalize .binary64 m e .positive)).unpack ≠ .zero t := by
  unfold UnpackedFloat.normalize
  rcases Int.lt_or_gt_of_ne hm with hm | hm
  · rw [Int.compare_eq_lt.mpr hm]
    obtain ⟨m', e', hm', hround, hbits, he'⟩ :=
      round_positive .negative (m := (-m).toNat) (by omega) he
    rw [hround]
    exact unpack_pack_ne_zero hm' hbits he'
  · rw [Int.compare_eq_gt.mpr hm]
    obtain ⟨m', e', hm', hround, hbits, he'⟩ :=
      round_positive .positive (m := m.toNat) (by omega) he
    rw [hround]
    exact unpack_pack_ne_zero hm' hbits he'

/-- Only equal numbers have a difference of zero. -/
theorem compare_of_sub_zero {u v : UnpackedFloat} {t : UnpackedFloat.Sign}
    (hu : u.isFinite = true) (hv : v.isFinite = true) (hcu : Canonical u) (hcv : Canonical v)
    (h : (pack (UnpackedFloat.sub .binary64 u v)).unpack = .zero t) : u.compare v = some .eq := by
  cases u with
  | notANumber | infinity => cases hu
  | zero s =>
    cases v with
    | notANumber | infinity => cases hv
    | zero s' => rfl
    | finite s' m' e' hm' =>
      obtain ⟨hbits, he, _⟩ := hcv
      exact absurd h (unpack_pack_ne_zero hm' hbits he)
  | finite s m e hm =>
    obtain ⟨hbits, he, hnormal⟩ := hcu
    cases v with
    | notANumber | infinity => cases hv
    | zero s' => exact absurd h (unpack_pack_ne_zero hm hbits he)
    | finite s' m' e' hm' =>
      obtain ⟨hbits', he', hnormal'⟩ := hcv
      -- both mantissas belong to the smaller exponent, and differ by nothing
      have hzero : s.apply (m <<< (e - min e e').toNat) -
          s'.apply (m' <<< (e' - min e e').toNat) = 0 := by
        by_contra hne
        exact normalize_ne_zero hne (by omega) t h
      have hpos : ∀ {j : Nat} (i : Nat), 0 < j → 0 < j <<< i := fun i hj => by
        rw [Nat.shiftLeft_eq]
        exact Nat.mul_pos hj (Nat.two_pow_pos i)
      obtain ⟨rfl, hmantissas⟩ := Sign.apply_eq_apply (hpos _ hm) (hpos _ hm') hzero
      have hsame : e = e' ∧ m = m' := by
        rcases Int.le_total e e' with hle | hle
        · rw [Int.min_eq_left hle, Int.sub_self] at hmantissas
          exact aligned_inj hbits he hnormal' hle hmantissas
        · rw [Int.min_eq_right hle, Int.sub_self] at hmantissas
          obtain ⟨hexponents, hmantissas⟩ := aligned_inj hbits' he' hnormal hle hmantissas.symm
          exact ⟨hexponents.symm, hmantissas.symm⟩
      obtain ⟨rfl, rfl⟩ := hsame
      exact compare_self_of_isFinite rfl

/-- **A difference is zero between equal numbers only.** -/
theorem sub_isZero_iff {a b : Float} (ha : Scalar.isFinite a = true)
    (hb : Scalar.isFinite b = true) : (a - b == (zero : Float)) = true ↔ (a == b) = true := by
  constructor
  · intro h
    rw [beq_eq_some_iff] at h ⊢
    have hzero : ∃ t, (a - b).toModel.unpack = .zero t := by
      rcases eq_or_zeros_of_compare h with hsub | ⟨t, _, hsub, _⟩
      · exact ⟨_, hsub⟩
      · exact ⟨t, hsub⟩
    obtain ⟨t, hzero⟩ := hzero
    exact compare_of_sub_zero ha hb (canonical_unpack a) (canonical_unpack b) hzero
  · intro h
    rw [← (SameSize.sub_of_beq h a).isZero_iff, float_sub_self ha]
    rfl

end Drafting
