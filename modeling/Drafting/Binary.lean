/-!
Binary numbers: the exact values of finite floating-point numbers, as a sign, a mantissa and a
power of two. Everything that must be exact (the decimal text of a number, the length of a
diagonal) is computed here in whole numbers and rounded once.
-/

namespace Drafting

/-- The number `± mantissa · 2 ^ exponent`. -/
structure Binary where
  negative : Bool
  mantissa : Nat
  exponent : Int
  deriving DecidableEq, Repr

namespace Binary

/-- The exact value of a finite number. Subnormal numbers share the least exponent. -/
def ofFloat? (x : Float) : Option Binary :=
  let bits : Nat := x.toBits.toNat
  let negative := bits / Nat.pow 2 63 == 1
  let field : Nat := bits / Nat.pow 2 52 % Nat.pow 2 11
  let fraction : Nat := bits % Nat.pow 2 52
  if field == 2047 then none
  else if field == 0 then some ⟨negative, fraction, -1074⟩
  else some ⟨negative, fraction + Nat.pow 2 52, (field : Int) - 1075⟩

/-- The numerator of `base ^ e` written as a fraction. -/
def powNum (base : Nat) (e : Int) : Nat := Nat.pow base e.toNat

/-- The denominator of `base ^ e` written as a fraction. -/
def powDen (base : Nat) (e : Int) : Nat := Nat.pow base (-e).toNat

/-- Numerator of the magnitude. -/
def num (d : Binary) : Nat := d.mantissa * powNum 2 d.exponent

/-- Denominator of the magnitude. -/
def den (d : Binary) : Nat := powDen 2 d.exponent

end Binary

/-- The whole number nearest to `num / den`; a tie goes to the even neighbour. -/
def roundDiv (num den : Nat) : Nat :=
  let q := num / den
  let r := num % den
  if 2 * r < den then q
  else if den < 2 * r then q + 1
  else if q % 2 == 0 then q else q + 1

/-- The floating-point number nearest to `m · 2 ^ e`, from the 64 leading bits of `m` and a sticky
bit for the others. -/
def Binary.roundScaled (m : Nat) (e : Int) : Float :=
  let extra := m.log2 - 63
  let top := m / Nat.pow 2 extra
  let sticky := if top * Nat.pow 2 extra == m then 0 else 1
  Float.scaleB (Float.ofNat (top / 2 * 2 + max (top % 2) sticky)) (e + extra)

/-- The length of the diagonal of a `x` by `y` box, rounded once. An infinite side makes it
infinite even if the other side is undefined, and no intermediate value overflows. -/
def hypotenuse (x y : Float) : Float :=
  if x.isInf || y.isInf then Float.abs (if x.isInf then x else y)
  else match Binary.ofFloat? x, Binary.ofFloat? y with
    | some a, some b =>
      let e := min a.exponent b.exponent
      let p := a.mantissa * Nat.pow 2 (a.exponent - e).toNat
      let q := b.mantissa * Nat.pow 2 (b.exponent - e).toNat
      let s := p * p + q * q
      if s == 0 then 0.0
      else
        let shift := 64 - s.log2 / 2
        let wide := s * Nat.pow 2 (2 * shift)
        let root := wide.sqrt
        let m := 2 * root + (if root * root == wide then 0 else 1)
        Binary.roundScaled m (e - shift - 1)
    | _, _ => x + y

end Drafting
