import Drafting.Binary

/-!
Decimal text with a fixed number of places: plain (`12.50`) and with an exponent (`1.25e+01`).
The exact binary value is rounded, a tie going to the even last digit. A minus sign is kept even
where every written digit is zero.
-/

namespace Drafting.Decimal

/-- The texts of the values that are no numbers, and the sign of the others. -/
def signed (x : Float) (magnitude : Binary → String) : String :=
  match Binary.ofFloat? x with
  | some d => (if d.negative then "-" else "") ++ magnitude d
  | none => if x.isNaN then "nan" else if x < 0.0 then "-inf" else "inf"

/-- `n` in decimal digits, filled up on the left with zeros to at least `width` digits. -/
def padded (width n : Nat) : List Char :=
  let ds := Nat.toDigits 10 n
  List.replicate (width - ds.length) '0' ++ ds

/-- The digits of `n` with a point in front of the last `places` of them. -/
def pointed (places n : Nat) : String :=
  let ds := padded (places + 1) n
  let whole := ds.take (ds.length - places)
  if places == 0 then String.ofList whole
  else String.ofList (whole ++ '.' :: ds.drop (ds.length - places))

/-- A number with exactly `places` digits after the point. -/
def fixed (places : Nat) (x : Float) : String :=
  signed x fun d => pointed places (roundDiv (d.num * Nat.pow 10 places) d.den)

/-- The number of tenfoldings, at most `fuel`, that lift `num` to `den`. -/
def tenfoldings : Nat → Nat → Nat → Nat
  | 0, _, _ => 0
  | fuel + 1, num, den => if den ≤ num then 0 else tenfoldings fuel (num * 10) den + 1

/-- The exponent `k` with `10 ^ k ≤ num / den < 10 ^ (k + 1)`, for a quotient of the range of
floating-point numbers that is not zero. -/
def exponentOf (num den : Nat) : Int :=
  if den ≤ num then ((Nat.toDigits 10 (num / den)).length : Int) - 1
  else -(tenfoldings 400 num den : Int)

/-- An exponent with its sign and at least two digits. -/
def exponentText (k : Int) : String :=
  (if k < 0 then "e-" else "e+") ++ String.ofList (padded 2 k.natAbs)

/-- A number with one digit before and `places` digits after the point, and an exponent. -/
def scientific (places : Nat) (x : Float) : String :=
  signed x fun d =>
    if d.mantissa == 0 then pointed places 0 ++ exponentText 0
    else
      let k := exponentOf d.num d.den
      let e := (places : Int) - k
      let n := roundDiv (d.num * Binary.powNum 10 e) (d.den * Binary.powDen 10 e)
      if n == Nat.pow 10 (places + 1) then
        pointed places (Nat.pow 10 places) ++ exponentText (k + 1)
      else pointed places n ++ exponentText k

end Drafting.Decimal
