import Drafting.Decimal.Fixed

/-!
The shortest decimal text that reads back as the same floating-point number. Of several decimals
with the fewest digits the nearest to the number is taken. Exponents from −4 to 15 are written
positionally, and a whole number keeps one zero after the point.
-/

namespace Drafting.Decimal

/-- The decimal `digits · 10 ^ exponent`. -/
structure Digits where
  digits : Nat
  exponent : Int
  deriving DecidableEq, Repr

/-- The reals that round to a number, in quarters of its last binary place: `low` and `high` are
its ends, which belong to it when the mantissa is even. -/
structure Reach where
  low : Nat
  mid : Nat
  high : Nat
  closed : Bool
  unit : Int
  deriving DecidableEq, Repr

/-- Below a power of two the neighbours are half as far apart as above it. -/
def Reach.ofBinary (d : Binary) : Reach :=
  let m := d.mantissa
  let narrow := m == Nat.pow 2 52 && d.exponent != -1074
  { low := if narrow then 4 * m - 1 else 4 * m - 2
    mid := 4 * m
    high := 4 * m + 2
    closed := m % 2 == 0
    unit := d.exponent - 2 }

/-- Whether the decimal reads back as the number: it lies between the ends of its reach. -/
def Reach.holds (r : Reach) (x : Digits) : Bool :=
  let decimal := x.digits * Binary.powNum 10 x.exponent * Binary.powDen 2 r.unit
  let scale := Binary.powNum 2 r.unit * Binary.powDen 10 x.exponent
  if r.closed then r.low * scale ≤ decimal && decimal ≤ r.high * scale
  else r.low * scale < decimal && decimal < r.high * scale

/-- The neighbours of the number on the grid of multiples of `10 ^ e`, nearest first. -/
def Reach.neighbours (r : Reach) (e : Int) : List Digits :=
  let num := r.mid * Binary.powNum 2 r.unit * Binary.powDen 10 e
  let den := Binary.powDen 2 r.unit * Binary.powNum 10 e
  let near := roundDiv num den
  let other := if near * den ≤ num then near + 1 else near - 1
  [⟨near, e⟩, ⟨other, e⟩]

/-- The first grid, from `10 ^ e` down to finer ones, with a neighbour that reads back. -/
def Reach.search (r : Reach) : Nat → Int → Digits
  | 0, e => ⟨0, e⟩
  | fuel + 1, e =>
    match (r.neighbours e).find? r.holds with
    | some x => x
    | none => r.search fuel (e - 1)

/-- The fewest digits that read back as the magnitude of `d`. Seventeen always do. -/
def shortestDigits (d : Binary) : Digits :=
  if d.mantissa == 0 then ⟨0, 0⟩
  else (Reach.ofBinary d).search 20 (exponentOf d.num d.den + 1)

/-- Digits without the zeros at their end. -/
def trimZeros (cs : List Char) : List Char :=
  (cs.reverse.dropWhile (· == '0')).reverse

/-- A decimal written positionally or, outside the exponents −4 to 15, with an exponent. -/
def Digits.layout (x : Digits) : String :=
  if x.digits == 0 then "0.0"
  else
    let all := Nat.toDigits 10 x.digits
    let ds := trimZeros all
    let k : Int := (all.length : Int) - 1 + x.exponent
    if k < -4 || 16 ≤ k then
      let tail := if ds.length ≤ 1 then [] else '.' :: ds.drop 1
      String.ofList (ds.take 1 ++ tail) ++ exponentText k
    else if k < 0 then
      "0." ++ String.ofList (List.replicate (-k - 1).toNat '0' ++ ds)
    else
      let whole := ds.take (k.toNat + 1)
      let zeros := List.replicate (k.toNat + 1 - ds.length) '0'
      let tail := ds.drop (k.toNat + 1)
      String.ofList (whole ++ zeros ++ '.' :: (if tail.isEmpty then ['0'] else tail))

/-- The shortest text of a number. -/
def shortest (x : Float) : String :=
  signed x fun d => (shortestDigits d).layout

end Drafting.Decimal
