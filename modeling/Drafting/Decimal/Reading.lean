import Drafting.Text.Blank
import Drafting.Text.Digit

/-!
Reading decimal text as a floating-point number. Blanks may surround the text, the digits may be
those of any script and grouped by single underscores, the point needs digits on one side only,
and the words for infinity and for an undefined number are read in any case.
-/

namespace Drafting.Decimal

/-- The floating-point number nearest to `± mantissa · 10 ^ exponent`. Outside the range of
exponents that any mantissa of this length can bring back, the result is infinite or zero. -/
def nearest (negative : Bool) (mantissa : Nat) (exponent : Int) : Float :=
  let reach : Int := (Nat.toDigits 10 mantissa).length + exponent
  let magnitude :=
    if mantissa == 0 || reach < -400 then 0.0
    else if 400 < reach then 1.0 / 0.0
    else if exponent < 0 then Float.ofScientific mantissa true (-exponent).toNat
    else Float.ofScientific mantissa false exponent.toNat
  if negative then -magnitude else magnitude

/-- The number that a list of digits spells. -/
def natOfDigits (ds : List Char) : Nat :=
  ds.foldl (fun n c => n * 10 + (c.toNat - 48)) 0

/-- A sign, if there is one, and the rest. -/
def takeSign : List Char → Bool × List Char
  | '-' :: cs => (true, cs)
  | '+' :: cs => (false, cs)
  | cs => (false, cs)

/-- The exponent at the end of a decimal: nothing, or a mark and a signed number. -/
def exponent? : List Char → Option Int
  | [] => some 0
  | c :: cs =>
    let (negative, ds) := takeSign cs
    if (c == 'e' || c == 'E') && !ds.isEmpty && ds.all Char.isDigit then
      let n : Int := natOfDigits ds
      some (if negative then -n else n)
    else none

/-- Digits, an optional point with digits on at least one of its sides, an optional exponent. -/
def unsigned? (negative : Bool) (cs : List Char) : Option Float :=
  let whole := cs.takeWhile Char.isDigit
  let rest := cs.dropWhile Char.isDigit
  let (fraction, rest) := match rest with
    | '.' :: more => (more.takeWhile Char.isDigit, more.dropWhile Char.isDigit)
    | other => ([], other)
  if whole.isEmpty && fraction.isEmpty then none
  else (exponent? rest).map fun e =>
    nearest negative (natOfDigits (whole ++ fraction)) (e - fraction.length)

/-- Digits without the underscores between them, if every underscore stands between two digits. -/
def ungroup? : Option Char → List Char → Option (List Char)
  | _, [] => some []
  | before, '_' :: cs =>
    if before.any Char.isDigit && cs.head?.any Char.isDigit then ungroup? none cs else none
  | _, c :: cs => (ungroup? (some c) cs).map (c :: ·)

/-- The number that a text spells, if it spells one. -/
def read? (s : String) : Option Float :=
  let (negative, cs) := takeSign ((Text.trim Text.isPadding s.toList).map Text.basicDigit)
  let word := String.ofList (cs.map Char.toLower)
  if word == "inf" || word == "infinity" then
    some (if negative then -(1.0 / 0.0) else 1.0 / 0.0)
  else if word == "nan" then some (0.0 / 0.0)
  else (ungroup? none cs).bind (unsigned? negative)

end Drafting.Decimal
