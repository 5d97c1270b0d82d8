import Drafting.Text.Printable

/-!
Quoted text, the form in which a text stands inside a message: between single quotes, or between
double quotes where that saves escaping, with hidden characters written by their code points.
-/

namespace Drafting.Text

/-- The quote that surrounds `cs`: a double quote if `cs` has single quotes only, else a single
quote. -/
def quoteFor (cs : List Char) : Char :=
  if cs.contains '\'' && !cs.contains '"' then '"' else '\''

/-- The lower-case digit of a number below 16. -/
def hexDigit (n : Nat) : Char :=
  if n < 10 then Char.ofNat (48 + n) else Char.ofNat (87 + n)

/-- The last `width` digits of `n` to base 16. -/
def hexDigits : Nat → Nat → List Char
  | 0, _ => []
  | width + 1, n => hexDigits width (n / 16) ++ [hexDigit (n % 16)]

/-- A hidden character by its code point, in the shortest of the three widths that holds it. -/
def escapeHidden (c : Char) : List Char :=
  let n := c.toNat
  if n < 0x100 then '\\' :: 'x' :: hexDigits 2 n
  else if n < 0x10000 then '\\' :: 'u' :: hexDigits 4 n
  else '\\' :: 'U' :: hexDigits 8 n

/-- One character inside quotes of the given kind. -/
def escapeChar (quote c : Char) : List Char :=
  if c == quote || c == '\\' then ['\\', c]
  else if c == '\n' then ['\\', 'n']
  else if c == '\r' then ['\\', 'r']
  else if c == '\t' then ['\\', 't']
  else if isPrintable c then [c]
  else escapeHidden c

/-- A text between quotes. -/
def quoted (s : String) : String :=
  let cs := s.toList
  let quote := quoteFor cs
  String.ofList (quote :: cs.flatMap (escapeChar quote) ++ [quote])

example : quoted "line" = "'line'" := by decide +kernel
example : quoted "it's" = "\"it's\"" := by decide +kernel
example : quoted "it's \"q\"" = "'it\\'s \"q\"'" := by decide +kernel
example : quoted "\x01\u00a0" = "'\\x01\\xa0'" := by decide +kernel

end Drafting.Text
