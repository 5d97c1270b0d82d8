import Drafting.Decimal.Reading
import Drafting.Document.Value

/-!
Documents as JSON text. A number is whole when it is written with digits alone and floating-point
otherwise; of two entries with one key the later value stands at the place of the earlier.
-/

namespace Drafting.Value

/-- The entries after one more has been read: a known key keeps its place. -/
def putEntry (k : String) (v : Value) : List (String × Value) → List (String × Value)
  | [] => [(k, v)]
  | (k', w) :: es => if k' == k then (k', v) :: es else (k', w) :: putEntry k v es

namespace Json

/-- The input without the blanks in front. -/
def skip (cs : List Char) : List Char :=
  cs.dropWhile fun c => c == ' ' || c == '\n' || c == '\t' || c == '\r'

/-- The value of a digit to base 16. -/
def hexValue? (c : Char) : Option Nat :=
  if c.isDigit then some (c.toNat - 48)
  else if 'a' ≤ c && c ≤ 'f' then some (c.toNat - 87)
  else if 'A' ≤ c && c ≤ 'F' then some (c.toNat - 55)
  else none

/-- The number that four digits to base 16 spell. -/
def unit? : List Char → Option (Nat × List Char)
  | a :: b :: c :: d :: cs => do
    let n ← [a, b, c, d].foldlM (fun n x => (hexValue? x).map (n * 16 + ·)) 0
    some (n, cs)
  | _ => none

/-- The character after a backslash and `u`: one unit, or the two halves of a pair. Half a pair
reads as the replacement character. -/
def codePoint? (cs : List Char) : Option (Char × List Char) := do
  let (high, rest) ← unit? cs
  if high < 0xD800 || 0xDFFF < high then some (Char.ofNat high, rest)
  else
    match rest with
    | '\\' :: 'u' :: more =>
      let (low, after) ← unit? more
      if high < 0xDC00 && 0xDC00 ≤ low && low ≤ 0xDFFF then
        some (Char.ofNat (0x10000 + (high - 0xD800) * 0x400 + (low - 0xDC00)), after)
      else some (Char.ofNat 0xFFFD, rest)
    | _ => some (Char.ofNat 0xFFFD, rest)

/-- The character that a letter after a backslash stands for. -/
def unescape? (c : Char) : Option Char :=
  match c with
  | '"' => some '"'
  | '\\' => some '\\'
  | '/' => some '/'
  | 'b' => some '\x08'
  | 'f' => some '\x0c'
  | 'n' => some '\n'
  | 'r' => some '\r'
  | 't' => some '\t'
  | _ => none

/-- The characters of a text up to its closing quote, in reverse, and the rest. -/
def textBody : Nat → List Char → List Char → Option (List Char × List Char)
  | 0, _, _ => none
  | _, _, [] => none
  | fuel + 1, acc, c :: cs =>
    if c == '"' then some (acc, cs)
    else if c == '\\' then
      match cs with
      | 'u' :: more => do
        let (x, rest) ← codePoint? more
        textBody fuel (x :: acc) rest
      | e :: more => do
        let x ← unescape? e
        textBody fuel (x :: acc) more
      | [] => none
    else textBody fuel (c :: acc) cs

/-- A text after its opening quote. -/
def text? (fuel : Nat) (cs : List Char) : Option (String × List Char) :=
  (textBody fuel [] cs).map fun (acc, rest) => (String.ofList acc.reverse, rest)

/-- The characters of which numbers are made. -/
def isNumeric (c : Char) : Bool :=
  c.isDigit || c == '-' || c == '+' || c == '.' || c == 'e' || c == 'E'

/-- A number: whole if it has digits only. -/
def number? (cs : List Char) : Option (Value × List Char) := do
  let token := cs.takeWhile isNumeric
  let rest := cs.dropWhile isNumeric
  let (negative, body) := Decimal.takeSign token
  if body.isEmpty then none
  else if body.all Char.isDigit then
    let n : Int := Decimal.natOfDigits body
    some (.int (if negative then -n else n), rest)
  else
    let x ← Decimal.unsigned? negative body
    some (.float x, rest)

/-- The values that are written as words. -/
def words : List (String × Value) := [
  ("null", .null), ("true", .bool true), ("false", .bool false),
  ("NaN", .float (0.0 / 0.0)), ("Infinity", .float (1.0 / 0.0)), ("-Infinity", .float (-1.0 / 0.0))]

/-- A word in front of the input. -/
def word? (cs : List Char) : Option (Value × List Char) :=
  words.findSome? fun (w, v) =>
    if w.toList.isPrefixOf cs then some (v, cs.drop w.length) else none

mutual

/-- A value in front of the input. -/
def value? : Nat → List Char → Option (Value × List Char)
  | 0, _ => none
  | fuel + 1, cs =>
    match skip cs with
    | '"' :: rest => (text? fuel rest).map fun (s, more) => (.text s, more)
    | '[' :: rest =>
      match skip rest with
      | ']' :: more => some (.list [], more)
      | more => (items? fuel more).map fun (vs, after) => (.list vs, after)
    | '\x7b' :: rest =>
      match skip rest with
      | '\x7d' :: more => some (.object [], more)
      | more => (entries? fuel [] more).map fun (es, after) => (.object es, after)
    | rest =>
      match word? rest with
      | some found => some found
      | none => number? rest

/-- The items of a list after its opening bracket, of which there is at least one. -/
def items? : Nat → List Char → Option (List Value × List Char)
  | 0, _ => none
  | fuel + 1, cs => do
    let (v, rest) ← value? fuel cs
    match skip rest with
    | ',' :: more => (items? fuel more).map fun (vs, after) => (v :: vs, after)
    | ']' :: more => some ([v], more)
    | _ => none

/-- The entries of an object after those already read. -/
def entries? : Nat → List (String × Value) → List Char →
    Option (List (String × Value) × List Char)
  | 0, _, _ => none
  | fuel + 1, seen, cs =>
    match skip cs with
    | '"' :: rest => do
      let (k, rest) ← text? fuel rest
      match skip rest with
      | ':' :: rest =>
        let (v, rest) ← value? fuel rest
        let now := putEntry k v seen
        match skip rest with
        | ',' :: more => entries? fuel now more
        | '\x7d' :: more => some (now, more)
        | _ => none
      | _ => none
    | _ => none

end

/-- One character of a written text. -/
def escape (c : Char) : List Char :=
  if c == '"' then ['\\', '"']
  else if c == '\\' then ['\\', '\\']
  else if c.toNat < 0x20 then '\\' :: 'u' :: Text.hexDigits 4 c.toNat
  else [c]

/-- A written text. -/
def textOf (s : String) : String :=
  String.ofList ('"' :: s.toList.flatMap escape ++ ['"'])

end Json

/-- The document that a JSON text holds. Every step of the reader consumes a character, so the
length of the text bounds its depth. -/
def parse? (s : String) : Option Value :=
  let cs := s.toList
  match Json.value? (2 * cs.length + 2) cs with
  | some (v, rest) => if (Json.skip rest).isEmpty then some v else none
  | none => none

mutual

/-- A document as JSON text on one line. -/
def render : Value → String
  | null => "null"
  | bool b => if b then "true" else "false"
  | int n => toString n
  | float x => Decimal.shortest x
  | text s => Json.textOf s
  | issued _ => Json.textOf issuedText
  | list items => "[" ++ ",".intercalate (renderItems items) ++ "]"
  | object entries => "\x7b" ++ ",".intercalate (renderEntries entries) ++ "\x7d"

def renderItems : List Value → List String
  | [] => []
  | v :: vs => v.render :: renderItems vs

def renderEntries : List (String × Value) → List String
  | [] => []
  | (k, v) :: es => (Json.textOf k ++ ":" ++ v.render) :: renderEntries es

end

end Drafting.Value
