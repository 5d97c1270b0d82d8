import Drafting.Decimal.Reading
import Drafting.Error

/-!
Reading parts of a document: entries of objects, items of lists, numbers, keys of tables and
texts. Each reader fails with the cause that says what the document lacks.
-/

namespace Drafting.Value

/-- The value of an entry, if the object has it. -/
def entry? : Value → String → Option Value
  | object entries, key => entries.lookup key
  | _, _ => none

/-- The value of an entry that must be there. -/
def entry (v : Value) (key : String) : Except Error Value :=
  match v with
  | object entries =>
    match entries.lookup key with
    | some w => .ok w
    | none => .error (.missingEntry key)
  | _ => .error .wrongKind

/-- The value of an entry, or `default` if the object lacks it. Only an object has entries. -/
def entryD (v : Value) (key : String) (default : Value) : Except Error Value :=
  match v with
  | object entries => .ok ((entries.lookup key).getD default)
  | _ => .error .noAttributes

/-- The parts that a value runs through: items of a list, keys of an object, characters of a
text. -/
def parts : Value → Except Error (List Value)
  | list items => .ok items
  | object entries => .ok (entries.map fun e => text e.1)
  | text s => .ok (s.toList.map fun c => text c.toString)
  | issued _ => .ok (issuedText.toList.map fun c => text c.toString)
  | _ => .error .wrongKind

/-- A number: any number, a truth value, or a text that spells a number. -/
def toFloat : Value → Except Error Float
  | float x => .ok x
  | bool b => .ok (if b then 1.0 else 0.0)
  | int n =>
    let x := Decimal.nearest (n < 0) n.natAbs 0
    if x.isInf then .error .tooLarge else .ok x
  | text s =>
    match Decimal.read? s with
    | some x => .ok x
    | none => .error (.notNumeric s)
  | v => .error (.noNumber v)

/-- Whether something can be kept in a table under a value: not under a list or an object. -/
def isKey : Value → Bool
  | list _ | object _ => false
  | _ => true

/-- A value under which something is to be kept in a table. -/
def asKey (v : Value) : Except Error Value :=
  if v.isKey then .ok v else .error (.noKey v)

@[simp] theorem asKey_text (s : String) : (text s).asKey = .ok (text s) := rfl

/-- The text that a value at a place in a list is. -/
def asText (place : Nat) : Value → Except Error String
  | text s => .ok s
  | issued _ => .ok issuedText
  | v => .error (.noText place v)

/-- The texts that the values of a list are, which starts at a place. -/
def texts (place : Nat) : List Value → Except Error (List String)
  | [] => .ok []
  | v :: vs => do
    let s ← v.asText place
    return s :: (← texts (place + 1) vs)

end Drafting.Value
