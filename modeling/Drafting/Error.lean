import Drafting.Document.Value

/-!
What can go wrong, by cause. The wording of every cause is in `Error.message`.
-/

namespace Drafting

/-- What a missing reference was expected to name. -/
inductive Referent where
  | point
  | line
  | circle
  | element
  deriving DecidableEq, Repr

/-- The word for a referent in messages. -/
def Referent.word : Referent → String
  | point => "Point"
  | line => "Line"
  | circle => "Circle"
  | element => "Element"

/-- A cause of failure. -/
inductive Error where
  /-- A name of which there is no referent, and who used it (empty if nobody in particular). -/
  | dangling (what : Referent) (name : Value) (owner : String)
  /-- An element type that is none of the seven. -/
  | unknownElement (type : Value)
  /-- An entry that a document lacks. -/
  | missingEntry (key : String)
  /-- A constraint type that is none of the thirteen. -/
  | unknownConstraint (type : Value)
  /-- A text that spells no number. -/
  | notNumeric (s : String)
  /-- A whole number beyond the range of floating-point numbers. -/
  | tooLarge
  /-- The cosine or sine of an infinite angle. -/
  | infiniteAngle
  /-- A value of a kind that cannot be a number. -/
  | noNumber (v : Value)
  /-- A value under which nothing can be kept in a table. -/
  | noKey (v : Value)
  /-- Two values of which neither comes first. -/
  | noOrder (v w : Value)
  /-- A value that is no text, at a place in a list of texts. -/
  | noText (place : Nat) (v : Value)
  /-- A value of a kind that cannot stand here. -/
  | wrongKind
  /-- A list without the item that is asked for. -/
  | tooShort
  /-- A value without the attributes of an element or a document. -/
  | noAttributes

namespace Error

/-- The name of the kind of a value. -/
def kindName : Value → String
  | .null => "NoneType"
  | .bool _ => "bool"
  | .int _ => "int"
  | .float _ => "float"
  | .text _ => "str"
  | .issued _ => "str"
  | .list _ => "list"
  | .object _ => "dict"

/-- The wording of a cause. -/
def message : Error → String
  | dangling what name owner =>
    what.word ++ " not found: " ++ name.plain ++
      (if owner == "" then "" else " (referenced by " ++ owner ++ ")")
  | unknownElement type => "Unbekannter Element-Typ: " ++ type.shown
  | missingEntry key => Text.quoted key
  | unknownConstraint type => type.shown
  | notNumeric s => "could not convert string to float: " ++ Text.quoted s
  | tooLarge => "int too large to convert to float"
  | infiniteAngle => "math domain error"
  | noNumber v =>
    "float() argument must be a string or a real number, not '" ++ kindName v ++ "'"
  | noKey v => "unhashable type: '" ++ kindName v ++ "'"
  | noOrder v w =>
    "'<' not supported between instances of '" ++ kindName v ++ "' and '" ++ kindName w ++ "'"
  | noText place v =>
    "sequence item " ++ toString place ++ ": expected str instance, " ++ kindName v ++ " found"
  | wrongKind => "wrong kind of value"
  | tooShort => "list index out of range"
  | noAttributes => "no such attribute"

end Error

end Drafting
