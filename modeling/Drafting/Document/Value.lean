import Drafting.Decimal.Shortest
import Drafting.Text.Quoted

/-!
Document values: what a saved drawing is made of. Whole numbers and floating-point numbers are
different leaves, an object keeps the order of its entries, and an identifier issued by the
library is a leaf of its own, different from every text.
-/

namespace Drafting

/-- A value of a document. -/
inductive Value where
  | null
  | bool (b : Bool)
  | int (n : Int)
  | float (x : Float)
  | text (s : String)
  /-- The identifier that the library issued as number `n`. -/
  | issued (n : Nat)
  | list (items : List Value)
  | object (entries : List (String × Value))
  deriving Inhabited

namespace Value

/-- Whether a value counts as true where a flag is expected: everything does but null, false,
zero and the empty text, list and object. -/
def truthy : Value → Bool
  | null => false
  | bool b => b
  | int n => n != 0
  | float x => x != 0.0
  | text s => s != ""
  | issued _ => true
  | list items => !items.isEmpty
  | object entries => !entries.isEmpty

/-- The text that stands for every issued identifier. -/
def issuedText : String := "@gen"

mutual

/-- A value as it stands inside another value's text: texts are quoted. -/
def shown : Value → String
  | null => "None"
  | bool b => if b then "True" else "False"
  | int n => toString n
  | float x => Decimal.shortest x
  | text s => Text.quoted s
  | issued _ => Text.quoted issuedText
  | list items => "[" ++ ", ".intercalate (shownItems items) ++ "]"
  | object entries => "\x7b" ++ ", ".intercalate (shownEntries entries) ++ "\x7d"

def shownItems : List Value → List String
  | [] => []
  | v :: vs => v.shown :: shownItems vs

def shownEntries : List (String × Value) → List String
  | [] => []
  | (k, v) :: es => (Text.quoted k ++ ": " ++ v.shown) :: shownEntries es

end

/-- A value inside running text: a text stands for itself. -/
def plain : Value → String
  | text s => s
  | issued _ => issuedText
  | v => v.shown

/-- The name of a value where a message says who referred to something: empty, and then left out,
if the value does not count as true. -/
def mention (v : Value) : String := if v.truthy then v.plain else ""

/-- A number, if the value is one. Truth values count as one and zero. -/
def number? : Value → Option (Int ⊕ Float)
  | bool b => some (.inl (if b then 1 else 0))
  | int n => some (.inl n)
  | float x => some (.inr x)
  | _ => none

/-- Whether a floating-point number is exactly the whole number `n`. -/
def floatIsInt (x : Float) (n : Int) : Bool :=
  match Binary.ofFloat? x with
  | some d =>
    let magnitude : Int := d.num
    (if d.negative then -magnitude else magnitude) == n * d.den
  | none => false

/-- Equality of numbers of either kind. An undefined number equals nothing, unless `reflexive`. -/
def sameNumber (reflexive : Bool) : Int ⊕ Float → Int ⊕ Float → Bool
  | .inl m, .inl n => m == n
  | .inl m, .inr y => floatIsInt y m
  | .inr x, .inl n => floatIsInt x n
  | .inr x, .inr y => x == y || (reflexive && x.isNaN && y.isNaN)

mutual

/-- Equality of values: numbers by what they denote, objects whatever the order of their entries.
With `reflexive` an undefined number counts as equal to itself. -/
def same (reflexive : Bool) : Value → Value → Bool
  | null, null => true
  | text s, text t => s == t
  | issued m, issued n => m == n
  | list xs, list ys => sameItems reflexive xs ys
  | object xs, object ys => xs.length == ys.length && sameEntries reflexive xs ys
  | v, w =>
    match v.number?, w.number? with
    | some a, some b => sameNumber reflexive a b
    | _, _ => false

def sameItems (reflexive : Bool) : List Value → List Value → Bool
  | [], [] => true
  | x :: xs, y :: ys => same reflexive x y && sameItems reflexive xs ys
  | _, _ => false

def sameEntries (reflexive : Bool) : List (String × Value) → List (String × Value) → Bool
  | [], _ => true
  | (k, v) :: es, ys =>
    (match ys.lookup k with
      | some w => same reflexive v w
      | none => false) && sameEntries reflexive es ys

end

instance : BEq Value := ⟨same false⟩

@[simp] theorem text_beq_text (s t : String) : (text s == text t) = (s == t) := by
  simp [BEq.beq, same]

end Value

end Drafting
