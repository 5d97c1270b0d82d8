import Drafting.Error

/-!
The order of document values: numbers by size, whichever kind they are, texts by the codes of
their characters, lists by the first items that differ. Values of different sorts have no order,
nor have nulls and objects, so that sorting can fail; a list of one value needs no order.
-/

namespace Drafting.Value

/-- How a floating-point number compares to a whole number; an undefined one does not. -/
def floatOrder? (x : Float) (n : Int) : Option Ordering :=
  match Binary.ofFloat? x with
  | some d =>
    let magnitude : Int := d.num
    some (compare (if d.negative then -magnitude else magnitude) (n * d.den))
  | none => if x.isNaN then none else some (if 0.0 < x then .gt else .lt)

/-- Whether a number is less than another. -/
def numberLess : Int ⊕ Float → Int ⊕ Float → Bool
  | .inl m, .inl n => decide (m < n)
  | .inl m, .inr y => floatOrder? y m == some .gt
  | .inr x, .inl n => floatOrder? x n == some .lt
  | .inr x, .inr y => decide (x < y)

mutual

/-- Whether a value comes before another. -/
def less : Value → Value → Except Error Bool
  | text s, text t => .ok (decide (s < t))
  | issued m, issued n => .ok (decide (m < n))
  | list xs, list ys => lessItems xs ys
  | v, w =>
    match v.number?, w.number? with
    | some a, some b => .ok (numberLess a b)
    | _, _ => .error (.noOrder v w)

def lessItems : List Value → List Value → Except Error Bool
  | _, [] => .ok false
  | [], _ :: _ => .ok true
  | x :: xs, y :: ys => if x == y then lessItems xs ys else less x y

end

/-- A rising list with one more value, after those that do not come after it. -/
def insertSorted (v : Value) : List Value → Except Error (List Value)
  | [] => .ok [v]
  | w :: ws => do
    if ← less v w then return v :: w :: ws
    return w :: (← insertSorted v ws)

/-- The values of a list in rising order. -/
def sorted (vs : List Value) : Except Error (List Value) :=
  vs.foldlM (fun ws v => insertSorted v ws) []

end Drafting.Value
