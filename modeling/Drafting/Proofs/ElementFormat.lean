import Drafting.Geometry.Saved
import Drafting.Proofs.Dangling

/-!
The format of saved elements. An element is saved as an object with the tag of its kind, an
identifier, and an entry for each argument of its shape: points, numbers, or a list of points. Which
values are points and numbers, and which objects describe which elements, is said here without
reading anything; reading accepts exactly these objects and gives exactly these elements.

What is wrong with an object can be listed, entry after entry in the order of the arguments, the
identifier last. Reading fails with the first error of this list. Only the tag is looked at before.
-/

namespace Drafting

/-! ## The format -/

/-- A value is a form of a point: an object with two coordinates or a list that starts with them,
each of which can be read as a number. -/
inductive IsPoint : Value → Point Float → Prop where
  | object {entries : List (String × Value)} {a b : Value} {x y : Float}
      (ha : entries.lookup "x" = some a) (hb : entries.lookup "y" = some b)
      (hx : a.toFloat = .ok x) (hy : b.toFloat = .ok y) : IsPoint (.object entries) ⟨x, y⟩
  | list {a b : Value} {rest : List Value} {x y : Float}
      (hx : a.toFloat = .ok x) (hy : b.toFloat = .ok y) : IsPoint (.list (a :: b :: rest)) ⟨x, y⟩

/-- A value, if there is one, is a form of a list of points. No value, the empty object and the
empty text are forms of no points. -/
inductive IsPoints : Option Value → List (Point Float) → Prop where
  | absent : IsPoints none []
  | emptyObject : IsPoints (some (.object [])) []
  | emptyText : IsPoints (some (.text "")) []
  | list {vs : List Value} {ps : List (Point Float)} (h : List.Forall₂ IsPoint vs ps) :
      IsPoints (some (.list vs)) ps

/-- What an entry of a saved element holds. -/
inductive FieldSort where
  | point
  | number
  | points

/-- The entries of a saved element of a kind, in the order of the arguments of its shape. -/
def ElementKind.format : ElementKind → List (String × FieldSort)
  | line | rectangle => [("start", .point), ("end", .point)]
  | hline | vline => [("start", .point), ("length", .number)]
  | circle => [("center", .point), ("radius", .number)]
  | arc =>
    [("center", .point), ("radius", .number), ("start_angle", .number), ("end_angle", .number)]
  | spline => [("points", .points)]

/-- What an entry may hold, if it is there. Only a list of points may be absent. -/
def FieldSort.Accepts : FieldSort → Option Value → Prop
  | point, entry => ∃ v p, entry = some v ∧ IsPoint v p
  | number, entry => ∃ v x, entry = some v ∧ v.toFloat = .ok x
  | points, entry => ∃ ps, IsPoints entry ps

section Describes

variable (entries : List (String × Value))

/-- An entry holds a point. -/
def PointIn (key : String) (p : Point Float) : Prop :=
  ∃ v, entries.lookup key = some v ∧ IsPoint v p

/-- An entry holds a number. -/
def NumberIn (key : String) (x : Float) : Prop :=
  ∃ v, entries.lookup key = some v ∧ v.toFloat = .ok x

/-- The shape of a kind that the entries of an object describe. -/
inductive DescribesShape : ElementKind → Shape Float → Prop where
  | line {p q : Point Float} (hp : PointIn entries "start" p) (hq : PointIn entries "end" q) :
      DescribesShape .line (.line p q)
  | hline {p : Point Float} {x : Float} (hp : PointIn entries "start" p)
      (hx : NumberIn entries "length" x) : DescribesShape .hline (.hline p x)
  | vline {p : Point Float} {x : Float} (hp : PointIn entries "start" p)
      (hx : NumberIn entries "length" x) : DescribesShape .vline (.vline p x)
  | rectangle {p q : Point Float} (hp : PointIn entries "start" p) (hq : PointIn entries "end" q) :
      DescribesShape .rectangle (.rectangle p q)
  | circle {p : Point Float} {x : Float} (hp : PointIn entries "center" p)
      (hx : NumberIn entries "radius" x) : DescribesShape .circle (.circle p x)
  | arc {p : Point Float} {x a b : Float} (hp : PointIn entries "center" p)
      (hx : NumberIn entries "radius" x) (ha : NumberIn entries "start_angle" a)
      (hb : NumberIn entries "end_angle" b) : DescribesShape .arc (.arc p x a b)
  | spline {ps : List (Point Float)} (hps : IsPoints (entries.lookup "points") ps) :
      DescribesShape .spline (.spline ps)

/-- The element of a kind that the entries of an object describe. Further entries do not matter. -/
structure Describes (kind : ElementKind) (e : Element Float) : Prop where
  shape : DescribesShape entries kind e.shape
  id : entries.lookup "id" = some e.id

end Describes

/-! ## What is wrong -/

/-- What is wrong with a value as a number. -/
def Value.numberFaults (v : Value) : List Error :=
  match v.toFloat with
  | .error err => [err]
  | .ok _ => []

section Entries

variable (entries : List (String × Value)) (key : String)

/-- What is wrong if an entry is not there. -/
def absence : List Error :=
  match entries.lookup key with
  | some _ => []
  | none => [.missingEntry key]

/-- What is wrong with the value of an entry, if it is there. -/
def faultsIn (faults : Value → List Error) : List Error :=
  match entries.lookup key with
  | some v => faults v
  | none => []

end Entries

/-- What is wrong with a value as a point. Coordinates that are not there come before those that are
no numbers. -/
def Value.pointFaults : Value → List Error
  | object entries =>
    absence entries "x" ++ (absence entries "y" ++
      (faultsIn entries "x" numberFaults ++ faultsIn entries "y" numberFaults))
  | list (a :: b :: _) => a.numberFaults ++ b.numberFaults
  | list _ => [.tooShort]
  | _ => [.wrongKind]

/-- What is wrong with a value as a list of points. -/
def Value.pointsFaults : Value → List Error
  | list vs => vs.flatMap pointFaults
  | object [] => []
  | text s => if s = "" then [] else [.wrongKind]
  | _ => [.wrongKind]

/-- What is wrong with an entry of a saved element. -/
def FieldSort.faults (entries : List (String × Value)) (key : String) : FieldSort → List Error
  | point => absence entries key ++ faultsIn entries key Value.pointFaults
  | number => absence entries key ++ faultsIn entries key Value.numberFaults
  | points => faultsIn entries key Value.pointsFaults

/-- All that is wrong with a saved element of a kind: entry after entry, and last its identifier. -/
def ElementKind.faults (kind : ElementKind) (entries : List (String × Value)) : List Error :=
  kind.format.flatMap (fun field => field.2.faults entries field.1) ++ absence entries "id"

/-! ## Reading fails with the first fault -/

theorem toFloat_failsFirst (v : Value) : FailsFirst v.toFloat v.numberFaults := by
  unfold Value.numberFaults
  cases v.toFloat with
  | ok x => exact .of_isOk ⟨x, rfl⟩
  | error err => exact .error err

section Entries

variable {entries : List (String × Value)} {key : String}

theorem entry_eq_ok {v : Value} :
    (Value.object entries).entry key = .ok v ↔ entries.lookup key = some v := by
  unfold Value.entry
  dsimp only
  cases entries.lookup key <;> simp

/-- An entry that is read in some way must be there first. -/
theorem entry_failsFirst {β : Type} {read : Value → Except Error β} {faults : List Error}
    (h : ∀ v, entries.lookup key = some v → FailsFirst (read v) faults) :
    FailsFirst ((Value.object entries).entry key >>= read) (absence entries key ++ faults) := by
  unfold absence Value.entry
  dsimp only
  cases hv : entries.lookup key with
  | none => exact .bind (.error _) nofun
  | some v => exact .bind (.of_isOk ⟨v, rfl⟩) fun _ hw => Except.ok.inj hw ▸ h v hv

theorem faultsIn_of_lookup {v : Value} (h : entries.lookup key = some v)
    (faults : Value → List Error) : faultsIn entries key faults = faults v := by
  rw [faultsIn, h]

theorem pointOfSaved_failsFirst (v : Value) :
    FailsFirst (Point.ofSaved v : Except Error (Point Float)) v.pointFaults := by
  have hread : ∀ a b : Value, FailsFirst (Point.read a b : Except Error (Point Float))
      (a.numberFaults ++ b.numberFaults) := by
    intro a b
    rw [← List.append_nil b.numberFaults]
    exact .bind (toFloat_failsFirst a) fun _ _ =>
      .bind (toFloat_failsFirst b) fun _ _ => .of_isOk ⟨_, rfl⟩
  unfold Point.ofSaved
  split
  · exact hread _ _
  · rename_i vs hshort
    match vs, hshort with
    | [], _ => exact .error _
    | [_], _ => exact .error _
    | a :: b :: rest, hshort => exact absurd rfl (hshort a b rest)
  · rename_i _ hlist
    match v with
    | .object entries =>
      -- both coordinates must be there before either is read
      refine entry_failsFirst fun a ha => entry_failsFirst fun b hb => ?_
      rw [faultsIn_of_lookup ha, faultsIn_of_lookup hb]
      exact hread a b
    | .list vs => exact absurd rfl (hlist vs)
    | .null | .bool _ | .int _ | .float _ | .text _ | .issued _ => exact .error _

theorem pointEntry_failsFirst : FailsFirst
    (pointEntry (.object entries) key : Except Error (Point Float))
    (FieldSort.point.faults entries key) :=
  entry_failsFirst fun v hv => by
    rw [faultsIn_of_lookup hv]
    exact pointOfSaved_failsFirst v

theorem numberEntry_failsFirst : FailsFirst (numberEntry (.object entries) key : Except Error Float)
    (FieldSort.number.faults entries key) :=
  entry_failsFirst fun v hv => by
    rw [faultsIn_of_lookup hv]
    exact toFloat_failsFirst v

/-- The points that are read from a list of values. -/
def readPoints (vs : List Value) : Except Error (List (Point Float)) := vs.mapM Point.ofSaved

/-- Texts are no points. -/
theorem readPoints_text_failsFirst {β : Type} (f : β → String) {bs : List β} (h : bs ≠ []) :
    FailsFirst (readPoints (bs.map fun b => .text (f b))) [.wrongKind] := by
  obtain ⟨b, rest, rfl⟩ := List.exists_cons_of_ne_nil h
  rw [List.map_cons, readPoints, List.mapM_cons]
  exact .bind (.error _) nofun

theorem parts_failsFirst (v : Value) : FailsFirst (v.parts >>= readPoints) v.pointsFaults := by
  -- an object runs through its keys and a text through its characters: texts, if there are any
  cases v with
  | list vs => exact .mapM fun v _ => pointOfSaved_failsFirst v
  | object entries =>
    cases entries with
    | nil => exact .of_isOk ⟨[], rfl⟩
    | cons e es => exact readPoints_text_failsFirst (·.1) (List.cons_ne_nil e es)
  | text s =>
    rw [Value.pointsFaults]
    split
    · rename_i hs
      subst hs
      exact .of_isOk ⟨[], rfl⟩
    · rename_i hs
      exact readPoints_text_failsFirst Char.toString (by simpa using hs)
  | issued n => exact readPoints_text_failsFirst Char.toString (by decide)
  | null | bool | int | float => exact .error _

theorem pointsEntry_failsFirst : FailsFirst
    ((Value.object entries).entryD key (.list []) >>= fun v => v.parts >>= readPoints)
    (FieldSort.points.faults entries key) := by
  change FailsFirst (((entries.lookup key).getD (.list [])).parts >>= readPoints)
    (faultsIn entries key Value.pointsFaults)
  unfold faultsIn
  cases entries.lookup key with
  | none => exact .of_isOk ⟨[], rfl⟩
  | some v => exact parts_failsFirst v

/-- A shape is read unless something is wrong with one of its entries. -/
theorem shapeOfSaved_failsFirst (kind : ElementKind) : FailsFirst
    (Shape.ofSaved kind (.object entries) : Except Error (Shape Float))
    (kind.format.flatMap fun field => field.2.faults entries field.1) := by
  cases kind with
  | line | rectangle =>
    exact .bind pointEntry_failsFirst fun _ _ => .bind pointEntry_failsFirst fun _ _ =>
      .of_isOk ⟨_, rfl⟩
  | hline | vline | circle =>
    exact .bind pointEntry_failsFirst fun _ _ => .bind numberEntry_failsFirst fun _ _ =>
      .of_isOk ⟨_, rfl⟩
  | arc =>
    exact .bind pointEntry_failsFirst fun _ _ => .bind numberEntry_failsFirst fun _ _ =>
      .bind numberEntry_failsFirst fun _ _ => .bind numberEntry_failsFirst fun _ _ =>
        .of_isOk ⟨_, rfl⟩
  | spline =>
    have hread := (@pointsEntry_failsFirst entries "points").bind
      fun ps _ => .of_isOk ⟨Shape.spline ps, rfl⟩
    simp only [bind_assoc] at hread
    exact hread

end Entries

/-! ## Reading gives what is described -/

theorem pointOfSaved_eq_ok {v : Value} {p : Point Float} :
    Point.ofSaved v = .ok p ↔ IsPoint v p := by
  constructor
  · intro h
    unfold Point.ofSaved at h
    split at h
    · obtain ⟨x, hx, h⟩ := bind_eq_ok.mp h
      obtain ⟨y, hy, h⟩ := bind_eq_ok.mp h
      cases h
      exact .list hx hy
    · cases h
    · rename_i _ hlist
      match v with
      | .object entries =>
        obtain ⟨a, ha, h⟩ := bind_eq_ok.mp h
        obtain ⟨b, hb, h⟩ := bind_eq_ok.mp h
        obtain ⟨x, hx, h⟩ := bind_eq_ok.mp h
        obtain ⟨y, hy, h⟩ := bind_eq_ok.mp h
        cases h
        exact .object (entry_eq_ok.mp ha) (entry_eq_ok.mp hb) hx hy
      | .list vs => exact absurd rfl (hlist vs)
      | .null | .bool _ | .int _ | .float _ | .text _ | .issued _ => cases h
  · rintro (⟨ha, hb, hx, hy⟩ | ⟨hx, hy⟩)
    · exact bind_eq_ok.mpr ⟨_, entry_eq_ok.mpr ha, bind_eq_ok.mpr ⟨_, entry_eq_ok.mpr hb,
        bind_eq_ok.mpr ⟨_, hx, bind_eq_ok.mpr ⟨_, hy, rfl⟩⟩⟩⟩
    · exact bind_eq_ok.mpr ⟨_, hx, bind_eq_ok.mpr ⟨_, hy, rfl⟩⟩

theorem readPoints_eq_ok {vs : List Value} {ps : List (Point Float)} :
    readPoints vs = .ok ps ↔ List.Forall₂ IsPoint vs ps := by
  rw [readPoints, mapM_eq_ok]
  simp only [pointOfSaved_eq_ok]

theorem parts_eq_ok {v : Value} {ps : List (Point Float)} :
    (v.parts >>= readPoints) = .ok ps ↔ IsPoints (some v) ps := by
  constructor
  · intro h
    have hfaults := (parts_failsFirst v).isOk_iff.mp ⟨ps, h⟩
    cases v with
    | list vs => exact .list (readPoints_eq_ok.mp h)
    | object entries =>
      cases entries with
      | nil =>
        cases h
        exact .emptyObject
      | cons e es => cases hfaults
    | text s =>
      have hs : s = "" := by
        by_contra hs
        rw [Value.pointsFaults, if_neg hs] at hfaults
        cases hfaults
      subst hs
      cases h
      exact .emptyText
    | null | bool | int | float | issued => cases hfaults
  · intro h
    cases h with
    | emptyObject | emptyText => rfl
    | list h => exact readPoints_eq_ok.mpr h

section Entries

variable {entries : List (String × Value)} {key : String}

theorem pointEntry_eq_ok {p : Point Float} :
    pointEntry (.object entries) key = .ok p ↔ PointIn entries key p := by
  rw [pointEntry, bind_eq_ok]
  simp only [entry_eq_ok, pointOfSaved_eq_ok, PointIn]

theorem numberEntry_eq_ok {x : Float} :
    numberEntry (.object entries) key = .ok x ↔ NumberIn entries key x := by
  rw [numberEntry, bind_eq_ok]
  simp only [entry_eq_ok, NumberIn]
  rfl

theorem pointsEntry_eq_ok {ps : List (Point Float)} :
    ((Value.object entries).entryD key (.list []) >>= fun v => v.parts >>= readPoints) = .ok ps ↔
      IsPoints (entries.lookup key) ps := by
  change (((entries.lookup key).getD (.list [])).parts >>= readPoints) = .ok ps ↔ _
  cases entries.lookup key with
  | none =>
    constructor
    · intro h
      cases h
      exact .absent
    · intro h
      cases h
      rfl
  | some v => exact parts_eq_ok

/-- A shape is read from the entries exactly if they describe it. -/
theorem shapeOfSaved_eq_ok {kind : ElementKind} {shape : Shape Float} :
    Shape.ofSaved kind (.object entries) = .ok shape ↔ DescribesShape entries kind shape := by
  constructor
  · intro h
    cases kind with
    | line | rectangle =>
      obtain ⟨p, hp, h⟩ := bind_eq_ok.mp h
      obtain ⟨q, hq, h⟩ := bind_eq_ok.mp h
      cases h
      constructor
      · exact pointEntry_eq_ok.mp hp
      · exact pointEntry_eq_ok.mp hq
    | hline | vline | circle =>
      obtain ⟨p, hp, h⟩ := bind_eq_ok.mp h
      obtain ⟨x, hx, h⟩ := bind_eq_ok.mp h
      cases h
      constructor
      · exact pointEntry_eq_ok.mp hp
      · exact numberEntry_eq_ok.mp hx
    | arc =>
      obtain ⟨p, hp, h⟩ := bind_eq_ok.mp h
      obtain ⟨x, hx, h⟩ := bind_eq_ok.mp h
      obtain ⟨a, ha, h⟩ := bind_eq_ok.mp h
      obtain ⟨b, hb, h⟩ := bind_eq_ok.mp h
      cases h
      exact .arc (pointEntry_eq_ok.mp hp) (numberEntry_eq_ok.mp hx) (numberEntry_eq_ok.mp ha)
        (numberEntry_eq_ok.mp hb)
    | spline =>
      obtain ⟨v, hv, h⟩ := bind_eq_ok.mp h
      obtain ⟨vs, hvs, h⟩ := bind_eq_ok.mp h
      obtain ⟨ps, hps, h⟩ := bind_eq_ok.mp h
      cases h
      exact .spline (pointsEntry_eq_ok.mp
        (bind_eq_ok.mpr ⟨v, hv, bind_eq_ok.mpr ⟨vs, hvs, hps⟩⟩))
  · intro h
    cases h with
    | line hp hq | rectangle hp hq =>
      exact bind_eq_ok.mpr ⟨_, pointEntry_eq_ok.mpr hp, bind_eq_ok.mpr
        ⟨_, pointEntry_eq_ok.mpr hq, rfl⟩⟩
    | hline hp hx | vline hp hx | circle hp hx =>
      exact bind_eq_ok.mpr ⟨_, pointEntry_eq_ok.mpr hp, bind_eq_ok.mpr
        ⟨_, numberEntry_eq_ok.mpr hx, rfl⟩⟩
    | arc hp hx ha hb =>
      exact bind_eq_ok.mpr ⟨_, pointEntry_eq_ok.mpr hp, bind_eq_ok.mpr
        ⟨_, numberEntry_eq_ok.mpr hx, bind_eq_ok.mpr ⟨_, numberEntry_eq_ok.mpr ha,
          bind_eq_ok.mpr ⟨_, numberEntry_eq_ok.mpr hb, rfl⟩⟩⟩⟩
    | spline hps =>
      obtain ⟨v, hv, h⟩ := bind_eq_ok.mp (pointsEntry_eq_ok.mpr hps)
      obtain ⟨vs, hvs, hps⟩ := bind_eq_ok.mp h
      exact bind_eq_ok.mpr ⟨v, hv, bind_eq_ok.mpr ⟨vs, hvs, bind_eq_ok.mpr ⟨_, hps, rfl⟩⟩⟩

/-! ## The tag -/

theorem ElementKind.ofTag?_eq_some {s : String} {kind : ElementKind} :
    ofTag? s = some kind ↔ s = kind.tag := by
  constructor
  · intro h
    have htag := List.find?_some h
    exact (eq_of_beq htag).symm
  · rintro rfl
    exact ofTag?_tag kind

theorem kindOfSaved_eq_ok {kind : ElementKind} :
    ElementKind.ofSaved (.object entries) = .ok kind ↔
      entries.lookup "type" = some (.text kind.tag) := by
  constructor
  · intro h
    obtain ⟨type, htype, h⟩ := bind_eq_ok.mp h
    have htype : (entries.lookup "type").getD .null = type := Except.ok.inj htype
    split at h
    · rename_i s
      split at h
      · rename_i found hfound
        cases h
        rw [ElementKind.ofTag?_eq_some] at hfound
        cases hlookup : entries.lookup "type" with
        | none =>
          rw [hlookup] at htype
          cases htype
        | some v =>
          rw [hlookup] at htype
          rw [← hfound]
          exact congrArg some htype
      · cases h
    · cases h
  · intro h
    have htype : (Value.object entries).entryD "type" .null = .ok (.text kind.tag) := by
      rw [Value.entryD, h, Option.getD_some]
    refine bind_eq_ok.mpr ⟨_, htype, ?_⟩
    dsimp only
    rw [ElementKind.ofTag?_tag]

/-- A type that is no tag is refused, whatever else there is. -/
theorem kindOfSaved_eq_error {err : Error} :
    ElementKind.ofSaved (.object entries) = .error err ↔
      err = .unknownElement ((entries.lookup "type").getD .null) ∧
        ∀ kind : ElementKind, entries.lookup "type" ≠ some (.text kind.tag) := by
  have hrefused : ∀ e, ElementKind.ofSaved (.object entries) = .error e →
      e = .unknownElement ((entries.lookup "type").getD .null) := by
    intro e h
    rcases bind_eq_error.mp h with h | ⟨type, htype, h⟩
    · cases h
    · obtain rfl : (entries.lookup "type").getD .null = type := Except.ok.inj htype
      split at h
      · split at h
        · cases h
        · exact (Except.error.inj h).symm
      · exact (Except.error.inj h).symm
  constructor
  · intro h
    refine ⟨hrefused err h, fun kind htag => ?_⟩
    rw [kindOfSaved_eq_ok.mpr htag] at h
    cases h
  · rintro ⟨rfl, hnone⟩
    cases h : ElementKind.ofSaved (.object entries) with
    | ok kind => exact absurd (kindOfSaved_eq_ok.mp h) (hnone kind)
    | error e => rw [hrefused e h]

/-! ## Whole elements -/

/-- With a known tag the entries of the shape are read, and then the identifier. -/
theorem elementOfSaved_eq {kind : ElementKind}
    (h : entries.lookup "type" = some (.text kind.tag)) :
    (Element.ofSaved (.object entries) : Except Error (Element Float)) = (do
      let shape ← Shape.ofSaved kind (.object entries)
      let id ← (Value.object entries).entry "id"
      return ⟨id, shape⟩) := by
  rw [Element.ofSaved, kindOfSaved_eq_ok.mpr h]
  rfl

/-- With a known tag an element is read unless something is wrong with its entries. -/
theorem elementOfSaved_failsFirst {kind : ElementKind}
    (h : entries.lookup "type" = some (.text kind.tag)) :
    FailsFirst (Element.ofSaved (.object entries) : Except Error (Element Float))
      (kind.faults entries) := by
  rw [elementOfSaved_eq h]
  refine .bind (shapeOfSaved_failsFirst kind) fun shape _ => ?_
  rw [← List.append_nil (absence entries "id")]
  exact entry_failsFirst fun id _ => .of_isOk ⟨_, rfl⟩

theorem elementOfSaved_eq_ok {kind : ElementKind}
    (h : entries.lookup "type" = some (.text kind.tag)) {e : Element Float} :
    Element.ofSaved (.object entries) = .ok e ↔ Describes entries kind e := by
  rw [elementOfSaved_eq h]
  constructor
  · intro h
    obtain ⟨shape, hshape, h⟩ := bind_eq_ok.mp h
    obtain ⟨id, hid, h⟩ := bind_eq_ok.mp h
    cases h
    exact ⟨shapeOfSaved_eq_ok.mp hshape, entry_eq_ok.mp hid⟩
  · rintro ⟨hshape, hid⟩
    exact bind_eq_ok.mpr ⟨e.shape, shapeOfSaved_eq_ok.mpr hshape,
      bind_eq_ok.mpr ⟨e.id, entry_eq_ok.mpr hid, rfl⟩⟩

theorem accepts_point_iff :
    FieldSort.point.Accepts (entries.lookup key) ↔ ∃ p, PointIn entries key p := exists_comm

theorem accepts_number_iff :
    FieldSort.number.Accepts (entries.lookup key) ↔ ∃ x, NumberIn entries key x := exists_comm

/-- The entries of an object describe a shape exactly if they are there as the format says. -/
theorem exists_describesShape_iff {kind : ElementKind} :
    (∃ shape, DescribesShape entries kind shape) ↔
      ∀ field ∈ kind.format, field.2.Accepts (entries.lookup field.1) := by
  constructor
  · rintro ⟨shape, hshape⟩
    cases hshape <;>
      simp only [ElementKind.format, List.forall_mem_cons, accepts_point_iff, accepts_number_iff]
    case line hp hq | rectangle hp hq | hline hp hq | vline hp hq | circle hp hq =>
      exact ⟨⟨_, hp⟩, ⟨_, hq⟩, nofun⟩
    case arc hp hx ha hb => exact ⟨⟨_, hp⟩, ⟨_, hx⟩, ⟨_, ha⟩, ⟨_, hb⟩, nofun⟩
    case spline hps => exact ⟨⟨_, hps⟩, nofun⟩
  · intro h
    cases kind <;>
      simp only [ElementKind.format, List.forall_mem_cons, accepts_point_iff,
        accepts_number_iff] at h
    case line | rectangle | hline | vline | circle =>
      obtain ⟨⟨p, hp⟩, ⟨q, hq⟩, -⟩ := h
      constructor
      constructor
      · exact hp
      · exact hq
    case arc =>
      obtain ⟨⟨p, hp⟩, ⟨x, hx⟩, ⟨a, ha⟩, ⟨b, hb⟩, -⟩ := h
      exact ⟨_, .arc hp hx ha hb⟩
    case spline =>
      obtain ⟨⟨ps, hps⟩, -⟩ := h
      exact ⟨_, .spline hps⟩

/-- An object describes an element of a kind exactly if its entries are there as the format says,
and so is the identifier. -/
theorem exists_describes_iff {kind : ElementKind} : (∃ e, Describes entries kind e) ↔
    (∀ field ∈ kind.format, field.2.Accepts (entries.lookup field.1)) ∧
      ∃ id, entries.lookup "id" = some id := by
  rw [← exists_describesShape_iff]
  constructor
  · rintro ⟨e, hshape, hid⟩
    exact ⟨⟨e.shape, hshape⟩, e.id, hid⟩
  · rintro ⟨⟨shape, hshape⟩, id, hid⟩
    exact ⟨⟨id, shape⟩, hshape, hid⟩

end Entries

/-! ## No fault is about the type -/

/-- An error is about something else than the type of an element. -/
def Error.SparesType (err : Error) : Prop := ∀ type, err ≠ .unknownElement type

theorem sparesType_of_mem_numberFaults {v : Value} {err : Error} (h : err ∈ v.numberFaults) :
    err.SparesType := by
  unfold Value.numberFaults at h
  split at h
  · rename_i found hfound
    obtain rfl := List.mem_singleton.mp h
    rintro type rfl
    unfold Value.toFloat at hfound
    grind
  · cases h

section Entries

variable {entries : List (String × Value)} {key : String} {err : Error}

theorem sparesType_of_mem_absence (h : err ∈ absence entries key) : err.SparesType := by
  unfold absence at h
  split at h
  · cases h
  · obtain rfl := List.mem_singleton.mp h
    exact nofun

theorem sparesType_of_mem_faultsIn {faults : Value → List Error}
    (hfaults : ∀ v, ∀ e ∈ faults v, e.SparesType) (h : err ∈ faultsIn entries key faults) :
    err.SparesType := by
  unfold faultsIn at h
  split at h
  · exact hfaults _ err h
  · cases h

theorem sparesType_of_mem_pointFaults {v : Value} (h : err ∈ v.pointFaults) : err.SparesType := by
  have hnumber : ∀ v, ∀ e ∈ Value.numberFaults v, e.SparesType :=
    fun _ _ => sparesType_of_mem_numberFaults
  unfold Value.pointFaults at h
  split at h
  · simp only [List.mem_append] at h
    rcases h with h | h | h | h
    · exact sparesType_of_mem_absence h
    · exact sparesType_of_mem_absence h
    · exact sparesType_of_mem_faultsIn hnumber h
    · exact sparesType_of_mem_faultsIn hnumber h
  · exact (List.mem_append.mp h).elim (hnumber _ err) (hnumber _ err)
  all_goals
    obtain rfl := List.mem_singleton.mp h
    exact nofun

theorem sparesType_of_mem_pointsFaults {v : Value} (h : err ∈ v.pointsFaults) :
    err.SparesType := by
  unfold Value.pointsFaults at h
  split at h
  · obtain ⟨w, -, hw⟩ := List.mem_flatMap.mp h
    exact sparesType_of_mem_pointFaults hw
  · cases h
  · split at h
    · cases h
    · obtain rfl := List.mem_singleton.mp h
      exact nofun
  · obtain rfl := List.mem_singleton.mp h
    exact nofun

theorem sparesType_of_mem_faults {kind : ElementKind} (h : err ∈ kind.faults entries) :
    err.SparesType := by
  rcases List.mem_append.mp h with h | h
  · obtain ⟨⟨key, sort⟩, -, h⟩ := List.mem_flatMap.mp h
    cases sort with
    | point =>
      exact (List.mem_append.mp h).elim sparesType_of_mem_absence
        (sparesType_of_mem_faultsIn fun _ _ => sparesType_of_mem_pointFaults)
    | number =>
      exact (List.mem_append.mp h).elim sparesType_of_mem_absence
        (sparesType_of_mem_faultsIn fun _ _ => sparesType_of_mem_numberFaults)
    | points => exact sparesType_of_mem_faultsIn (fun _ _ => sparesType_of_mem_pointsFaults) h
  · exact sparesType_of_mem_absence h

end Entries

/-- **Exactly the saved elements are read.** An object whose type is none of the seven tags is
refused with its type, whatever its other entries are; nothing else is refused so. With a known tag
an element is read exactly if the object describes it, that is, if every entry that the kind
requires is there with a value of its sort, and an identifier. Otherwise the error is the first one
of what is wrong with the entries, in the order of the arguments of the shape and with the
identifier last. -/
theorem reads_exactly_the_format (entries : List (String × Value)) :
    (∀ type, (Element.ofSaved (.object entries) : Except Error (Element Float)) =
        .error (.unknownElement type) ↔
      type = (entries.lookup "type").getD .null ∧
        ∀ kind : ElementKind, entries.lookup "type" ≠ some (.text kind.tag)) ∧
    ∀ kind : ElementKind, entries.lookup "type" = some (.text kind.tag) →
      (∀ e : Element Float, Element.ofSaved (.object entries) = .ok e ↔
        Describes entries kind e) ∧
      ((∃ e : Element Float, Element.ofSaved (.object entries) = .ok e) ↔
        (∀ field ∈ kind.format, field.2.Accepts (entries.lookup field.1)) ∧
          ∃ id, entries.lookup "id" = some id) ∧
      ∀ err, (Element.ofSaved (.object entries) : Except Error (Element Float)) = .error err ↔
        (kind.faults entries).head? = some err := by
  refine ⟨fun type => ⟨fun h => ?_, ?_⟩, fun kind htag => ?_⟩
  · by_cases hknown : ∃ kind : ElementKind, entries.lookup "type" = some (.text kind.tag)
    · -- behind a known tag every error is about an entry
      obtain ⟨kind, htag⟩ := hknown
      have hfirst := (elementOfSaved_failsFirst htag _).mp h
      exact absurd rfl (sparesType_of_mem_faults (List.mem_of_head? hfirst) type)
    · have hnone : ∀ kind : ElementKind, entries.lookup "type" ≠ some (.text kind.tag) :=
        fun kind htag => hknown ⟨kind, htag⟩
      have hkind := kindOfSaved_eq_error.mpr ⟨rfl, hnone⟩
      rw [Element.ofSaved, hkind] at h
      cases h
      exact ⟨rfl, hnone⟩
  · rintro ⟨rfl, hnone⟩
    rw [Element.ofSaved, kindOfSaved_eq_error.mpr ⟨rfl, hnone⟩]
    rfl
  · refine ⟨fun e => elementOfSaved_eq_ok htag, ?_, elementOfSaved_failsFirst htag⟩
    rw [← exists_describes_iff]
    exact exists_congr fun e => elementOfSaved_eq_ok htag

/-- A circle saved by hand: its center is a list with a third coordinate, its numbers are a text and
a truth value, it has no name, and a color that nothing reads. -/
def handmadeCircle : List (String × Value) :=
  [("color", .text "red"), ("type", .text "circle"), ("radius", .bool true), ("id", .null),
    ("center", .list [.float 2.5, .text " 1_0 ", .text "far"])]

/-- An arc whose center is half there and spelled wrong, and whose radius is no number. -/
def scribbledArc : List (String × Value) :=
  [("type", .text "arc"), ("radius", .list []), ("center", .object [("x", .text "far")])]

theorem reads_exactly_the_format_handmade :
    Element.ofSaved (.object handmadeCircle) = .ok ⟨.null, .circle ⟨2.5, 10.0⟩ 1.0⟩ ∧
    (Element.ofSaved (.object scribbledArc) : Except Error (Element Float)) =
      .error (.missingEntry "y") ∧
    (Element.ofSaved (.object [("type", .list [])]) : Except Error (Element Float)) =
      .error (.unknownElement (.list [])) := by
  refine ⟨?_, ?_, ?_⟩
  · have hread : Decimal.read? " 1_0 " = some 10.0 := by decide +kernel
    have hten : (Value.text " 1_0 ").toFloat = .ok 10.0 := by rw [Value.toFloat, hread]
    obtain ⟨hok, -, -⟩ := (reads_exactly_the_format handmadeCircle).2 .circle rfl
    exact (hok _).mpr ⟨.circle ⟨_, rfl, .list rfl hten⟩ ⟨_, rfl, rfl⟩, rfl⟩
  · obtain ⟨-, -, herror⟩ := (reads_exactly_the_format scribbledArc).2 .arc rfl
    exact (herror _).mpr rfl
  · exact ((reads_exactly_the_format [("type", .list [])]).1 _).mpr ⟨rfl, fun kind => nofun⟩

end Drafting
