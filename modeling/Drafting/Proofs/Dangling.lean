import Drafting.Proofs.Comparison
import Drafting.Proofs.FixedPoints

/-!
Names without referents. A constraint lacks something if it names a point, a line or a circle that
is not there, or if an end of the first line or the center of the first circle with a name is not
there. What a problem lacks can be listed, constraint after constraint, and within one the points
before the lines and these before the circles. Compiling a well-formed problem fails with the first
error of this list, and gives a system if the list is empty, whatever the kinds of its constraints
and whether or not their references fit a pattern.

The bookkeeping is done once, for computations that fail with the first of some errors: of two
computations in turn the errors of the first come first.
-/

namespace Drafting

/-! ## Failing with the first error -/

/-- A computation fails with the first of some errors, and succeeds if there are none. -/
def FailsFirst {β : Type} (x : Except Error β) (errors : List Error) : Prop :=
  ∀ e, x = .error e ↔ errors.head? = some e

namespace FailsFirst

variable {β γ : Type} {x : Except Error β} {errors errors' : List Error}

theorem of_isOk (h : ∃ b, x = .ok b) : FailsFirst x [] := by
  obtain ⟨b, rfl⟩ := h
  exact fun e => ⟨nofun, nofun⟩

theorem error (e : Error) : FailsFirst (.error e : Except Error β) [e] := fun _ =>
  ⟨fun h => congrArg some (Except.error.inj h), fun h => congrArg Except.error (Option.some.inj h)⟩

theorem isOk_iff (h : FailsFirst x errors) : (∃ b, x = .ok b) ↔ errors = [] := by
  cases x with
  | ok b =>
    refine iff_of_true ⟨b, rfl⟩ ?_
    cases errors with
    | nil => rfl
    | cons e rest => exact absurd ((h e).mpr rfl) nofun
  | error e =>
    refine iff_of_false nofun fun hnil => ?_
    have hfirst := (h e).mp rfl
    rw [hnil] at hfirst
    cases hfirst

/-- Of two computations in turn the errors of the first come first. -/
theorem bind {f : β → Except Error γ} (hx : FailsFirst x errors)
    (hf : ∀ b, x = .ok b → FailsFirst (f b) errors') :
    FailsFirst (x >>= f) (errors ++ errors') := by
  cases x with
  | ok b =>
    rw [hx.isOk_iff.mp ⟨b, rfl⟩, List.nil_append]
    exact hf b rfl
  | error e =>
    have hfirst : (errors ++ errors').head? = some e := by
      rw [List.head?_append, (hx e).mp rfl]
      rfl
    intro e'
    rw [hfirst]
    exact error e e'

/-- What cannot fail may come first. -/
theorem after_isOk {f : β → Except Error γ} (hx : ∃ b, x = .ok b)
    (hf : ∀ b, FailsFirst (f b) errors) : FailsFirst (x >>= f) errors := by
  obtain ⟨b, rfl⟩ := hx
  exact hf b

/-- A traversal fails with the first error of the first item that has any. -/
theorem mapM {f : β → Except Error γ} {each : β → List Error} {bs : List β}
    (h : ∀ b ∈ bs, FailsFirst (f b) (each b)) : FailsFirst (bs.mapM f) (bs.flatMap each) := by
  induction bs with
  | nil => exact of_isOk ⟨[], rfl⟩
  | cons b bs ih =>
    obtain ⟨hb, hbs⟩ := List.forall_mem_cons.mp h
    rw [List.mapM_cons, List.flatMap_cons]
    refine hb.bind fun c _ => ?_
    rw [← List.append_nil (bs.flatMap each)]
    exact (ih hbs).bind fun cs _ => of_isOk ⟨c :: cs, rfl⟩

end FailsFirst

/-! ## What is missing -/

section Missing

variable {α : Type}

/-- No point has the given name. -/
def Absent (vs : List (Vertex α)) (q : Value) : Prop := ∀ v ∈ vs, (v.id == q) = false

/-- A constraint names something that is not there: a point, a line, a circle, or a line or a circle
of which an end or the center is not there. -/
inductive Constraint.Lacks (vs : List (Vertex α)) (edges : List Edge) (rings : List (Ring α))
    (c : Constraint) : Prop where
  | point {q : Value} (hq : q ∈ c.points) (hmissing : Absent vs q)
  | line {q : Value} (hq : q ∈ c.lines) (hmissing : ∀ e ∈ edges, (e.id == q) = false)
  | lineEnd {q : Value} {e : Edge} (hq : q ∈ c.lines) (he : edges.find? (·.id == q) = some e)
      (hmissing : Absent vs e.p1 ∨ Absent vs e.p2)
  | circle {q : Value} (hq : q ∈ c.circles) (hmissing : ∀ r ∈ rings, (r.id == q) = false)
  | center {q : Value} {r : Ring α} (hq : q ∈ c.circles) (hr : rings.find? (·.id == q) = some r)
      (hmissing : Absent vs r.center)

/-- What a reference to the first thing with a name lacks: the thing, or what the thing lacks. -/
def missingFirst {β : Type} (what : Referent) (owner : String) (id : β → Value)
    (lacks : β → List Error) (xs : List β) (q : Value) : List Error :=
  match xs.find? (id · == q) with
  | some x => lacks x
  | none => [.dangling what q owner]

/-- What a reference to a point lacks: the point. -/
def missingPoint (vs : List (Vertex α)) (owner : String) : Value → List Error :=
  missingFirst .point owner (·.id) (fun _ => []) vs

/-- What a reference to a line lacks: the line, or its first end and then its second. -/
def missingLine (vs : List (Vertex α)) (edges : List Edge) (owner : String) :
    Value → List Error :=
  missingFirst .line owner (·.id)
    (fun e => missingPoint vs owner e.p1 ++ missingPoint vs owner e.p2) edges

/-- What a reference to a circle lacks: the circle, or its center. -/
def missingCircle (vs : List (Vertex α)) (rings : List (Ring α)) (owner : String) :
    Value → List Error :=
  missingFirst .circle owner (·.id) (fun r => missingPoint vs owner r.center) rings

/-- All that a constraint lacks: for its points, then for its lines, then for its circles. -/
def Constraint.missing (vs : List (Vertex α)) (edges : List Edge) (rings : List (Ring α))
    (c : Constraint) : List Error :=
  c.points.flatMap (missingPoint vs c.owner) ++ c.lines.flatMap (missingLine vs edges c.owner) ++
    c.circles.flatMap (missingCircle vs rings c.owner)

/-- All that the enabled constraints of a problem lack, in their order. -/
def Problem.missing (p : Problem) : List Error :=
  (p.constraints.filter (·.isEnabled)).flatMap (·.missing p.vertices p.edges p.rings)

variable {vs : List (Vertex α)} {edges : List Edge} {rings : List (Ring α)} {owner : String}
  {q : Value}

theorem flatMap_ne_nil {β γ : Type} {f : β → List γ} {bs : List β} :
    bs.flatMap f ≠ [] ↔ ∃ b ∈ bs, f b ≠ [] := by
  simp only [ne_eq, List.flatMap_eq_nil_iff, not_forall, exists_prop]

theorem append_ne_nil {β : Type} {as bs : List β} : as ++ bs ≠ [] ↔ as ≠ [] ∨ bs ≠ [] := by
  rw [ne_eq, List.append_eq_nil_iff, not_and_or]

theorem missingFirst_ne_nil {β : Type} {what : Referent} {id : β → Value}
    {lacks : β → List Error} {xs : List β} : missingFirst what owner id lacks xs q ≠ [] ↔
      (∀ x ∈ xs, (id x == q) = false) ∨ ∃ x, xs.find? (id · == q) = some x ∧ lacks x ≠ [] := by
  unfold missingFirst
  cases hfind : xs.find? (id · == q) with
  | none => simpa using hfind
  | some x =>
    have hsome : ¬ ∀ x ∈ xs, (id x == q) = false := fun hnone =>
      absurd (List.find?_some hfind) (by rw [hnone x (List.mem_of_find?_eq_some hfind)]; nofun)
    simp only [hsome, false_or, Option.some.injEq, exists_eq_left']

theorem missingPoint_ne_nil : missingPoint vs owner q ≠ [] ↔ Absent vs q := by
  simp only [missingPoint, missingFirst_ne_nil, ne_eq, not_true_eq_false, and_false, exists_false,
    or_false, Absent]

theorem missingLine_ne_nil : missingLine vs edges owner q ≠ [] ↔
    (∀ e ∈ edges, (e.id == q) = false) ∨
      ∃ e, edges.find? (·.id == q) = some e ∧ (Absent vs e.p1 ∨ Absent vs e.p2) := by
  simp only [missingLine, missingFirst_ne_nil, append_ne_nil, missingPoint_ne_nil]

theorem missingCircle_ne_nil : missingCircle vs rings owner q ≠ [] ↔
    (∀ r ∈ rings, (r.id == q) = false) ∨
      ∃ r, rings.find? (·.id == q) = some r ∧ Absent vs r.center := by
  simp only [missingCircle, missingFirst_ne_nil, missingPoint_ne_nil]

/-- A constraint lacks something exactly if there is something on the list. -/
theorem Constraint.lacks_iff {c : Constraint} :
    c.Lacks vs edges rings ↔ c.missing vs edges rings ≠ [] := by
  rw [missing, append_ne_nil, append_ne_nil, flatMap_ne_nil, flatMap_ne_nil, flatMap_ne_nil]
  simp only [missingPoint_ne_nil, missingLine_ne_nil, missingCircle_ne_nil]
  constructor
  · intro h
    cases h with
    | point hq hmissing => exact .inl (.inl ⟨_, hq, hmissing⟩)
    | line hq hmissing => exact .inl (.inr ⟨_, hq, .inl hmissing⟩)
    | lineEnd hq he hmissing => exact .inl (.inr ⟨_, hq, .inr ⟨_, he, hmissing⟩⟩)
    | circle hq hmissing => exact .inr ⟨_, hq, .inl hmissing⟩
    | center hq hr hmissing => exact .inr ⟨_, hq, .inr ⟨_, hr, hmissing⟩⟩
  · rintro ((⟨q, hq, h⟩ | ⟨q, hq, h | ⟨e, he, h⟩⟩) | ⟨q, hq, h | ⟨r, hr, h⟩⟩)
    · exact .point hq h
    · exact .line hq h
    · exact .lineEnd hq he h
    · exact .circle hq h
    · exact .center hq hr h

/-- An error tells of a name without a referent, used by the given owner. -/
def Error.TellsOf (owner : String) (e : Error) : Prop :=
  ∃ what q, what ≠ .element ∧ e = .dangling what q owner

theorem mem_missingFirst {β : Type} (what : Referent) (hwhat : what ≠ .element) {id : β → Value}
    {lacks : β → List Error} {xs : List β} (hlacks : ∀ x, ∀ e ∈ lacks x, e.TellsOf owner) :
    ∀ e ∈ missingFirst what owner id lacks xs q, e.TellsOf owner := by
  intro e he
  unfold missingFirst at he
  split at he
  · exact hlacks _ e he
  · exact ⟨what, q, hwhat, List.mem_singleton.mp he⟩

theorem mem_missingPoint : ∀ e ∈ missingPoint vs owner q, e.TellsOf owner :=
  mem_missingFirst .point nofun fun _ => nofun

/-- Whatever a constraint lacks, the error tells of it and of the constraint. -/
theorem Constraint.mem_missing {c : Constraint} :
    ∀ e ∈ c.missing vs edges rings, e.TellsOf c.owner := by
  intro e he
  rcases List.mem_append.mp he with he | he
  · rcases List.mem_append.mp he with he | he
    · obtain ⟨q, _, he⟩ := List.mem_flatMap.mp he
      exact mem_missingPoint e he
    · obtain ⟨q, _, he⟩ := List.mem_flatMap.mp he
      refine mem_missingFirst .line nofun (fun _ => ?_) e he
      exact List.forall_mem_append.mpr ⟨mem_missingPoint, mem_missingPoint⟩
  · obtain ⟨q, _, he⟩ := List.mem_flatMap.mp he
    exact mem_missingFirst .circle nofun (fun _ => mem_missingPoint) e he

end Missing

/-! ## Well-formed problems -/

theorem Value.IsName.asKey {v : Value} (h : v.IsName) : v.asKey = .ok v := by
  cases h <;> rfl

/-- All names are names, and target values are numbers. -/
structure Problem.WellFormed (p : Problem) : Prop where
  vertices : ∀ v ∈ p.vertices, v.id.IsName
  edges : ∀ e ∈ p.edges, e.id.IsName ∧ e.p1.IsName ∧ e.p2.IsName
  rings : ∀ r ∈ p.rings, r.id.IsName ∧ r.center.IsName
  references : ∀ c ∈ p.constraints, c.isEnabled = true → ∀ q ∈ c.references, q.IsName
  targets : ∀ c ∈ p.constraints, c.isEnabled = true → ∃ target : Float, c.target = .ok target

section Compiling

variable {α : Type} {n k : Nat} {vs : Vector (Vertex α) n} {edges : List Edge}
  {rs : Vector (Ring α) k} {owner : String} {q : Value}

theorem Value.IsName.asKey_bind {β : Type} (hq : q.IsName) (f : Value → Except Error β) :
    (q.asKey >>= f) = f q := by
  rw [hq.asKey]
  rfl

theorem resolvePoint_failsFirst (hq : q.IsName) :
    FailsFirst (resolvePoint vs owner q) (missingPoint vs.toList owner q) := by
  rw [resolvePoint, hq.asKey_bind, missingPoint, missingFirst, find?_toList]
  cases vs.findFinIdx? (·.id == q) with
  | none => exact .error _
  | some i => exact .of_isOk ⟨i, rfl⟩

theorem resolveLine_failsFirst (hq : q.IsName) (hedges : ∀ e ∈ edges, e.p1.IsName ∧ e.p2.IsName) :
    FailsFirst (resolveLine vs edges owner q) (missingLine vs.toList edges owner q) := by
  rw [resolveLine, hq.asKey_bind, missingLine, missingFirst]
  cases hfind : edges.find? (·.id == q) with
  | none => exact .error _
  | some e =>
    obtain ⟨hp1, hp2⟩ := hedges e (List.mem_of_find?_eq_some hfind)
    dsimp only
    rw [← List.append_nil (missingPoint _ _ e.p2)]
    exact (resolvePoint_failsFirst hp1).bind fun p1 _ =>
      (resolvePoint_failsFirst hp2).bind fun p2 _ => .of_isOk ⟨⟨p1, p2⟩, rfl⟩

theorem resolveCircle_failsFirst (hq : q.IsName) (hrings : ∀ r ∈ rs.toList, r.center.IsName) :
    FailsFirst (resolveCircle vs rs owner q) (missingCircle vs.toList rs.toList owner q) := by
  rw [resolveCircle, hq.asKey_bind, missingCircle, missingFirst, find?_toList]
  cases rs.findFinIdx? (·.id == q) with
  | none => exact .error _
  | some i =>
    dsimp only [Option.map_some]
    rw [← List.append_nil (missingPoint _ _ _)]
    exact (resolvePoint_failsFirst (hrings _ (by simp [Vector.get]))).bind fun center _ =>
      .of_isOk ⟨⟨center, i⟩, rfl⟩

/-- A constraint that refers by names fails with the first error of what it lacks. What follows when
its references are resolved does not fail. -/
theorem Constraint.compile_failsFirst [Scalar α] {c : Constraint}
    (hc : ∀ q ∈ c.references, q.IsName) (htarget : ∃ target : α, c.target = .ok target)
    (hedges : ∀ e ∈ edges, e.p1.IsName ∧ e.p2.IsName)
    (hrings : ∀ r ∈ rs.toList, r.center.IsName) :
    FailsFirst (c.compile vs edges rs) (c.missing vs.toList edges rs.toList) := by
  have hpoints : ∀ q ∈ c.points, q.IsName := fun q hq => hc q (by simp [references, hq])
  have hlines : ∀ q ∈ c.lines, q.IsName := fun q hq => hc q (by simp [references, hq])
  have hcircles : ∀ q ∈ c.circles, q.IsName := fun q hq => hc q (by simp [references, hq])
  rw [compile, missing, List.append_assoc, ← List.append_nil (c.circles.flatMap _)]
  refine .bind (.mapM fun q hq => resolvePoint_failsFirst (hpoints q hq)) fun points _ => ?_
  refine .bind (.mapM fun q hq => resolveLine_failsFirst (hlines q hq) hedges) fun lines _ => ?_
  refine .bind (.mapM fun q hq => resolveCircle_failsFirst (hcircles q hq) hrings)
    fun circles _ => .of_isOk ?_
  split
  · exact ⟨_, rfl⟩
  · split
    · obtain ⟨target, htarget⟩ := htarget
      exact ⟨_, bind_eq_ok.mpr ⟨target, htarget, rfl⟩⟩
    · obtain ⟨text, htext⟩ := summary_isOk hc
      exact ⟨_, bind_eq_ok.mpr ⟨text, htext, rfl⟩⟩

end Compiling

/-- A well-formed problem fails with the first error of what it lacks. -/
theorem Problem.WellFormed.failsFirst {p : Problem} (hp : p.WellFormed) :
    FailsFirst p.system p.missing := by
  have hkeys : ∀ v ∈ tableKeys p.vertexVector p.edges p.ringVector, v.IsName := by
    intro v hv
    simp only [tableKeys, Problem.toList_vertexVector, Problem.toList_ringVector,
      List.mem_append, List.mem_map] at hv
    rcases hv with (⟨u, hu, rfl⟩ | ⟨e, he, rfl⟩) | ⟨r, hr, rfl⟩
    · exact hp.vertices u hu
    · exact (hp.edges e he).1
    · exact (hp.rings r hr).1
  rw [← List.nil_append p.missing, ← List.append_nil p.missing]
  refine .bind (.of_isOk (mapM_isOk fun v hv => ⟨v, (hkeys v hv).asKey⟩)) fun _ _ => ?_
  refine .bind (.mapM fun c hc => ?_) fun parts _ => .of_isOk ⟨_, rfl⟩
  obtain ⟨hc, henabled⟩ := List.mem_filter.mp hc
  exact c.compile_failsFirst (hp.references c hc henabled) (hp.targets c hc henabled)
    (fun e he => (hp.edges e he).2) fun r hr => (hp.rings r hr).2

/-- Something is missing exactly if an enabled constraint lacks something. -/
theorem Problem.missing_ne_nil {p : Problem} : p.missing ≠ [] ↔
    ∃ c ∈ p.constraints, c.isEnabled = true ∧ c.Lacks p.vertices p.edges p.rings := by
  simp only [missing, flatMap_ne_nil, List.mem_filter, ← Constraint.lacks_iff, and_assoc]

theorem Constraint.owner_ne_empty (c : Constraint) : c.owner ≠ "" := by
  simp [owner]

/-- A message tells the owner of a name, if there is one. -/
theorem Error.message_dangling (what : Referent) (q : Value) {owner : String} (h : owner ≠ "") :
    (dangling what q owner).message =
      what.word ++ " not found: " ++ q.plain ++ (" (referenced by " ++ owner ++ ")") := by
  have hmention : (if owner == "" then "" else " (referenced by " ++ owner ++ ")") =
      " (referenced by " ++ owner ++ ")" := if_neg fun heq => h (eq_of_beq heq)
  show what.word ++ " not found: " ++ q.plain ++
    (if owner == "" then "" else " (referenced by " ++ owner ++ ")") = _
  rw [hmention]

/-- **Compiling fails exactly on names without referents.** It fails if an enabled constraint lacks
something, of whatever kind the constraint is, and then with the first error of what is missing: the
error names what is not there, and kind and identifier of the constraint. Otherwise it succeeds. -/
theorem fails_with_first_missing (p : Problem) (hp : p.WellFormed) :
    ((∃ e, p.system = .error e) ↔
      ∃ c ∈ p.constraints, c.isEnabled = true ∧ c.Lacks p.vertices p.edges p.rings) ∧
    (∀ e, p.system = .error e ↔ p.missing.head? = some e) ∧
    ((∃ s, p.system = .ok s) ↔ p.missing = []) ∧
    ∀ c ∈ p.constraints, ∀ e ∈ c.missing p.vertices p.edges p.rings,
      ∃ what name, what ≠ .element ∧
        e = .dangling what name (c.kind.name ++ " " ++ c.id.plain) ∧
        e.message = what.word ++ " not found: " ++ name.plain ++
          (" (referenced by " ++ (c.kind.name ++ " " ++ c.id.plain) ++ ")") := by
  have hfirst := hp.failsFirst
  refine ⟨?_, hfirst, hfirst.isOk_iff, fun c _ e he => ?_⟩
  · rw [← Problem.missing_ne_nil, ne_eq, ← hfirst.isOk_iff]
    cases p.system with
    | ok s => simp
    | error e => simp
  · obtain ⟨what, name, hwhat, rfl⟩ := Constraint.mem_missing e he
    exact ⟨what, name, hwhat, rfl, Error.message_dangling what name c.owner_ne_empty⟩

/-- Two points of one name, a line whose first end is not there before a complete one of the same
name, and a circle without its center. Of three constraints the first is disabled, the second fixes
the line, and the third fits no pattern. -/
def tangled : Problem where
  vertices := [{ id := .text "a", x := 0.0, y := 0.0 }, { id := .text "b", x := 1.0, y := 0.0 },
    { id := .text "a", x := 2.0, y := 0.0 }]
  edges := [⟨.text "l", .text "gone", .text "b"⟩, ⟨.text "l", .text "a", .text "b"⟩]
  rings := [{ id := .text "k", center := .text "lost", radius := 1.0 }]
  constraints :=
    [{ kind := .radius, id := .text "r", circles := [.text "m"], value := .float 2.0,
        enabled := .bool false },
      { kind := .fixed, id := .text "f", points := [.text "a"], lines := [.text "l"] },
      { kind := .parallel, id := .text "p", lines := [.text "n"], circles := [.text "k"],
        value := .float (0.0 / 0.0) }]
  options := .standard

/-- The same without the constraint that fixes and the one after it. -/
def untangled : Problem := { tangled with constraints := tangled.constraints.take 1 }

theorem tangled_wellFormed : tangled.WellFormed where
  vertices := by decide
  edges := by decide
  rings := by decide
  references := by decide
  targets c hc henabled := exists_eq_ok_of_isOk <| by
    revert c
    decide +kernel

theorem untangled_wellFormed : untangled.WellFormed where
  vertices := tangled_wellFormed.vertices
  edges := tangled_wellFormed.edges
  rings := tangled_wellFormed.rings
  references c hc := tangled_wellFormed.references c (List.mem_of_mem_take hc)
  targets c hc := tangled_wellFormed.targets c (List.mem_of_mem_take hc)

/-- The error is about the end of the line, and two more would follow. Without enabled constraints
compiling succeeds. -/
theorem fails_with_first_missing_tangled :
    (∃ e, tangled.system = .error e ∧ e = .dangling .point (.text "gone") "FIXED f" ∧
      e.message = "Point not found: gone (referenced by FIXED f)") ∧
    tangled.missing.length = 3 ∧ ∃ s, untangled.system = .ok s := by
  have hmissing : tangled.missing = [.dangling .point (.text "gone") "FIXED f",
      .dangling .line (.text "n") "PARALLEL p", .dangling .point (.text "lost") "PARALLEL p"] := by
    rfl
  obtain ⟨_, hfirst, _⟩ := fails_with_first_missing tangled tangled_wellFormed
  obtain ⟨_, _, hsucceeds, _⟩ := fails_with_first_missing untangled untangled_wellFormed
  refine ⟨⟨_, (hfirst _).mpr (by rw [hmissing]; rfl), rfl, rfl⟩, ?_, hsucceeds.mpr rfl⟩
  rw [hmissing]
  rfl

end Drafting
