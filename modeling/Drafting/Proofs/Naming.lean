import Drafting.Graph.Basic

/-!
The names of the parts of a drawing. A name is the identifier of an element, an underscore, a word
of letters and perhaps a number. The identifier may be any text, underscores and digits included:
what follows the last underscore is the word and the number, so that a name tells the identifier,
the word and the number.
-/

namespace Drafting

theorem Value.beq_text_iff {v : Value} {s : String} : (v == .text s) = true ↔ v = .text s := by
  cases v with
  | text t => simp
  | null | bool | int | float | issued | list | object =>
    simp [BEq.beq, Value.same, Value.number?]

instance (v : Value) (s : String) : Decidable (v = .text s) :=
  decidable_of_iff ((v == .text s) = true) Value.beq_text_iff

/-- The number at the end of a name, if there is one. -/
def numberText : Option Nat → String
  | none => ""
  | some i => toString i

/-- The name of a part of an element. -/
def partName (element word : String) (index : Option Nat) : String :=
  element ++ "_" ++ word ++ numberText index

/-- A word without digits and underscores. -/
def IsWord (s : String) : Prop := ∀ c ∈ s.toList, c.isDigit = false ∧ c ≠ '_'

theorem Role.isWord (r : Role) : IsWord r.word := by
  cases r <;> simp [IsWord, Role.word]

theorem Role.word_injective {r r' : Role} (h : r.word = r'.word) : r = r' := by
  have hr := congrArg Role.ofWord? h
  rw [Role.ofWord?_word, Role.ofWord?_word] at hr
  exact Option.some.inj hr

theorem vertexName_eq (e : Value) (r : Role) (i : Option Nat) :
    vertexName e r i = partName e.plain r.word i := by
  cases i <;> rfl

theorem ringName_eq (e : Value) : ringName e = partName e.plain "circle" none := by
  simp [ringName, partName, numberText, String.append_assoc]

theorem lineName_eq (e : Value) : lineName e = partName e.plain "line" none := by
  simp [lineName, partName, numberText, String.append_assoc]

theorem edgeName_eq (e : Value) (i : Nat) : edgeName e i = partName e.plain "edge" (some i) := by
  simp [edgeName, partName, numberText, String.append_assoc]

/-! ## Reading a name from its end -/

theorem toList_numberText (i : Option Nat) :
    (numberText i).toList = (i.map (Nat.toDigits 10)).getD [] := by
  cases i with
  | none => rfl
  | some i => simp [numberText]

theorem isDigit_of_mem_numberText {i : Option Nat} {c : Char} (h : c ∈ (numberText i).toList) :
    c.isDigit = true := by
  rw [toList_numberText] at h
  cases i with
  | none => cases h
  | some i => exact Nat.isDigit_of_mem_toDigits (by omega) (by omega) h

theorem numberText_injective {i j : Option Nat} (h : numberText i = numberText j) : i = j := by
  have hl := congrArg String.toList h
  rw [toList_numberText, toList_numberText] at hl
  cases i with
  | none =>
    cases j with
    | none => rfl
    | some j => exact absurd hl.symm Nat.toDigits_ne_nil
  | some i =>
    cases j with
    | none => exact absurd hl Nat.toDigits_ne_nil
    | some j =>
      have hij := congrArg (Nat.ofDigitChars 10 · 0) hl
      simpa using hij

/-- Two lists that agree up to what follows the last occurrence of an item agree on both sides of
it. -/
theorem append_cons_inj_of_last {α : Type} {c : α} {l l' a b : List α} (ha : c ∉ a) (hb : c ∉ b)
    (h : l ++ c :: a = l' ++ c :: b) : l = l' ∧ a = b := by
  rcases List.append_eq_append_iff.mp h with ⟨m, rfl, hm⟩ | ⟨m, rfl, hm⟩
  · cases m with
    | nil => exact ⟨by simp, (List.cons.inj hm).2⟩
    | cons x m =>
      obtain ⟨_, rfl⟩ := List.cons.inj hm
      exact absurd (by simp) ha
  · cases m with
    | nil => exact ⟨by simp, (List.cons.inj hm).2.symm⟩
    | cons x m =>
      obtain ⟨_, rfl⟩ := List.cons.inj hm
      exact absurd (by simp) hb

theorem takeWhile_word {u : String} (hu : IsWord u) (i : Option Nat) :
    (u.toList ++ (numberText i).toList).takeWhile (!·.isDigit) = u.toList := by
  rw [List.takeWhile_append_of_pos fun c hc => by simp [(hu c hc).1]]
  cases hn : (numberText i).toList with
  | nil => simp
  | cons d ds =>
    have hd : d.isDigit = true := isDigit_of_mem_numberText (i := i) (by rw [hn]; simp)
    simp [hd]

theorem word_number_injective {u v : String} {i j : Option Nat} (hu : IsWord u) (hv : IsWord v)
    (h : u.toList ++ (numberText i).toList = v.toList ++ (numberText j).toList) :
    u = v ∧ i = j := by
  -- the word ends where the first digit stands
  have huv : u.toList = v.toList := by
    rw [← takeWhile_word hu i, ← takeWhile_word hv j, h]
  rw [huv, List.append_cancel_left_eq] at h
  exact ⟨String.toList_inj.mp huv, numberText_injective (String.toList_inj.mp h)⟩

theorem underscore_notMem {u : String} (hu : IsWord u) (i : Option Nat) :
    '_' ∉ u.toList ++ (numberText i).toList := by
  intro h
  rcases List.mem_append.mp h with h | h
  · exact (hu _ h).2 rfl
  · exact absurd (isDigit_of_mem_numberText h) (by decide)

/-- **A name tells what it is made of**: the identifier, the word and the number. -/
theorem partName_injective {s t u v : String} {i j : Option Nat} (hu : IsWord u) (hv : IsWord v)
    (h : partName s u i = partName t v j) : s = t ∧ u = v ∧ i = j := by
  have hl := congrArg String.toList h
  have hunderscore : "_".toList = ['_'] := rfl
  simp only [partName, String.toList_append, hunderscore, List.append_assoc,
    List.singleton_append] at hl
  -- neither the word nor the number has an underscore: the one before them is the last
  obtain ⟨hst, hend⟩ :=
    append_cons_inj_of_last (underscore_notMem hu i) (underscore_notMem hv j) hl
  exact ⟨String.toList_inj.mp hst, word_number_injective hu hv hend⟩

theorem vertexName_injective {v w : Value} {r r' : Role} {i j : Option Nat}
    (h : vertexName v r i = vertexName w r' j) : v.plain = w.plain ∧ r = r' ∧ i = j := by
  rw [vertexName_eq, vertexName_eq] at h
  obtain ⟨hvw, hr, hij⟩ := partName_injective r.isWord r'.isWord h
  exact ⟨hvw, Role.word_injective hr, hij⟩

theorem ringName_injective {v w : Value} (h : ringName v = ringName w) : v.plain = w.plain := by
  have hword : IsWord "circle" := by simp [IsWord]
  rw [ringName_eq, ringName_eq] at h
  exact (partName_injective hword hword h).1

/-! ## Names of different sorts of parts -/

/-- The word in the name of a side: of a line, which has no number, or of an edge of a
rectangle. -/
def sideWord : Option Nat → String
  | none => "line"
  | some _ => "edge"

/-- The name of a straight side of an element: of a line, or of an edge of a rectangle by its
number. -/
def sideName (element : Value) : Option Nat → String
  | none => lineName element
  | some k => edgeName element k

theorem sideWord_isWord (k : Option Nat) : IsWord (sideWord k) := by
  cases k <;> simp [IsWord, sideWord]

theorem sideName_eq (e : Value) (k : Option Nat) :
    sideName e k = partName e.plain (sideWord k) k := by
  cases k with
  | none => exact lineName_eq e
  | some k => exact edgeName_eq e k

theorem sideName_injective {v w : Value} {k l : Option Nat} (h : sideName v k = sideName w l) :
    v.plain = w.plain ∧ k = l := by
  rw [sideName_eq, sideName_eq] at h
  obtain ⟨hvw, _, hkl⟩ := partName_injective (sideWord_isWord k) (sideWord_isWord l) h
  exact ⟨hvw, hkl⟩

/-- Names with different words are different, whatever the identifiers and numbers are. -/
theorem partName_ne {s t u v : String} {i j : Option Nat} (hu : IsWord u) (hv : IsWord v)
    (huv : u ≠ v) : partName s u i ≠ partName t v j :=
  fun h => huv (partName_injective hu hv h).2.1

theorem vertexName_ne_sideName (v w : Value) (r : Role) (i k : Option Nat) :
    vertexName v r i ≠ sideName w k := by
  rw [vertexName_eq, sideName_eq]
  refine partName_ne r.isWord (sideWord_isWord k) ?_
  cases r <;> cases k <;> simp [Role.word, sideWord]

theorem vertexName_ne_ringName (v w : Value) (r : Role) (i : Option Nat) :
    vertexName v r i ≠ ringName w := by
  rw [vertexName_eq, ringName_eq]
  refine partName_ne r.isWord (by simp [IsWord]) ?_
  cases r <;> simp [Role.word]

theorem sideName_ne_ringName (v w : Value) (k : Option Nat) : sideName v k ≠ ringName w := by
  rw [sideName_eq, ringName_eq]
  refine partName_ne (sideWord_isWord k) (by simp [IsWord]) ?_
  cases k <;> simp [sideWord]

/-- **Every part has a name of its own.** Identifiers are any texts, with underscores, words and
digits in them. Two vertices have one name only if they have one identifier, role and number, two
sides only if they have one identifier and number, two circles only if they have one identifier;
and parts of different sorts never have one name. -/
theorem names_tell_parts :
    (∀ (e f : String) (r s : Role) (i j : Option Nat),
      vertexName (.text e) r i = vertexName (.text f) s j ↔ e = f ∧ r = s ∧ i = j) ∧
    (∀ (e f : String) (k l : Option Nat),
      sideName (.text e) k = sideName (.text f) l ↔ e = f ∧ k = l) ∧
    (∀ e f : String, ringName (.text e) = ringName (.text f) ↔ e = f) ∧
    ∀ (e f g : String) (r : Role) (i k : Option Nat),
      vertexName (.text e) r i ≠ sideName (.text f) k ∧
        vertexName (.text e) r i ≠ ringName (.text g) ∧
        sideName (.text f) k ≠ ringName (.text g) := by
  refine ⟨fun e f r s i j => ⟨vertexName_injective, ?_⟩, fun e f k l => ⟨sideName_injective, ?_⟩,
    fun e f => ⟨ringName_injective, fun h => by rw [h]⟩, fun e f g r i k =>
      ⟨vertexName_ne_sideName _ _ r i k, vertexName_ne_ringName _ _ r i,
        sideName_ne_ringName _ _ k⟩⟩
  · rintro ⟨rfl, rfl, rfl⟩
    rfl
  · rintro ⟨rfl, rfl⟩
    rfl

end Drafting
