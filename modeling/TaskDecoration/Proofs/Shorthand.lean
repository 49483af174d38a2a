import TaskDecoration.Proofs.Cutting
import TaskDecoration.Proofs.Roundtrip
import TaskDecoration.Proofs.Slots
import TaskDecoration.Signature.Shorthand

/-!
# Reading the shorthand back

The shorthand of a signature is cut at the first bracket, at the last point before it, and at every
comma. Where the names have none of these, each parameter whose default is written without a comma
is read back (`parts_parameterChars`, `parseParameter_parameterChars`), and a comma always makes
two parameters of one (`parts_comma`). So the signature is read back just where no default is
written with a comma: `parse_display_iff`.
-/

set_option autoImplicit false

namespace TaskDecoration

open Text

/-- The name can be told from what stands around it, and a default from its text. -/
structure Parameter.Writable (p : Parameter) : Prop where
  trimmed : trim p.name.toList = p.name.toList
  comma : ',' ∉ p.name.toList
  equals : '=' ∉ p.name.toList
  named : p.default? = none → p.name ≠ ""
  canonical : ∀ v, p.default? = some v → v.Canonical
  floatFree : ∀ v, p.default? = some v → v.FloatFree
  shallow : ∀ v, p.default? = some v → v.nesting ≤ Json.depthLimit

/-- Path and parameters can be told apart in the shorthand. -/
structure Signature.Writable (s : Signature) : Prop where
  indexed : s.Indexed
  inModule : s.moduleName ≠ ""
  named : s.name ≠ ""
  point : '.' ∉ s.name.toList
  bracket : '(' ∉ s.moduleName.toList ∧ '(' ∉ s.name.toList
  trimmed : trim s.qualifiedName.toList = s.qualifiedName.toList
  parameters : ∀ p ∈ s.parameters, p.Writable

/-- A default is written with a comma. -/
def Parameter.HasComma (p : Parameter) : Prop := ∃ v, p.default? = some v ∧ ',' ∈ Json.chars v

section Characters

variable {c : Char}

/-- The printed characters of ASCII are no blanks. -/
theorem isBlank_of_printed (low : 0x20 < c.toNat) (high : c.toNat < 0x80) : isBlank c = false := by
  simp [isBlank]
  omega

theorem toNat_of_isDigit (digit : c.isDigit = true) : 48 ≤ c.toNat ∧ c.toNat ≤ 57 := by
  simpa [Char.isDigit, UInt32.le_iff_toNat_le] using digit

theorem isBlank_of_opens (opens : Json.Opens c) : isBlank c = false := by
  rcases opens with digit | listed
  · have bounds := toNat_of_isDigit digit
    exact isBlank_of_printed (by omega) (by omega)
  · simp only [List.mem_cons, List.not_mem_nil, or_false] at listed
    rcases listed with rfl | rfl | rfl | rfl | rfl | rfl | rfl <;> rfl

/-- The text of a value ends neither with a blank nor with a comma. -/
theorem isBlank_of_shuts (shuts : Json.Shuts c) : isBlank c = false ∧ c ≠ ',' := by
  rcases shuts with digit | listed
  · have bounds := toNat_of_isDigit digit
    refine ⟨isBlank_of_printed (by omega) (by omega), ?_⟩
    rintro rfl
    cases digit
  · simp only [List.mem_cons, List.not_mem_nil, or_false] at listed
    rcases listed with rfl | rfl | rfl | rfl | rfl <;> decide

theorem trim_chars {v : Value} (integral : v.Integral) : trim (Json.chars v) = Json.chars v := by
  obtain ⟨c, cs, front, opens⟩ := Json.chars_opens integral
  obtain ⟨d, ds, back, shuts⟩ := Json.chars_shuts integral
  exact trim_of_ends front back (isBlank_of_opens opens) (isBlank_of_shuts shuts).1

end Characters

theorem Parameter.Writable.integral {p : Parameter} {v : Value} (writable : p.Writable)
    (declared : p.default? = some v) : v.Integral :=
  Value.integral_of_canonical (writable.canonical v declared) (writable.floatFree v declared)

namespace Signature

section Parts

theorem parts_append (cs ds : List Char) : parts (cs ++ ',' :: ds) = parts cs ++ parts ds := by
  unfold parts
  rw [List.splitOnP_append_cons cs ds (by rfl), List.map_append, List.filter_append]

theorem parts_blank (cs : List Char) : parts (' ' :: cs) = parts cs := by
  obtain ⟨first, rest, split⟩ := List.exists_cons_of_ne_nil (List.splitOnP_ne_nil (· == ',') cs)
  unfold parts
  rw [List.splitOnP_cons_eq_if_modifyHead, split]
  simp [trim_blank (c := ' ') rfl]

theorem parts_ne_nil {c : Char} {cs : List Char} (member : c ∈ cs) (printed : isBlank c = false)
    (other : c ≠ ',') : parts cs ≠ [] := by
  obtain ⟨part, hpart, hc⟩ := mem_splitOnP (p := (· == ',')) member (by simpa using other)
  apply List.ne_nil_of_mem (a := trim part)
  unfold parts
  rw [List.mem_filter]
  refine ⟨List.mem_map_of_mem hpart, ?_⟩
  have kept := mem_trim hc printed
  simpa using List.ne_nil_of_mem kept

/-- A text without commas is one part, unless it is blank. -/
theorem parts_single {cs : List Char} (comma : ',' ∉ cs) (trimmed : trim cs = cs) (some : cs ≠ []) :
    parts cs = [cs] := by
  unfold parts
  rw [List.splitOnP_eq_singleton fun c hc => by simpa using ne_of_mem_of_not_mem hc comma]
  simp [trimmed, some]

/-- The parts of the parameters are those of each parameter. -/
theorem parts_parametersChars (ps : List Parameter) :
    parts (parametersChars ps) = ps.flatMap fun p => parts (parameterChars p) := by
  induction ps with
  | nil => rfl
  | cons p ps ih =>
    cases ps with
    | nil => simp [parametersChars]
    | cons q ps =>
      rw [parametersChars, parts_append, parts_blank, ih]
      rfl

end Parts

section Parameters

variable {p : Parameter}

/-- A parameter without a comma is one part. -/
theorem parts_parameterChars (writable : p.Writable) (comma : ¬ p.HasComma) :
    parts (parameterChars p) = [parameterChars p] := by
  obtain ⟨name, default⟩ := p
  cases default with
  | none =>
    have some : name.toList ≠ [] := by simpa using writable.named rfl
    exact parts_single writable.comma writable.trimmed some
  | some v =>
    obtain ⟨d, ds, back, shuts⟩ := Json.chars_shuts (writable.integral rfl)
    have plain : ',' ∉ Json.chars v := fun member => comma ⟨v, rfl, member⟩
    have front : ∃ c cs, name.toList ++ '=' :: Json.chars v = c :: cs ∧ isBlank c = false := by
      cases split : name.toList with
      | nil => exact ⟨'=', Json.chars v, rfl, rfl⟩
      | cons c cs =>
        have trimmed : trim name.toList = name.toList := writable.trimmed
        rw [split] at trimmed
        exact ⟨c, _, rfl, first_of_trimmed trimmed⟩
    obtain ⟨c, cs, front, first⟩ := front
    have back : name.toList ++ '=' :: Json.chars v = (name.toList ++ '=' :: ds) ++ [d] := by
      rw [back, List.append_assoc, List.cons_append]
    apply parts_single ?_ (trim_of_ends front back first (isBlank_of_shuts shuts).1) (by simp)
    have := writable.comma
    simp [plain, this]

/-- A parameter without a comma is read back. -/
theorem parseParameter_parameterChars (writable : p.Writable) :
    parseParameter (parameterChars p) = p := by
  obtain ⟨name, default⟩ := p
  have plain : ∀ c ∈ name.toList, (c == '=') = false := fun c hc => by
    simpa using ne_of_mem_of_not_mem hc writable.equals
  cases default with
  | none =>
    unfold parseParameter parameterChars
    rw [splitFirst?_uncut plain]
    simp
  | some v =>
    have read := Json.ofJson?_chars (writable.canonical v rfl) (writable.floatFree v rfl)
      (writable.shallow v rfl)
    have value : defaultOf (trim (Json.chars v)) = v := by
      rw [trim_chars (writable.integral rfl), defaultOf, read, Option.getD_some]
    have split : splitFirst? (· == '=') (name.toList ++ '=' :: Json.chars v) =
        some (name.toList, Json.chars v) := splitFirst?_append plain rfl _
    unfold parseParameter parameterChars
    dsimp only
    rw [split]
    dsimp only
    rw [value, show trim name.toList = name.toList from writable.trimmed, String.ofList_toList]

/-- A comma makes at least two parts: before it stands the equals sign, and behind it the end of
the default. -/
theorem parts_comma (writable : p.Writable) (comma : p.HasComma) :
    2 ≤ (parts (parameterChars p)).length := by
  obtain ⟨name, default⟩ := p
  obtain ⟨v, rfl, member⟩ := comma
  obtain ⟨d, ds, back, shuts⟩ := Json.chars_shuts (writable.integral rfl)
  obtain ⟨printed, other⟩ := isBlank_of_shuts shuts
  obtain ⟨xs, ys, split⟩ := List.append_of_mem member
  have behind : d ∈ ys := by
    have last : (xs ++ ',' :: ys).getLast? = some d := by
      rw [← split, back]
      simp
    cases ys with
    | nil =>
      have comma : ',' = d := by simpa using last
      exact absurd comma.symm other
    | cons y ys => exact List.mem_of_getLast? (by simpa using last)
  have cut : parameterChars ⟨name, some v⟩ = (name.toList ++ '=' :: xs) ++ ',' :: ys := by
    simp [parameterChars, split]
  have first : parts (name.toList ++ '=' :: xs) ≠ [] :=
    parts_ne_nil (c := '=') (by simp) rfl (by decide)
  have rest : parts ys ≠ [] := parts_ne_nil behind printed other
  rw [cut, parts_append, List.length_append]
  have := List.length_pos_iff.mpr first
  have := List.length_pos_iff.mpr rest
  omega

theorem parts_pos (writable : p.Writable) : 1 ≤ (parts (parameterChars p)).length := by
  by_cases comma : p.HasComma
  · exact Nat.le_of_succ_le (parts_comma writable comma)
  · simp [parts_parameterChars writable comma]

/-- No parameter gets lost. -/
theorem length_le_parts {ps : List Parameter} (writable : ∀ p ∈ ps, p.Writable) :
    ps.length ≤ (ps.flatMap fun p => parts (parameterChars p)).length := by
  induction ps with
  | nil => simp
  | cons p ps ih =>
    have first := parts_pos (writable p List.mem_cons_self)
    have rest := ih fun q hq => writable q (List.mem_cons_of_mem p hq)
    rw [List.flatMap_cons, List.length_append, List.length_cons]
    omega

/-- A comma makes more parameters than there were. -/
theorem length_lt_parts {ps : List Parameter} (writable : ∀ p ∈ ps, p.Writable) {q : Parameter}
    (member : q ∈ ps) (comma : q.HasComma) :
    ps.length < (ps.flatMap fun p => parts (parameterChars p)).length := by
  obtain ⟨before, behind, rfl⟩ := List.append_of_mem member
  have first := length_le_parts fun p hp => writable p (List.mem_append_left _ hp)
  have here := parts_comma (writable q member) comma
  have rest := length_le_parts fun p hp =>
    writable p (List.mem_append_right _ (List.mem_cons_of_mem q hp))
  rw [List.flatMap_append, List.flatMap_cons]
  simp only [List.length_append, List.length_cons]
  omega

/-- Without commas, the parameters are read back. -/
theorem map_parseParameter {ps : List Parameter} (writable : ∀ p ∈ ps, p.Writable)
    (comma : ∀ p ∈ ps, ¬ p.HasComma) :
    (ps.flatMap fun p => parts (parameterChars p)).map parseParameter = ps := by
  induction ps with
  | nil => rfl
  | cons p ps ih =>
    have first := writable p List.mem_cons_self
    rw [List.flatMap_cons, parts_parameterChars first (comma p List.mem_cons_self),
      List.map_append, List.map_singleton, parseParameter_parameterChars first,
      ih (fun q hq => writable q (List.mem_cons_of_mem p hq))
        fun q hq => comma q (List.mem_cons_of_mem p hq)]
    rfl

end Parameters

section Reading

variable {s : Signature}

theorem push_ofParameters (moduleName name : String) (ps : List Parameter) (p : Parameter) :
    (ofParameters moduleName name ps).push p = ofParameters moduleName name (ps ++ [p]) := by
  unfold push ofParameters
  simp [indexFrom_append]

theorem foldl_push {α : Type} (f : α → Parameter) (xs : List α) (moduleName name : String)
    (ps : List Parameter) :
    xs.foldl (fun s x => s.push (f x)) (ofParameters moduleName name ps) =
      ofParameters moduleName name (ps ++ xs.map f) := by
  induction xs generalizing ps with
  | nil => simp
  | cons x xs ih => simp [push_ofParameters, ih]

theorem toList_qualifiedName (s : Signature) :
    s.qualifiedName.toList = s.moduleName.toList ++ '.' :: s.name.toList := by
  simp [qualifiedName]

theorem splitPath_qualifiedName (writable : s.Writable) :
    splitPath s.qualifiedName.toList = .ok (s.moduleName, s.name) := by
  have plain : ∀ c ∈ s.name.toList, (c == '.') = false := fun c hc => by
    simpa using ne_of_mem_of_not_mem hc writable.point
  unfold splitPath
  rw [toList_qualifiedName, splitLast?_append plain rfl]
  simp [writable.inModule, writable.named]

theorem splitBrackets_displayChars (writable : s.Writable) :
    splitBrackets s.displayChars = .ok (s.qualifiedName.toList, parametersChars s.parameters) := by
  have plain : ∀ c ∈ s.qualifiedName.toList, (c == '(') = false := by
    intro c hc
    rw [toList_qualifiedName, List.mem_append, List.mem_cons] at hc
    rcases hc with inModule | rfl | inName
    · simpa using ne_of_mem_of_not_mem inModule writable.bracket.1
    · rfl
    · simpa using ne_of_mem_of_not_mem inName writable.bracket.2
  have closed (cs : List Char) : ('(' :: (cs ++ [')'])).getLast? = some ')' := by
    rw [← List.cons_append, List.getLast?_append]
    rfl
  unfold splitBrackets displayChars
  rw [splitFirst?_append plain rfl]
  simp [closed]

/-- What the shorthand is read as. -/
theorem parse_display (writable : s.Writable) :
    parse s.display = .ok (.ofParameters s.moduleName s.name
      ((parts (parametersChars s.parameters)).map parseParameter)) := by
  have trimmed : trim s.displayChars = s.displayChars := by
    obtain ⟨c, cs, front⟩ := List.exists_cons_of_ne_nil
      (show s.qualifiedName.toList ≠ [] by simp [toList_qualifiedName])
    have first := writable.trimmed
    rw [front] at first
    have back : s.displayChars =
        (s.qualifiedName.toList ++ '(' :: parametersChars s.parameters) ++ [')'] := by
      simp [displayChars]
    have opened : s.displayChars = c :: (cs ++ '(' :: (parametersChars s.parameters ++ [')'])) := by
      rw [displayChars, front, List.cons_append]
    exact trim_of_ends opened back (first_of_trimmed first) rfl
  unfold parse display
  rw [String.toList_ofList, trimmed, splitBrackets_displayChars writable]
  change splitPath (trim s.qualifiedName.toList) >>= _ = _
  rw [writable.trimmed, splitPath_qualifiedName writable]
  exact congrArg Except.ok (foldl_push parseParameter _ s.moduleName s.name [])

/-- The shorthand of a signature can be read, and is read as the signature just where none of the
defaults is written with a comma. -/
theorem parse_display_iff (writable : s.Writable) :
    ∃ t, parse s.display = .ok t ∧ (t = s ↔ ∀ p ∈ s.parameters, ¬ p.HasComma) := by
  refine ⟨_, parse_display writable, ?_⟩
  rw [parts_parametersChars]
  constructor
  · intro same p hp comma
    have more := length_lt_parts writable.parameters hp comma
    have count : ((s.parameters.flatMap fun p => parts (parameterChars p)).map
        parseParameter).length = s.parameters.length :=
      congrArg (fun t => t.parameters.length) same
    rw [List.length_map] at count
    omega
  · intro comma
    rw [map_parseParameter writable.parameters comma]
    obtain ⟨moduleName, name, parameters, index⟩ := s
    have indexed : index = indexFrom 0 parameters .empty := writable.indexed
    rw [indexed]
    rfl

end Reading

/-- A signature with a nested default. -/
def nested : Signature :=
  .ofParameters "m.sub" "f" [⟨"x", none⟩, ⟨"y", some (.object [("k", .list [.int (-3)])])⟩]

theorem parse_display_nested : nested.Writable ∧ parse nested.display = .ok nested := by
  have listed (p : Parameter) (hp : p ∈ nested.parameters) :
      p = ⟨"x", none⟩ ∨ p = ⟨"y", some (.object [("k", .list [.int (-3)])])⟩ := by
    simpa [nested, ofParameters] using hp
  have canonical : (Value.object [("k", .list [.int (-3)])]).Canonical := by
    simp [Value.Canonical, Value.CanonicalFields, Value.CanonicalItems, Value.int, SortedKeys]
    decide
  have writable : nested.Writable := {
    indexed := indexed_ofParameters _ _ _
    inModule := by decide
    named := by decide
    point := by decide +kernel
    bracket := by decide +kernel
    trimmed := by decide +kernel
    parameters := by
      intro p hp
      rcases listed p hp with rfl | rfl
      · constructor <;> first | decide +kernel | simp
      · constructor
        case canonical =>
          rintro v ⟨⟩
          exact canonical
        case floatFree =>
          rintro v ⟨⟩ x
          simp [Value.numbers, Value.fieldsNumbers, Value.itemsNumbers, Value.int]
        case shallow =>
          rintro v ⟨⟩
          decide
        all_goals decide +kernel }
  obtain ⟨t, read, same⟩ := parse_display_iff writable
  have comma : ∀ p ∈ nested.parameters, ¬ p.HasComma := by
    rintro p hp ⟨v, declared, member⟩
    rcases listed p hp with rfl | rfl
    · cases declared
    · cases declared
      revert member
      decide +kernel
  rw [same.mpr comma] at read
  exact ⟨writable, read⟩

end Signature

end TaskDecoration
