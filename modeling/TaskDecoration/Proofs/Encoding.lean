import TaskDecoration.Call
import TaskDecoration.Encoding
import TaskDecoration.Proofs.Decoding
import TaskDecoration.Proofs.Reading
import TaskDecoration.Proofs.Shorthand

/-!
# Signatures are encoded

The encoding of a signature leaves its index out and writes null for the default of a parameter
that has none. The index is that of the parameters (`Built.sound`), so decoding puts it together
again. But a default that is null is then none (`makes_encode`), and whoever looks it up, or asks
for an argument that the call does not supply, finds the difference: `decode_encode`.
-/

set_option autoImplicit false

namespace TaskDecoration

open Json (Decoder Record)

namespace Value

/-- The value, unless it is null. -/
def present? : Value → Option Value
  | .null => none
  | v => some v

theorem bind_present?_eq_self_iff {d : Option Value} : d.bind present? = d ↔ d ≠ some .null := by
  cases d with
  | none => simp
  | some v => cases v <;> simp [present?]

/-- Every value is the same as itself. -/
theorem same_self (v : Value) : v.same v = true := by
  induction v using parts_induction with
  | null => rfl
  | bool b => simp [same]
  | number n => cases n <;> simp [same, Number.same, Double.same]
  | text s => simp [same]
  | list items ih =>
    rw [same]
    induction items with
    | nil => rfl
    | cons x xs rest =>
      have first := ih x List.mem_cons_self
      have rest := rest fun y hy => ih y (List.mem_cons_of_mem x hy)
      simp [sameItems, first, rest]
  | object fields ih =>
    rw [same]
    induction fields with
    | nil => rfl
    | cons f fs rest =>
      have first := ih f List.mem_cons_self
      have rest := rest fun g hg => ih g (List.mem_cons_of_mem f hg)
      simp [sameFields, first, rest]

section Record

variable {fields : List (String × Value)} {n : Nat}

theorem Integral.record (parts : ∀ f ∈ fields, f.2.Integral) : (record fields).Integral :=
  integral_object_iff.mpr fun f hf => parts f (Dict.mem_ofList hf)

theorem nesting_record (parts : ∀ f ∈ fields, f.2.nesting ≤ n) : (record fields).nesting ≤ n + 1 :=
  Nat.succ_le_succ (fieldsNesting_le_iff.mpr fun f hf => parts f (Dict.mem_ofList hf))

end Record

end Value

namespace Parameter

/-- The default is a value as it is written and read. -/
def Canonical (p : Parameter) : Prop := ∀ v, p.default? = some v → v.Canonical

/-- The default can be written as a text and read back within a signature. -/
def Plain (p : Parameter) : Prop :=
  ∀ v, p.default? = some v → v.FloatFree ∧ v.nesting + 3 ≤ Json.depthLimit

/-- The parameter without a default that is null. -/
def withoutNull (p : Parameter) : Parameter := ⟨p.name, p.default?.bind Value.present?⟩

variable {p : Parameter}

theorem makes_default (canonical : p.Canonical) :
    (Decoder.option .value).Makes (.ofOption id p.default?) (p.default?.bind Value.present?) := by
  cases default : p.default? with
  | none => exact Decoder.makes_option_null
  | some v =>
    have value := Decoder.makes_value (canonical v default)
    cases v with
    | null => exact Decoder.makes_option_null
    | _ => exact Decoder.makes_option Value.noConfusion value

/-- A parameter is decoded without a default that is null. -/
theorem makes_encode (canonical : p.Canonical) : decoder.Makes p.encode p.withoutNull := by
  apply Record.makes_ofDict
  intro depth shallow
  refine Option.bind_eq_some_iff.mpr ⟨p.name, ?_, Option.bind_eq_some_iff.mpr
    ⟨p.default?.bind Value.present?, ?_, rfl⟩⟩
  · exact Record.required_ofDict (by simp) (by simp) shallow (Decoder.makes_text p.name)
  · exact Record.optional_ofDict (by simp) (by simp) shallow (makes_default canonical)

theorem integral_encode (canonical : p.Canonical) (plain : p.Plain) : p.encode.Integral := by
  apply Value.Integral.record
  have name : (Value.text p.name).Integral := by simp [Value.Integral, Value.numbers]
  have default : (Value.ofOption id p.default?).Integral := by
    cases declared : p.default? with
    | none => simp [Value.ofOption, Value.Integral, Value.numbers]
    | some v => exact Value.integral_of_canonical (canonical v declared) (plain v declared).1
  simp [name, default]

theorem nesting_encode (plain : p.Plain) : p.encode.nesting + 2 ≤ Json.depthLimit := by
  have default : (Value.ofOption id p.default?).nesting + 3 ≤ Json.depthLimit := by
    cases declared : p.default? with
    | none => decide
    | some v => exact (plain v declared).2
  have bound : p.encode.nesting ≤ (Value.ofOption id p.default?).nesting + 1 := by
    apply Value.nesting_record
    simp [Value.nesting]
  omega

end Parameter

namespace Signature

section Building

/-- The ways to come by a signature. -/
inductive Built : Signature → Prop where
  | nullary (moduleName name : String) : Built (nullary moduleName name)
  | ofParameters (moduleName name : String) {parameters : List Parameter}
      (canonical : ∀ p ∈ parameters, p.Canonical) : Built (ofParameters moduleName name parameters)
  | param {s : Signature} (built : Built s) (name : String) : Built (s.param name)
  | paramWithDefault {s : Signature} (built : Built s) (name : String) {default : Value}
      (canonical : default.Canonical) : Built (s.paramWithDefault name default)
  | parse {text : String} {s : Signature} (parsed : parse text = .ok s) : Built s

/-- What holds of a signature however it is built. -/
structure Sound (s : Signature) : Prop where
  indexed : s.Indexed
  canonical : ∀ p ∈ s.parameters, p.Canonical

variable {s : Signature}

theorem canonical_defaultOf (cs : List Char) : (defaultOf cs).Canonical := by
  unfold defaultOf
  cases read : Value.ofJson? cs with
  | none => trivial
  | some v => exact Json.canonical_of_ofJson? read

theorem canonical_parseParameter (cs : List Char) : (parseParameter cs).Canonical := by
  intro v declared
  unfold parseParameter at declared
  split at declared
  · cases declared
    exact canonical_defaultOf _
  · cases declared

/-- A shorthand that can be read lists the parameters of the signature. -/
theorem eq_of_parse {text : String} (parsed : parse text = .ok s) :
    ∃ moduleName name inside,
      s = .ofParameters moduleName name ((parts inside).map parseParameter) := by
  unfold parse at parsed
  cases cut : splitBrackets (Text.trim text.toList) with
  | error e =>
    rw [cut] at parsed
    cases parsed
  | ok brackets =>
    obtain ⟨path, inside⟩ := brackets
    rw [cut] at parsed
    change splitPath (Text.trim path) >>= _ = _ at parsed
    cases qualified : splitPath (Text.trim path) with
    | error e =>
      rw [qualified] at parsed
      cases parsed
    | ok names =>
      obtain ⟨moduleName, name⟩ := names
      rw [qualified] at parsed
      cases parsed
      exact ⟨moduleName, name, inside, foldl_push parseParameter _ moduleName name []⟩

theorem sound_ofParameters (moduleName name : String) {ps : List Parameter}
    (canonical : ∀ p ∈ ps, p.Canonical) : (ofParameters moduleName name ps).Sound :=
  ⟨indexed_ofParameters moduleName name ps, canonical⟩

theorem Sound.push (sound : s.Sound) {p : Parameter} (canonical : p.Canonical) :
    (s.push p).Sound where
  indexed := indexed_push sound.indexed p
  canonical := by
    intro q hq
    rcases List.mem_append.mp hq with before | last
    · exact sound.canonical q before
    · obtain rfl := List.mem_singleton.mp last
      exact canonical

theorem Built.sound (built : s.Built) : s.Sound := by
  induction built with
  | nullary moduleName name => exact sound_ofParameters moduleName name (by simp)
  | ofParameters moduleName name canonical => exact sound_ofParameters moduleName name canonical
  | param built name ih =>
    apply ih.push
    rintro v ⟨⟩
  | paramWithDefault built name canonical ih =>
    apply ih.push
    rintro v ⟨⟩
    exact canonical
  | parse parsed =>
    obtain ⟨moduleName, name, inside, rfl⟩ := eq_of_parse parsed
    apply sound_ofParameters
    simpa using fun cs _ => canonical_parseParameter cs

end Building

section Decoding

variable {s : Signature}

/-- The signature without defaults that are null. -/
def withoutNull (s : Signature) : Signature :=
  { s with parameters := s.parameters.map Parameter.withoutNull }

/-- No default is null. -/
def NullFree (s : Signature) : Prop := ∀ p ∈ s.parameters, p.default? ≠ some .null

theorem indexFrom_withoutNull (ps : List Parameter) (i : Nat) (index : Dict Nat) :
    indexFrom i (ps.map Parameter.withoutNull) index = indexFrom i ps index := by
  induction ps generalizing i index with
  | nil => rfl
  | cons p ps ih => exact ih (i + 1) (index.insert p.name i)

theorem ofParameters_withoutNull (indexed : s.Indexed) :
    ofParameters s.moduleName s.name (s.parameters.map Parameter.withoutNull) = s.withoutNull := by
  unfold ofParameters withoutNull
  rw [indexFrom_withoutNull, indexed]

/-- A signature is decoded without the defaults that are null. -/
theorem makes_encode (sound : s.Sound) : decoder.Makes s.encode s.withoutNull := by
  rw [← ofParameters_withoutNull sound.indexed]
  apply Record.makes_ofDict
  intro depth shallow
  refine Option.bind_eq_some_iff.mpr ⟨s.moduleName, ?_, Option.bind_eq_some_iff.mpr
    ⟨s.name, ?_, Option.bind_eq_some_iff.mpr
      ⟨s.parameters.map Parameter.withoutNull, ?_, rfl⟩⟩⟩
  · exact Record.required_ofDict (by simp) (by simp) shallow (Decoder.makes_text s.moduleName)
  · exact Record.required_ofDict (by simp) (by simp) shallow (Decoder.makes_text s.name)
  · exact Record.required_ofDict (by simp) (by simp) shallow
      (Decoder.makes_list fun p hp => Parameter.makes_encode (sound.canonical p hp))

theorem integral_encode (sound : s.Sound) (plain : ∀ p ∈ s.parameters, p.Plain) :
    s.encode.Integral := by
  have texts (t : String) : (Value.text t).Integral := by simp [Value.Integral, Value.numbers]
  have parameters : (Value.list (s.parameters.map Parameter.encode)).Integral := by
    rw [Value.integral_list_iff, List.forall_mem_map]
    exact fun p hp => Parameter.integral_encode (sound.canonical p hp) (plain p hp)
  apply Value.Integral.record
  simp [texts, parameters]

theorem nesting_encode (plain : ∀ p ∈ s.parameters, p.Plain) :
    s.encode.nesting ≤ Json.depthLimit := by
  have parameters : (Value.list (s.parameters.map Parameter.encode)).nesting + 1 ≤
      Json.depthLimit := by
    have bound : Value.itemsNesting (s.parameters.map Parameter.encode) ≤ Json.depthLimit - 2 := by
      rw [Value.itemsNesting_le_iff, List.forall_mem_map]
      intro p hp
      exact Nat.le_sub_of_add_le (Parameter.nesting_encode (plain p hp))
    have limit : 2 ≤ Json.depthLimit := by decide
    rw [Value.nesting]
    omega
  have bound : s.encode.nesting ≤
      (Value.list (s.parameters.map Parameter.encode)).nesting + 1 := by
    apply Value.nesting_record
    simp [Value.nesting]
  omega

end Decoding

section Comparing

variable {s : Signature}

theorem sameDefault_present? (d : Option Value) :
    same.sameDefault (d.bind Value.present?) d = true ↔ d ≠ some .null := by
  cases d with
  | none => simp [same.sameDefault]
  | some v =>
    have reflexive := v.same_self
    cases v with
    | null => simp [same.sameDefault, Value.present?]
    | _ => simpa [same.sameDefault, Value.present?] using reflexive

theorem sameParameters_withoutNull (ps : List Parameter) :
    same.sameParameters (ps.map Parameter.withoutNull) ps = true ↔
      ∀ p ∈ ps, p.default? ≠ some .null := by
  induction ps with
  | nil => simp [same.sameParameters]
  | cons p ps ih =>
    simp [same.sameParameters, Parameter.withoutNull, sameDefault_present?, ih]

/-- The comparison of signatures notices a default that is lost. -/
theorem withoutNull_same_iff : s.withoutNull.same s = true ↔ s.NullFree := by
  simp [same, withoutNull, sameParameters_withoutNull, NullFree]

theorem withoutNull_eq_self_iff : s.withoutNull = s ↔ s.NullFree := by
  have parameter (p : Parameter) : p.withoutNull = p ↔ p.default? ≠ some .null := by
    obtain ⟨name, default⟩ := p
    simp [Parameter.withoutNull, Value.bind_present?_eq_self_iff]
  obtain ⟨moduleName, name, parameters, index⟩ := s
  have parameters_iff := List.map_inj_left (l := parameters) (f := Parameter.withoutNull) (g := id)
  simpa [withoutNull, NullFree, parameter] using parameters_iff

theorem default?_withoutNull (name : String) :
    s.withoutNull.default? name = (s.default? name).bind Value.present? := by
  unfold default? parameter?
  change ((s.position? name).bind fun i => (s.parameters.map Parameter.withoutNull)[i]?).bind _ = _
  cases s.position? name with
  | none => rfl
  | some i =>
    simp only [Option.bind_some, List.getElem?_map]
    cases s.parameters[i]? <;> rfl

end Comparing

end Signature

section Arguments

variable {s t : Signature}

/-- The argument that is given for a parameter, by keyword or by position. -/
def Arguments.supplied? (a : Arguments) (s : Signature) (name : String) : Option Value :=
  (a.get? name).or ((s.position? name).bind (a.positional[·]?))

/-- A body finds what is given for a parameter, and else the default. -/
theorem View.arg?_eq (v : View) (name : String) :
    v.arg? name = (v.arguments.supplied? v.signature name).or (v.signature.default? name) := by
  unfold arg? Arguments.supplied?
  cases v.arguments.get? name with
  | some x => rfl
  | none =>
    cases position : v.signature.position? name with
    | none => simp [Signature.default?, Signature.parameter?, position]
    | some i => cases given : v.arguments.positional[i]? <;> simp [given]

/-- Bodies of one function that find the same argument require it alike. -/
theorem View.require_eq_iff {v w : View} (name : String)
    (qualified : v.signature.qualifiedName = w.signature.qualifiedName) :
    v.require name = w.require name ↔ v.arg? name = w.arg? name := by
  unfold require
  rw [qualified]
  cases v.arg? name <;> cases w.arg? name <;> simp

theorem Call.arg?_withoutNull_iff (c : Call) (name : String) :
    (c.view s.withoutNull).arg? name = (c.view s).arg? name ↔
      (s.default? name = some .null → c.arguments.supplied? s name ≠ none) := by
  rw [View.arg?_eq, View.arg?_eq]
  change (c.arguments.supplied? s name).or (s.withoutNull.default? name) =
    (c.arguments.supplied? s name).or (s.default? name) ↔ _
  rw [Signature.default?_withoutNull]
  cases c.arguments.supplied? s name with
  | some x => simp
  | none => simp [Value.bind_present?_eq_self_iff]

theorem Call.require_withoutNull_iff (c : Call) (name : String) :
    (c.view s.withoutNull).require name = (c.view s).require name ↔
      (s.default? name = some .null → c.arguments.supplied? s name ≠ none) := by
  have qualified : (c.view s.withoutNull).signature.qualifiedName =
      (c.view s).signature.qualifiedName := rfl
  rw [View.require_eq_iff name qualified, c.arg?_withoutNull_iff name]

/-- What a signature that has been encoded is decoded as: it differs from the original where a
parameter declares null as its default, and there only. -/
structure Signature.Restored (s t : Signature) : Prop where
  moduleName : t.moduleName = s.moduleName
  name : t.name = s.name
  parameters : t.parameters = s.parameters.map Parameter.withoutNull
  index : t.index = s.index
  equal : t = s ↔ s.NullFree
  same : t.same s = true ↔ s.NullFree
  position? : ∀ name, t.position? name = s.position? name
  default? : ∀ name, t.default? name = s.default? name ↔ s.default? name ≠ some .null
  arg? : ∀ (c : Call) name, (c.view t).arg? name = (c.view s).arg? name ↔
    (s.default? name = some .null → c.arguments.supplied? s name ≠ none)
  require : ∀ (c : Call) name, (c.view t).require name = (c.view s).require name ↔
    (s.default? name = some .null → c.arguments.supplied? s name ≠ none)

namespace Signature

theorem restored_withoutNull (s : Signature) : s.Restored s.withoutNull where
  moduleName := rfl
  name := rfl
  parameters := rfl
  index := rfl
  equal := withoutNull_eq_self_iff
  same := withoutNull_same_iff
  position? _ := rfl
  default? name := by rw [default?_withoutNull, Value.bind_present?_eq_self_iff]
  arg? c name := c.arg?_withoutNull_iff name
  require c name := c.require_withoutNull_iff name

/-- However a signature is built, it is decoded from its encoding, and from the text of that where
its defaults can be read from a text. It is the signature itself just where no default is null. -/
theorem decode_encode (built : s.Built) :
    ∃ t, decoder.ofValue? s.encode = some t ∧ s.Restored t ∧
      ((∀ p ∈ s.parameters, p.Plain) →
        Json.decode? decoder (Json.chars s.encode) = some t) := by
  have sound := built.sound
  have makes := makes_encode sound
  refine ⟨s.withoutNull, makes.ofValue?, restored_withoutNull s, fun plain => ?_⟩
  exact makes.decode? (integral_encode sound plain) (nesting_encode plain)

/-- A signature whose only default is a list with a null in it. -/
def listed : Signature := ((nullary "m" "f").param "a").paramWithDefault "b" (.list [.null])

theorem decode_encode_listed : listed.Built ∧ decoder.ofValue? listed.encode = some listed ∧
    Json.decode? decoder (Json.chars listed.encode) = some listed := by
  have canonical : (Value.list [.null]).Canonical := by
    simp [Value.Canonical, Value.CanonicalItems]
  have built : listed.Built := ((Built.nullary "m" "f").param "a").paramWithDefault "b" canonical
  have nullFree : listed.NullFree := by
    simp [NullFree, listed, nullary, param, paramWithDefault, push, ofParameters]
  have plain : ∀ p ∈ listed.parameters, p.Plain := by
    simp [listed, nullary, param, paramWithDefault, push, ofParameters, Parameter.Plain,
      Value.FloatFree, Value.numbers, Value.itemsNumbers, Value.nesting, Value.itemsNesting,
      Json.depthLimit]
  obtain ⟨t, decoded, restored, read⟩ := decode_encode built
  have text := read plain
  rw [restored.equal.mpr nullFree] at decoded text
  exact ⟨built, decoded, text⟩

/-- A function that may be called without an argument, for which null stands then. -/
def lenient : Signature := (nullary "m" "f").paramWithDefault "a" .null

/-- A function that has to be called with an argument. -/
def strict : Signature := (nullary "m" "f").param "a"

/-- The encoding makes a function strict that was lenient, and a call without the argument fails
that did not fail before. -/
theorem null_default_lost :
    lenient.Built ∧ decoder.ofValue? lenient.encode = some strict ∧
      strict.same lenient = false ∧ lenient.default? "a" = some .null ∧
      strict.default? "a" = none ∧
      ((Call.start default .empty).view lenient).require "a" = .ok .null ∧
      ((Call.start default .empty).view strict).require "a" =
        .error (.execution "m.f requires argument `a`") := by
  have built : lenient.Built := (Built.nullary "m" "f").paramWithDefault "a" trivial
  have decoded : decoder.ofValue? lenient.encode = some strict :=
    (makes_encode built.sound).ofValue?
  exact ⟨built, decoded, by decide, by rfl, by rfl, by rfl, by rfl⟩

end Signature

end Arguments

end TaskDecoration
