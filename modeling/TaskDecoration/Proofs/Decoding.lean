import TaskDecoration.Json.Decoder
import TaskDecoration.Proofs.Roundtrip

/-!
# Decoding what was written

A decoder reads trees, and it reads the tree of a value just like the text of the value
(`Decoder.Makes`). Texts, lists and values are decoded part by part. A record finds the fields of
the object that it was written as (`Record.ofTree?_ofDict`), each with its own decoder.
-/

set_option autoImplicit false

namespace TaskDecoration

namespace Dict

variable {α : Type}

theorem get?_insertMany_eq (d : Dict α) (entries : List (String × α)) (k : String) :
    (d.insertMany entries).get? k = ((ofList entries).get? k).or (d.get? k) := by
  rw [ofList, get?_insertMany_eq_getLast?, get?_insertMany_eq_getLast?, get?_empty, Option.or_none]

@[simp] theorem get?_ofList_nil (k : String) :
    (ofList ([] : List (String × α))).get? k = none := rfl

/-- What is listed later stays. -/
@[simp] theorem get?_ofList_cons (e : String × α) (es : List (String × α)) (k : String) :
    (ofList (e :: es)).get? k =
      ((ofList es).get? k).or (if k = e.1 then some e.2 else none) := by
  change ((empty.insert e.1 e.2).insertMany es).get? k = _
  rw [get?_insertMany_eq, get?_insert, get?_empty]

end Dict

namespace Json

/-- Decodes a value, however deep it is nested. -/
def Decoder.ofValue? {α : Type} (d : Decoder α) (v : Value) : Option α :=
  d v.nesting (Tree.ofValue v)

/-- The decoder makes `x` of the value wherever it may be nested so deep. -/
def Decoder.Makes {α : Type} (d : Decoder α) (v : Value) (x : α) : Prop :=
  ∀ depth, v.nesting ≤ depth → d depth (Tree.ofValue v) = some x

namespace Decoder

variable {α β : Type} {d : Decoder α} {v : Value} {x : α}

theorem Makes.ofValue? (makes : d.Makes v x) : d.ofValue? v = some x :=
  makes v.nesting (Nat.le_refl _)

/-- What is made of a value is made of its text, too. -/
theorem Makes.decode? (makes : d.Makes v x) (integral : v.Integral)
    (shallow : v.nesting ≤ depthLimit) : Json.decode? d (chars v) = some x := by
  unfold Json.decode?
  rw [parse?_chars integral]
  exact makes depthLimit shallow

theorem makes_text (s : String) : text.Makes (.text s) s := by
  intro depth _
  rw [Tree.ofValue]
  rfl

theorem makes_value (canonical : v.Canonical) : value.Makes v v :=
  fun _ shallow => value?_ofValue canonical shallow

theorem makes_list {f : β → Value} {g : β → α} {ys : List β}
    (parts : ∀ y ∈ ys, d.Makes (f y) (g y)) : (list d).Makes (.list (ys.map f)) (ys.map g) := by
  intro depth shallow
  cases depth with
  | zero => cases shallow
  | succ depth =>
    have bound := Nat.le_of_succ_le_succ shallow
    have decoded : ((ys.map f).map Tree.ofValue).mapM (d depth) = some (ys.map g) := by
      rw [List.map_map]
      apply mapM_map_some
      intro y hy
      apply parts y hy
      exact Value.itemsNesting_le_iff.mp bound (f y) (List.mem_map_of_mem hy)
    rw [Tree.ofValue, Tree.ofItems_eq]
    exact decoded

theorem makes_option_null : (option d).Makes .null none := by
  intro depth _
  rw [Tree.ofValue]
  rfl

theorem makes_option (some : v ≠ .null) (makes : d.Makes v x) : (option d).Makes v (.some x) := by
  intro depth shallow
  have decoded := makes depth shallow
  unfold option
  split
  · next null =>
    cases v with
    | null => exact absurd rfl some
    | _ => simp [Tree.ofValue] at null
  · rw [decoded, Option.map_some]

end Decoder

namespace Record

variable {α : Type} {names : List String} {fields : Dict Value} {depth : Nat}

/-- The record of an object that was written for a dictionary. -/
def ofDict (names : List String) (fields : Dict Value) (depth : Nat) : Record :=
  ⟨depth, false, ((fields.map Tree.ofValue).filterKeys names.contains).entries⟩

/-- An object is read as the record of its known fields. -/
theorem ofTree?_ofDict (names : List String) (fields : Dict Value) (depth : Nat) :
    ofTree? names (depth + 1) (Tree.ofValue (.ofDict fields)) =
      some (ofDict names fields depth) := by
  let known := (fields.map Tree.ofValue).filterKeys names.contains
  have different : (known.entries.map (·.1)).Nodup :=
    List.pairwise_map.mpr (known.sorted.imp String.ne_of_lt)
  have read : Tree.readableFields? (Tree.ofFields fields.entries) =
      some (fields.map Tree.ofValue).entries := readableFields?_ofFields fields.entries
  rw [Value.ofDict, Tree.ofValue, ofTree?, read]
  exact if_pos different

/-- An object finds the values of its known fields. -/
theorem field?_ofDict {name : String} (known : name ∈ names) :
    (ofDict names fields depth).field? name = (fields.get? name).map Tree.ofValue := by
  change ((fields.map Tree.ofValue).filterKeys names.contains).get? name = _
  rw [Dict.get?_filterKeys, Dict.get?_map, if_pos (by simpa using known)]

/-- A record is decoded when it is read from its fields. -/
theorem makes_ofDict {read : Record → Option α} {x : α}
    (made : ∀ depth, (Value.ofDict fields).nesting ≤ depth + 1 →
      read (ofDict names fields depth) = some x) :
    Decoder.Makes (fun depth t => (ofTree? names depth t).bind read) (.ofDict fields) x := by
  intro depth shallow
  cases depth with
  | zero => cases shallow
  | succ depth =>
    dsimp only
    rw [ofTree?_ofDict, Option.bind_some]
    exact made depth shallow

section Fields

variable {d : Decoder α} {name : String} {v : Value} {x : α}

/-- The value of a field is nested less deep than the object. -/
theorem nesting_field (there : fields.get? name = some v)
    (shallow : (Value.ofDict fields).nesting ≤ depth + 1) : v.nesting ≤ depth :=
  Value.fieldsNesting_le_iff.mp (Nat.le_of_succ_le_succ shallow) _ (mem_of_lookup there)

theorem required_ofDict (known : name ∈ names) (there : fields.get? name = some v)
    (shallow : (Value.ofDict fields).nesting ≤ depth + 1) (makes : d.Makes v x) :
    (ofDict names fields depth).required name d = some x := by
  unfold required
  rw [field?_ofDict known, there]
  exact makes depth (nesting_field there shallow)

theorem optional_ofDict {x : Option α} (known : name ∈ names) (there : fields.get? name = some v)
    (shallow : (Value.ofDict fields).nesting ≤ depth + 1) (makes : d.option.Makes v x) :
    (ofDict names fields depth).optional name d = some x := by
  unfold optional
  rw [field?_ofDict known, there]
  exact makes depth (nesting_field there shallow)

end Fields

end Record

end Json

end TaskDecoration
