import TaskDecoration.Value

/-!
# Parts of values

The numbers that occur in a value, how deep it is nested, and induction over its parts. Integers
are what a JSON text gives back exactly; `Value.Integral` says that a value holds no other numbers.
-/

set_option autoImplicit false

namespace TaskDecoration

namespace Value

mutual

/-- The numbers in a value. -/
def numbers : Value → List Number
  | .number n => [n]
  | .list items => itemsNumbers items
  | .object fields => fieldsNumbers fields
  | _ => []

def itemsNumbers : List Value → List Number
  | [] => []
  | x :: xs => x.numbers ++ itemsNumbers xs

def fieldsNumbers : List (String × Value) → List Number
  | [] => []
  | (_, x) :: fs => x.numbers ++ fieldsNumbers fs

end

mutual

/-- How many lists and objects stand inside each other. -/
def nesting : Value → Nat
  | .list items => itemsNesting items + 1
  | .object fields => fieldsNesting fields + 1
  | _ => 0

def itemsNesting : List Value → Nat
  | [] => 0
  | x :: xs => max x.nesting (itemsNesting xs)

def fieldsNesting : List (String × Value) → Nat
  | [] => 0
  | (_, x) :: fs => max x.nesting (fieldsNesting fs)

end

/-- There is no floating-point number in the value. -/
def FloatFree (v : Value) : Prop := ∀ x, .double x ∉ v.numbers

/-- All numbers in the value are integers of 64 bits. -/
def Integral (v : Value) : Prop := ∀ x ∈ v.numbers, ∃ i, x = .integer i ∧ Number.InRange i

section Parts

variable {items : List Value} {fields : List (String × Value)}

theorem numbers_list (items : List Value) : (list items).numbers = items.flatMap numbers := by
  rw [numbers]
  induction items with
  | nil => rfl
  | cons x xs ih => simp [itemsNumbers, ih]

theorem numbers_object (fields : List (String × Value)) :
    (object fields).numbers = fields.flatMap fun f => f.2.numbers := by
  rw [numbers]
  induction fields with
  | nil => rfl
  | cons f fs ih => simp [fieldsNumbers, ih]

theorem mem_numbers_item {x : Value} (member : x ∈ items) {n : Number} (there : n ∈ x.numbers) :
    n ∈ (list items).numbers := by
  rw [numbers_list]
  exact List.mem_flatMap.mpr ⟨x, member, there⟩

theorem mem_numbers_field {f : String × Value} (member : f ∈ fields) {n : Number}
    (there : n ∈ f.2.numbers) : n ∈ (object fields).numbers := by
  rw [numbers_object]
  exact List.mem_flatMap.mpr ⟨f, member, there⟩

theorem itemsNesting_le_iff {n : Nat} :
    itemsNesting items ≤ n ↔ ∀ x ∈ items, x.nesting ≤ n := by
  induction items with
  | nil => simp [itemsNesting]
  | cons x xs ih => simp only [itemsNesting, Nat.max_le, List.forall_mem_cons, ih]

theorem fieldsNesting_le_iff {n : Nat} :
    fieldsNesting fields ≤ n ↔ ∀ f ∈ fields, f.2.nesting ≤ n := by
  induction fields with
  | nil => simp [fieldsNesting]
  | cons f fs ih => simp only [fieldsNesting, Nat.max_le, List.forall_mem_cons, ih]

theorem canonicalItems_iff : CanonicalItems items ↔ ∀ x ∈ items, x.Canonical := by
  induction items with
  | nil => simp [CanonicalItems]
  | cons x xs ih => simp [CanonicalItems, ih]

theorem canonicalFields_iff : CanonicalFields fields ↔ ∀ f ∈ fields, f.2.Canonical := by
  induction fields with
  | nil => simp [CanonicalFields]
  | cons f fs ih => simp [CanonicalFields, ih]

theorem integral_list_iff : (list items).Integral ↔ ∀ x ∈ items, x.Integral := by
  simp only [Integral, numbers_list, List.mem_flatMap]
  constructor
  · intro integral x hx n hn
    exact integral n ⟨x, hx, hn⟩
  · rintro parts n ⟨x, hx, hn⟩
    exact parts x hx n hn

theorem integral_object_iff : (object fields).Integral ↔ ∀ f ∈ fields, f.2.Integral := by
  simp only [Integral, numbers_object, List.mem_flatMap]
  constructor
  · intro integral f hf n hn
    exact integral n ⟨f, hf, hn⟩
  · rintro parts n ⟨f, hf, hn⟩
    exact parts f hf n hn

end Parts

/-- What holds of a value whenever it holds of its parts holds of all values. -/
@[elab_as_elim]
theorem parts_induction {P : Value → Prop} (null : P .null) (bool : ∀ b, P (.bool b))
    (number : ∀ n, P (.number n)) (text : ∀ s, P (.text s))
    (list : ∀ items, (∀ x ∈ items, P x) → P (.list items))
    (object : ∀ fields, (∀ f ∈ fields, P f.2) → P (.object fields)) (v : Value) : P v := by
  refine @Value.rec P (fun items => ∀ x ∈ items, P x) (fun fields => ∀ f ∈ fields, P f.2)
    (fun f => P f.2) null bool number text list object ?_ ?_ ?_ ?_ ?_ v
  · simp
  · intro x xs first rest
    simpa using ⟨first, rest⟩
  · simp
  · intro f fs first rest
    simpa using ⟨first, fun k x => rest (k, x)⟩
  · exact fun _ _ part => part

/-- A canonical value without floating-point numbers has only integers of 64 bits. -/
theorem integral_of_canonical {v : Value} (canonical : v.Canonical) (floatFree : v.FloatFree) :
    v.Integral := by
  induction v using parts_induction with
  | null => simp [Integral, numbers]
  | bool b => simp [Integral, numbers]
  | text s => simp [Integral, numbers]
  | number n =>
    cases n with
    | integer i => simpa [Integral, numbers, Canonical] using canonical
    | double x => exact absurd (List.mem_singleton_self _) (floatFree x)
  | list items ih =>
    have parts := canonicalItems_iff.mp canonical
    refine integral_list_iff.mpr fun x hx => ih x hx (parts x hx) fun y hy => ?_
    exact floatFree y (mem_numbers_item hx hy)
  | object fields ih =>
    have parts := canonicalFields_iff.mp canonical.2
    refine integral_object_iff.mpr fun f hf => ih f hf (parts f hf) fun y hy => ?_
    exact floatFree y (mem_numbers_field hf hy)

end Value

end TaskDecoration
