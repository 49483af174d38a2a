import TaskDecoration.Proofs.Numerals
import TaskDecoration.Proofs.Quoting
import TaskDecoration.Proofs.Values

/-!
# Reading values back

The text of a value with integers only is read as the tree of that value, whatever may stand behind
it (`tree?_chars`), and the tree has that value unless it is nested too deep (`value?_ofValue`). So
a JSON text is read back as the value it was written for (`ofJson?_chars`).
-/

set_option autoImplicit false

namespace TaskDecoration

/-- Entries that are in order already make up their dictionary as they are. -/
theorem Dict.entries_ofList {α : Type} {entries : List (String × α)} (sorted : SortedKeys entries) :
    (Dict.ofList entries).entries = entries := by
  have same : Dict.ofList entries = ⟨entries, sorted⟩ := by
    refine Dict.ext fun k => ?_
    exact (Dict.get?_insertMany .empty ⟨entries, sorted⟩ k).trans (by simp)
  rw [same]

namespace Json

mutual

/-- The tree of a value. -/
def Tree.ofValue : Value → Tree
  | .null => .null
  | .bool b => .bool b
  | .number n => .number (some n)
  | .text s => .text (some s)
  | .list items => .list (ofItems items)
  | .object fields => .object (ofFields fields)

def Tree.ofItems : List Value → List Tree
  | [] => []
  | x :: xs => ofValue x :: ofItems xs

def Tree.ofFields : List (String × Value) → List (Option String × Tree)
  | [] => []
  | (k, x) :: fs => (some k, ofValue x) :: ofFields fs

end

theorem Tree.ofItems_eq (items : List Value) : ofItems items = items.map ofValue := by
  induction items with
  | nil => rfl
  | cons x xs ih => simp [ofItems, ih]

theorem Tree.ofFields_eq (fields : List (String × Value)) :
    ofFields fields = fields.map fun f => (some f.1, ofValue f.2) := by
  induction fields with
  | nil => rfl
  | cons f fs ih => simp [ofFields, ih]

section Ends

variable {c : Char} {cs rest : List Char} {v : Value}

/-- What the text of a value begins with. -/
def Opens (c : Char) : Prop := c.isDigit = true ∨ c ∈ ['-', 'n', 't', 'f', '"', '[', '\x7b']

/-- What the text of a value ends with. -/
def Shuts (c : Char) : Prop := c.isDigit = true ∨ c ∈ ['l', 'e', '"', ']', '\x7d']

instance (c : Char) : Decidable (Opens c) := inferInstanceAs (Decidable (_ ∨ _))

instance (c : Char) : Decidable (Shuts c) := inferInstanceAs (Decidable (_ ∨ _))

theorem intChars_ends (i : Int) :
    (∃ c cs, Text.intChars i = c :: cs ∧ (c.isDigit = true ∨ c = '-')) ∧
      ∃ c cs, Text.intChars i = cs ++ [c] ∧ c.isDigit = true := by
  have last (n : Nat) : ∃ c cs, Text.natChars n = cs ++ [c] ∧ c.isDigit = true := by
    rcases List.eq_nil_or_concat (Text.natChars n) with empty | ⟨cs, c, split⟩
    · exact absurd empty Nat.toDigits_ne_nil
    · rw [List.concat_eq_append] at split
      exact ⟨c, cs, split, isDigit_of_mem_natChars (n := n) (by simp [split])⟩
  cases i with
  | ofNat n =>
    obtain ⟨c, cs, split, digit⟩ := natChars_eq_cons n
    exact ⟨⟨c, cs, split, .inl digit⟩, last n⟩
  | negSucc n =>
    obtain ⟨c, cs, split, digit⟩ := last (n + 1)
    exact ⟨⟨'-', _, rfl, .inr rfl⟩, c, '-' :: cs, congrArg ('-' :: ·) split, digit⟩

theorem skipBlanks_opens (opens : Opens c) (cs : List Char) : skipBlanks (c :: cs) = c :: cs := by
  have other : isBlank c = false := by
    simp only [isBlank, Bool.or_eq_false_iff, beq_eq_false_iff_ne]
    refine ⟨⟨⟨?_, ?_⟩, ?_⟩, ?_⟩ <;> rintro rfl <;> exact absurd opens (by decide)
  simp [skipBlanks, other]

/-- The text of a value begins with a character that says so. -/
theorem chars_opens (integral : v.Integral) : ∃ c cs, chars v = c :: cs ∧ Opens c := by
  cases v with
  | null => exact ⟨_, _, rfl, by decide⟩
  | bool b => cases b <;> exact ⟨_, _, rfl, by decide⟩
  | number n =>
    obtain ⟨i, rfl, -⟩ := integral n (List.mem_singleton_self n)
    obtain ⟨⟨c, cs, split, front⟩, -⟩ := intChars_ends i
    refine ⟨c, cs, split, ?_⟩
    rcases front with digit | rfl
    · exact .inl digit
    · decide
  | text s => exact ⟨_, _, rfl, by decide⟩
  | list items => exact ⟨_, _, rfl, by decide⟩
  | object fields => exact ⟨_, _, rfl, by decide⟩

/-- The text of a value ends with a character that says so. -/
theorem chars_shuts (integral : v.Integral) : ∃ c cs, chars v = cs ++ [c] ∧ Shuts c := by
  cases v with
  | null => exact ⟨'l', "nul".toList, rfl, by decide⟩
  | bool b =>
    cases b
    · exact ⟨'e', "fals".toList, rfl, by decide⟩
    · exact ⟨'e', "tru".toList, rfl, by decide⟩
  | number n =>
    obtain ⟨i, rfl, -⟩ := integral n (List.mem_singleton_self n)
    obtain ⟨-, c, cs, split, digit⟩ := intChars_ends i
    exact ⟨c, cs, split, .inl digit⟩
  | text s => exact ⟨'"', '"' :: s.toList.flatMap escapeChar, rfl, by decide⟩
  | list items => exact ⟨']', '[' :: itemsChars items, rfl, by decide⟩
  | object fields => exact ⟨'\x7d', '\x7b' :: fieldsChars fields, rfl, by decide⟩

theorem itemsChars_opens {x : Value} (integral : x.Integral) (xs : List Value) :
    ∃ c cs, itemsChars (x :: xs) = c :: cs ∧ Opens c := by
  obtain ⟨c, cs, split, opens⟩ := chars_opens integral
  cases xs with
  | nil => exact ⟨c, cs, by rw [itemsChars, split], opens⟩
  | cons y ys => exact ⟨c, _, by rw [itemsChars, split, List.cons_append], opens⟩

theorem fieldsChars_opens (f : String × Value) (fs : List (String × Value)) :
    ∃ cs, fieldsChars (f :: fs) = '"' :: cs := by
  cases fs with
  | nil => exact ⟨_, by rw [fieldsChars, quote, List.cons_append]⟩
  | cons g gs => exact ⟨_, by rw [fieldsChars, quote, List.cons_append]⟩

end Ends

section Reading

variable {c : Char}

theorem tree?_number (number : c.isDigit = true ∨ c = '-') (n : Nat) (cs : List Char) :
    tree? (n + 1) (c :: cs) =
      (numeral? (c :: cs)).map fun (x, rest) => (.number x.number?, rest) := by
  have opens : Opens c := by
    rcases number with digit | rfl
    · exact .inl digit
    · decide
  rw [tree?, skipBlanks_opens opens]
  split
  case h_7 => rfl
  all_goals
    next same =>
      obtain ⟨rfl, -⟩ := List.cons.inj same
      exact absurd number (by decide)

/-- A bracket opens a list, which is empty if the next thing closes it. -/
theorem tree?_bracket (n : Nat) (cs : List Char) :
    tree? (n + 1) ('[' :: cs) = match skipBlanks cs with
      | ']' :: rest => some (.list [], rest)
      | cs => (items? n cs).map fun (xs, rest) => (.list xs, rest) := rfl

theorem tree?_list (opens : Opens c) (n : Nat) (cs : List Char) :
    tree? (n + 1) ('[' :: c :: cs) =
      (items? n (c :: cs)).map fun (xs, rest) => (.list xs, rest) := by
  rw [tree?_bracket, skipBlanks_opens opens]
  split
  · next rest same =>
    obtain ⟨rfl, -⟩ := List.cons.inj same
    exact absurd opens (by decide)
  · rfl

/-- What is read of a value, by the text that is left for it. -/
def Rereads (v : Value) : Prop :=
  ∀ n rest, (chars v).length < n → Closes rest → tree? n (chars v ++ rest) = some (.ofValue v, rest)

theorem items?_itemsChars {items : List Value} (some : items ≠ [])
    (parts : ∀ x ∈ items, Rereads x) (n : Nat) (rest : List Char)
    (enough : (itemsChars items).length + 1 < n) :
    items? n (itemsChars items ++ ']' :: rest) = .some (items.map Tree.ofValue, rest) := by
  induction items generalizing n with
  | nil => exact absurd rfl some
  | cons x xs ih =>
    obtain ⟨n, rfl⟩ := Nat.exists_eq_succ_of_ne_zero (Nat.ne_zero_of_lt enough)
    have first := parts x List.mem_cons_self n
    cases xs with
    | nil =>
      have read := first (']' :: rest) (by rw [itemsChars] at enough; omega)
        (closes_cons.mpr (by simp))
      rw [itemsChars, items?, read]
      rfl
    | cons y ys =>
      rw [itemsChars, List.length_append, List.length_cons] at enough
      have read := first (',' :: (itemsChars (y :: ys) ++ ']' :: rest)) (by omega)
        (closes_cons.mpr (by simp))
      have behind := ih (List.cons_ne_nil y ys) (fun z hz => parts z (List.mem_cons_of_mem x hz)) n
        (by omega)
      rw [itemsChars, List.append_assoc, List.cons_append, items?, read]
      change (items? n (itemsChars (y :: ys) ++ ']' :: rest)) >>= _ = _
      rw [behind]
      rfl

/-- The name and the value of a field are read, and what stands behind them says how it goes on. -/
theorem fields?_field (k : String) {t : Tree} {n : Nat} {cs rest : List Char}
    (read : tree? n cs = some (t, rest)) :
    fields? (n + 1) (quote k ++ ':' :: cs) =
      match skipBlanks rest with
      | '\x7d' :: rest => some ([(some k, t)], rest)
      | ',' :: cs => do
        let (fs, rest) ← fields? n cs
        return ((some k, t) :: fs, rest)
      | _ => none := by
  have name := quoted?_quote k (':' :: cs)
  rw [quote, List.cons_append, List.append_assoc, List.singleton_append, fields?]
  change (quoted? (k.toList.flatMap escapeChar ++ '"' :: ':' :: cs)) >>= _ = _
  rw [name]
  change (tree? n cs) >>= _ = _
  rw [read]
  rfl

theorem fields?_fieldsChars {fields : List (String × Value)} (some : fields ≠ [])
    (parts : ∀ f ∈ fields, Rereads f.2) (n : Nat) (rest : List Char)
    (enough : (fieldsChars fields).length + 1 < n) :
    fields? n (fieldsChars fields ++ '\x7d' :: rest) =
      .some (fields.map fun f => (.some f.1, Tree.ofValue f.2), rest) := by
  induction fields generalizing n with
  | nil => exact absurd rfl some
  | cons f fs ih =>
    obtain ⟨n, rfl⟩ := Nat.exists_eq_succ_of_ne_zero (Nat.ne_zero_of_lt enough)
    obtain ⟨k, x⟩ := f
    have first : Rereads x := parts (k, x) List.mem_cons_self
    cases fs with
    | nil =>
      rw [fieldsChars, List.length_append, List.length_cons] at enough
      have read := first n ('\x7d' :: rest) (by omega) (closes_cons.mpr (by simp))
      rw [fieldsChars, List.append_assoc, List.cons_append]
      exact fields?_field k read
    | cons g gs =>
      rw [fieldsChars, List.length_append, List.length_cons, List.length_append,
        List.length_cons] at enough
      have read := first n (',' :: (fieldsChars (g :: gs) ++ '\x7d' :: rest)) (by omega)
        (closes_cons.mpr (by simp))
      have behind := ih (List.cons_ne_nil g gs) (fun h hh => parts h (List.mem_cons_of_mem _ hh)) n
        (by omega)
      have field := fields?_field k read
      change _ = (fields? n (fieldsChars (g :: gs) ++ '\x7d' :: rest)) >>= _ at field
      rw [behind] at field
      rw [fieldsChars, List.append_assoc, List.cons_append, List.append_assoc, List.cons_append]
      exact field

theorem rereads_number {x : Number} (integral : (Value.number x).Integral) :
    Rereads (.number x) := by
  intro n rest enough closes
  obtain ⟨n, rfl⟩ := Nat.exists_eq_succ_of_ne_zero (Nat.ne_zero_of_lt enough)
  obtain ⟨i, rfl, word⟩ := integral x (List.mem_singleton_self x)
  obtain ⟨⟨c, cs, split, front⟩, -⟩ := intChars_ends i
  have read := numeral?_intChars i closes
  change tree? (n + 1) (Text.intChars i ++ rest) = _
  rw [split, List.cons_append] at read ⊢
  rw [tree?_number front, read, Option.map_some]
  dsimp only
  rw [number?_numeralOf word]
  rfl

theorem rereads_text (s : String) : Rereads (.text s) := by
  intro n rest enough closes
  obtain ⟨n, rfl⟩ := Nat.exists_eq_succ_of_ne_zero (Nat.ne_zero_of_lt enough)
  have read := quoted?_quote s rest
  change (quoted? ((s.toList.flatMap escapeChar ++ ['"']) ++ rest)).map _ = _
  rw [List.append_assoc, List.singleton_append, read]
  rfl

theorem rereads_list {items : List Value} (integral : ∀ x ∈ items, x.Integral)
    (parts : ∀ x ∈ items, Rereads x) : Rereads (.list items) := by
  intro n rest enough closes
  obtain ⟨n, rfl⟩ := Nat.exists_eq_succ_of_ne_zero (Nat.ne_zero_of_lt enough)
  cases items with
  | nil => rfl
  | cons x xs =>
    obtain ⟨c, cs, split, opens⟩ := itemsChars_opens (integral x List.mem_cons_self) xs
    have read := items?_itemsChars (List.cons_ne_nil x xs) parts n rest (by
      rw [chars, List.length_cons, List.length_append, List.length_singleton] at enough
      omega)
    rw [chars, List.cons_append, List.append_assoc, List.singleton_append]
    rw [split, List.cons_append] at read ⊢
    rw [tree?_list opens, read, Option.map_some, Tree.ofValue, Tree.ofItems_eq]

theorem rereads_object {fields : List (String × Value)} (parts : ∀ f ∈ fields, Rereads f.2) :
    Rereads (.object fields) := by
  intro n rest enough closes
  obtain ⟨n, rfl⟩ := Nat.exists_eq_succ_of_ne_zero (Nat.ne_zero_of_lt enough)
  cases fields with
  | nil => rfl
  | cons f fs =>
    have read := fields?_fieldsChars (List.cons_ne_nil f fs) parts n rest (by
      rw [chars, List.length_cons, List.length_append, List.length_singleton] at enough
      omega)
    obtain ⟨cs, split⟩ := fieldsChars_opens f fs
    rw [chars, List.cons_append, List.append_assoc, List.singleton_append]
    rw [split, List.cons_append] at read ⊢
    change (fields? n _).map _ = _
    rw [read, Option.map_some, Tree.ofValue, Tree.ofFields_eq]

/-- The text of a value is read as its tree. -/
theorem tree?_chars {v : Value} (integral : v.Integral) : Rereads v := by
  induction v using Value.parts_induction with
  | null =>
    intro n rest enough closes
    obtain ⟨n, rfl⟩ := Nat.exists_eq_succ_of_ne_zero (Nat.ne_zero_of_lt enough)
    rfl
  | bool b =>
    intro n rest enough closes
    obtain ⟨n, rfl⟩ := Nat.exists_eq_succ_of_ne_zero (Nat.ne_zero_of_lt enough)
    cases b <;> rfl
  | number x => exact rereads_number integral
  | text s => exact rereads_text s
  | list items ih =>
    have integral := Value.integral_list_iff.mp integral
    exact rereads_list integral fun x hx => ih x hx (integral x hx)
  | object fields ih =>
    have integral := Value.integral_object_iff.mp integral
    exact rereads_object fun f hf => ih f hf (integral f hf)

end Reading

section Values

variable {α β γ : Type}

theorem mapM_map_some {f : α → β} {g : β → Option γ} {h : α → γ} {xs : List α}
    (made : ∀ x ∈ xs, g (f x) = some (h x)) : (xs.map f).mapM g = some (xs.map h) := by
  induction xs with
  | nil => rfl
  | cons x xs ih =>
    have first := made x List.mem_cons_self
    have rest := ih fun y hy => made y (List.mem_cons_of_mem x hy)
    rw [List.map_cons, List.mapM_cons, first, rest]
    rfl

theorem readableFields?_ofFields (fields : List (String × Value)) :
    Tree.readableFields? (Tree.ofFields fields) =
      some (fields.map fun f => (f.1, Tree.ofValue f.2)) := by
  induction fields with
  | nil => rfl
  | cons f fs ih =>
    unfold Tree.readableFields? at ih ⊢
    rw [Tree.ofFields, List.mapM_cons, ih]
    rfl

/-- The tree of a value has that value. -/
theorem value?_ofValue {v : Value} (canonical : v.Canonical) {depth : Nat}
    (shallow : v.nesting ≤ depth) : (Tree.ofValue v).value? depth = some v := by
  induction v using Value.parts_induction generalizing depth with
  | null => rw [Tree.ofValue, Tree.value?]
  | bool b => rw [Tree.ofValue, Tree.value?]
  | number n => rw [Tree.ofValue, Tree.value?, Option.map_some]
  | text s => rw [Tree.ofValue, Tree.value?, Option.map_some]
  | list items ih =>
    cases depth with
    | zero => cases shallow
    | succ depth =>
      have parts := Value.canonicalItems_iff.mp canonical
      have back : (items.map Tree.ofValue).mapM (Tree.value? depth) = some (items.map id) := by
        apply mapM_map_some
        intro x hx
        apply ih x hx (parts x hx)
        exact Value.itemsNesting_le_iff.mp (Nat.le_of_succ_le_succ shallow) x hx
      rw [Tree.ofValue, Tree.ofItems_eq, Tree.value?, back, Option.map_some, List.map_id]
  | object fields ih =>
    cases depth with
    | zero => cases shallow
    | succ depth =>
      obtain ⟨sorted, canonical⟩ := canonical
      have parts := Value.canonicalFields_iff.mp canonical
      have back : (fields.map fun f => (f.1, Tree.ofValue f.2)).mapM
          (fun f => (f.2.value? depth).map fun v => (f.1, v)) = some (fields.map id) := by
        apply mapM_map_some
        intro f hf
        rw [ih f hf (parts f hf)]
        · rfl
        · exact Value.fieldsNesting_le_iff.mp (Nat.le_of_succ_le_succ shallow) f hf
      rw [Tree.ofValue, Tree.value?, readableFields?_ofFields]
      simp only [Option.bind_eq_bind, Option.bind_some, back, List.map_id]
      change some (Value.ofDict (.ofList fields)) = _
      unfold Value.ofDict
      rw [Dict.entries_ofList sorted]

end Values

/-- The text of a value is a JSON text and says what the value is. -/
theorem parse?_chars {v : Value} (integral : v.Integral) :
    Tree.parse? (chars v) = some (.ofValue v) := by
  have read := tree?_chars integral ((chars v).length + 1) [] (Nat.lt_succ_self _) closes_nil
  rw [List.append_nil] at read
  unfold Tree.parse?
  rw [read]
  rfl

/-- A value without floating-point numbers is read back from its text. -/
theorem ofJson?_chars {v : Value} (canonical : v.Canonical) (floatFree : v.FloatFree)
    (shallow : v.nesting ≤ depthLimit) : Value.ofJson? (chars v) = some v := by
  unfold Value.ofJson?
  rw [parse?_chars (Value.integral_of_canonical canonical floatFree)]
  exact value?_ofValue canonical shallow

end Json

end TaskDecoration
