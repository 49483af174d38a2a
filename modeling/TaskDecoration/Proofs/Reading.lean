import TaskDecoration.Json.Reader
import TaskDecoration.Proofs.Values

/-!
# What is read is canonical

An integer that a numeral stands for has a word (`inRange_of_number?`), and an object is put
together as a dictionary. So whatever value a JSON text has, it is canonical
(`canonical_of_ofJson?`).
-/

set_option autoImplicit false

namespace TaskDecoration

/-- The entries of a dictionary are among those that it is made of. -/
theorem Dict.mem_insertMany {α : Type} {d : Dict α} {entries : List (String × α)}
    {e : String × α} (member : e ∈ (d.insertMany entries).entries) :
    e ∈ d.entries ∨ e ∈ entries := by
  induction entries generalizing d with
  | nil => exact .inl member
  | cons x xs ih =>
    rcases ih (d := d.insert x.1 x.2) member with before | later
    · rcases mem_insertEntry before with rfl | there
      · exact .inr List.mem_cons_self
      · exact .inl there
    · exact .inr (List.mem_cons_of_mem x later)

theorem Dict.mem_ofList {α : Type} {entries : List (String × α)} {e : String × α}
    (member : e ∈ (ofList entries).entries) : e ∈ entries := by
  rcases mem_insertMany member with absent | there
  · cases absent
  · exact there

/-- An object is canonical if what it is made of is. -/
theorem Value.canonical_ofList {entries : List (String × Value)}
    (parts : ∀ e ∈ entries, e.2.Canonical) : (Value.ofDict (.ofList entries)).Canonical :=
  ⟨Dict.sorted _, canonicalFields_iff.mpr fun e he => parts e (Dict.mem_ofList he)⟩

namespace Json

theorem exists_of_mapM_some {α β : Type} {g : α → Option β} {xs : List α} {ys : List β}
    (mapped : xs.mapM g = some ys) {y : β} (member : y ∈ ys) : ∃ x ∈ xs, g x = some y := by
  induction xs generalizing ys with
  | nil =>
    cases mapped
    cases member
  | cons x xs ih =>
    simp only [List.mapM_cons, Option.bind_eq_bind, Option.bind_eq_some_iff] at mapped
    obtain ⟨z, first, zs, rest, same⟩ := mapped
    cases same
    rcases List.mem_cons.mp member with rfl | inner
    · exact ⟨x, List.mem_cons_self, first⟩
    · obtain ⟨x', hx', there⟩ := ih rest inner
      exact ⟨x', List.mem_cons_of_mem x hx', there⟩

section Numbers

/-- Digits are absorbed into a word. -/
theorem absorb_lt {n : Nat} (word : n < Nat.pow 2 64) (ds : List Nat) :
    (Numeral.absorb n ds).1 < Nat.pow 2 64 := by
  induction ds generalizing n with
  | nil => exact word
  | cons d ds ih =>
    unfold Numeral.absorb
    split
    · next fits => exact ih fits
    · exact word

/-- An integer that a numeral stands for has a word. -/
theorem inRange_of_number? {n : Numeral} {i : Int} (read : n.number? = some (.integer i)) :
    Number.InRange i := by
  have small := absorb_lt (n := 0) (by decide) n.whole
  unfold Numeral.number? at read
  rcases absorbed : Numeral.absorb 0 n.whole with ⟨m, dropped⟩
  rw [absorbed] at small read
  dsimp only at small read
  split at read
  · cases read
    exact ⟨by omega, Int.ofNat_lt.mpr small⟩
  · split at read
    · next bounds =>
      cases read
      obtain ⟨-, positive, fits⟩ := bounds
      exact ⟨by omega, by omega⟩
    · simp only [Option.bind_eq_bind, Option.bind_eq_some_iff] at read
      obtain ⟨x, -, same⟩ := read
      cases same

end Numbers

/-- All integers in the tree have a word. -/
inductive Tree.Sound : Tree → Prop where
  | null : Sound .null
  | bool (b : Bool) : Sound (.bool b)
  | number {n : Option Number} (word : ∀ i, n = some (.integer i) → Number.InRange i) :
      Sound (.number n)
  | text (s : Option String) : Sound (.text s)
  | list {items : List Tree} (parts : ∀ t ∈ items, Sound t) : Sound (.list items)
  | object {fields : List (Option String × Tree)} (parts : ∀ f ∈ fields, Sound f.2) :
      Sound (.object fields)

/-- What is read of a text, by the bound for its depth. -/
structure Reads (n : Nat) : Prop where
  tree : ∀ {cs t rest}, tree? n cs = some (t, rest) → t.Sound
  items : ∀ {cs ts rest}, items? n cs = some (ts, rest) → ∀ t ∈ ts, t.Sound
  fields : ∀ {cs fs rest}, fields? n cs = some (fs, rest) → ∀ f ∈ fs, f.2.Sound

section Trees

variable {n : Nat} {cs rest : List Char}

theorem Reads.tree_succ (reads : Reads n) {t : Tree} (read : tree? (n + 1) cs = some (t, rest)) :
    t.Sound := by
  rw [tree?] at read
  split at read
  · obtain ⟨rest, -, same⟩ := Option.map_eq_some_iff.mp read
    cases same
    exact .null
  · obtain ⟨rest, -, same⟩ := Option.map_eq_some_iff.mp read
    cases same
    exact .bool true
  · obtain ⟨rest, -, same⟩ := Option.map_eq_some_iff.mp read
    cases same
    exact .bool false
  · obtain ⟨⟨s, rest⟩, -, same⟩ := Option.map_eq_some_iff.mp read
    cases same
    exact .text s
  · split at read
    · cases read
      exact .list (by simp)
    · obtain ⟨⟨ts, rest⟩, inner, same⟩ := Option.map_eq_some_iff.mp read
      cases same
      exact .list (reads.items inner)
  · split at read
    · cases read
      exact .object (by simp)
    · obtain ⟨⟨fs, rest⟩, inner, same⟩ := Option.map_eq_some_iff.mp read
      cases same
      exact .object (reads.fields inner)
  · obtain ⟨⟨x, rest⟩, -, same⟩ := Option.map_eq_some_iff.mp read
    cases same
    exact .number fun i written => inRange_of_number? written

theorem Reads.items_succ (reads : Reads n) {ts : List Tree}
    (read : items? (n + 1) cs = some (ts, rest)) : ∀ t ∈ ts, t.Sound := by
  rw [items?] at read
  simp only [Option.bind_eq_bind, Option.bind_eq_some_iff] at read
  obtain ⟨⟨x, cs⟩, first, read⟩ := read
  have sound := reads.tree first
  dsimp only at read
  split at read
  · cases read
    simpa using sound
  · obtain ⟨⟨xs, rest⟩, inner, same⟩ := Option.bind_eq_some_iff.mp read
    cases same
    exact List.forall_mem_cons.mpr ⟨sound, reads.items inner⟩
  · cases read

theorem Reads.fields_succ (reads : Reads n) {fs : List (Option String × Tree)}
    (read : fields? (n + 1) cs = some (fs, rest)) : ∀ f ∈ fs, f.2.Sound := by
  rw [fields?] at read
  split at read
  · obtain ⟨⟨name, cs⟩, -, read⟩ := Option.bind_eq_some_iff.mp read
    dsimp only at read
    split at read
    · obtain ⟨⟨x, cs⟩, first, read⟩ := Option.bind_eq_some_iff.mp read
      have sound := reads.tree first
      dsimp only at read
      split at read
      · cases read
        simpa using sound
      · obtain ⟨⟨xs, rest⟩, inner, same⟩ := Option.bind_eq_some_iff.mp read
        cases same
        exact List.forall_mem_cons.mpr ⟨sound, reads.fields inner⟩
      · cases read
    · cases read
  · cases read

theorem reads (n : Nat) : Reads n := by
  induction n with
  | zero => constructor <;> intro _ _ _ read <;> cases read
  | succ n ih => exact ⟨ih.tree_succ, ih.items_succ, ih.fields_succ⟩

end Trees

/-- The value of a tree that has been read is canonical. -/
theorem Tree.Sound.canonical {t : Tree} {depth : Nat} {v : Value} (sound : t.Sound)
    (valued : t.value? depth = some v) : v.Canonical := by
  induction sound generalizing depth v with
  | null =>
    rw [Tree.value?] at valued
    cases valued
    trivial
  | bool b =>
    rw [Tree.value?] at valued
    cases valued
    trivial
  | @number n word =>
    rw [Tree.value?] at valued
    obtain ⟨x, rfl, rfl⟩ := Option.map_eq_some_iff.mp valued
    cases x with
    | integer i => exact word i rfl
    | double x => trivial
  | text s =>
    rw [Tree.value?] at valued
    obtain ⟨x, rfl, rfl⟩ := Option.map_eq_some_iff.mp valued
    trivial
  | list parts ih =>
    cases depth with
    | zero => simp [Tree.value?] at valued
    | succ depth =>
      rw [Tree.value?] at valued
      obtain ⟨vs, mapped, rfl⟩ := Option.map_eq_some_iff.mp valued
      refine Value.canonicalItems_iff.mpr fun x hx => ?_
      obtain ⟨t, ht, there⟩ := exists_of_mapM_some mapped hx
      exact ih t ht there
  | object parts ih =>
    cases depth with
    | zero => simp [Tree.value?] at valued
    | succ depth =>
      rw [Tree.value?] at valued
      obtain ⟨fields, readable, valued⟩ := Option.bind_eq_some_iff.mp valued
      obtain ⟨entries, mapped, same⟩ := Option.bind_eq_some_iff.mp valued
      cases same
      refine Value.canonical_ofList fun f hf => ?_
      obtain ⟨g, hg, there⟩ := exists_of_mapM_some mapped hf
      obtain ⟨h, hh, named⟩ := exists_of_mapM_some readable hg
      obtain ⟨name, -, rfl⟩ := Option.map_eq_some_iff.mp named
      obtain ⟨x, valued, rfl⟩ := Option.map_eq_some_iff.mp there
      exact ih h hh valued

/-- What a JSON text is read as is canonical. -/
theorem canonical_of_ofJson? {cs : List Char} {v : Value} (read : Value.ofJson? cs = some v) :
    v.Canonical := by
  obtain ⟨t, parsed, valued⟩ := Option.bind_eq_some_iff.mp read
  obtain ⟨⟨t, rest⟩, tree, closed⟩ := Option.bind_eq_some_iff.mp parsed
  dsimp only at closed
  split at closed
  · cases closed
    exact ((reads _).tree tree).canonical valued
  · cases closed

end Json

end TaskDecoration
