/-!
# String-keyed dictionaries

A `Dict α` lists its entries in strictly increasing order of their keys, so two dictionaries
with the same look-ups are equal (`Dict.ext`) and the listing order never depends on the order
of insertion. Each operation is described by one equation through `get?`.
-/

set_option autoImplicit false

namespace TaskDecoration

variable {α β : Type}

/-- Puts `x` at key `k` into an ordered entry list, in place of an entry with that key. -/
def insertEntry (k : String) (x : α) : List (String × α) → List (String × α)
  | [] => [(k, x)]
  | (k', x') :: rest =>
    if k < k' then (k, x) :: (k', x') :: rest
    else if k = k' then (k, x) :: rest
    else (k', x') :: insertEntry k x rest

/-- Leaves out the entries with key `k`. -/
def eraseEntry (k : String) (entries : List (String × α)) : List (String × α) :=
  entries.filter fun e => e.1 ≠ k

/-- Keys increase strictly along the list. -/
def SortedKeys (entries : List (String × α)) : Prop :=
  entries.Pairwise fun a b => a.1 < b.1

theorem mem_insertEntry {k : String} {x : α} {e : String × α} {entries : List (String × α)}
    (h : e ∈ insertEntry k x entries) : e = (k, x) ∨ e ∈ entries := by
  induction entries with
  | nil => simpa [insertEntry] using h
  | cons head rest ih => grind [insertEntry]

theorem sortedKeys_insertEntry {k : String} {x : α} {entries : List (String × α)}
    (h : SortedKeys entries) : SortedKeys (insertEntry k x entries) := by
  induction entries with
  | nil => simp [insertEntry, SortedKeys]
  | cons head rest ih =>
    obtain ⟨k', x'⟩ := head
    obtain ⟨hhead, hrest⟩ := List.pairwise_cons.1 h
    have hne : ¬ k < k' → k ≠ k' → k' < k := by grind
    simp only [insertEntry]
    split
    · next hlt =>
      refine List.pairwise_cons.2 ⟨fun e he => ?_, h⟩
      rcases List.mem_cons.1 he with rfl | he
      · exact hlt
      · exact String.lt_trans hlt (hhead e he)
    · next hnlt =>
      split
      · next heq =>
        subst heq
        exact List.pairwise_cons.2 ⟨hhead, hrest⟩
      · next hneq =>
        refine List.pairwise_cons.2 ⟨fun e he => ?_, ih hrest⟩
        rcases mem_insertEntry he with rfl | he
        · exact hne hnlt hneq
        · exact hhead e he

theorem sortedKeys_eraseEntry {k : String} {entries : List (String × α)}
    (h : SortedKeys entries) : SortedKeys (eraseEntry k entries) :=
  h.sublist List.filter_sublist

theorem lookup_insertEntry {k l : String} {x : α} {entries : List (String × α)} :
    (insertEntry k x entries).lookup l = if l = k then some x else entries.lookup l := by
  induction entries with
  | nil => grind [insertEntry]
  | cons head rest ih => grind [insertEntry]

theorem lookup_eraseEntry {k l : String} {entries : List (String × α)} :
    (eraseEntry k entries).lookup l = if l = k then none else entries.lookup l := by
  induction entries with
  | nil => simp [eraseEntry]
  | cons head rest ih => grind [eraseEntry]

theorem lookup_map {f : α → β} {k : String} {entries : List (String × α)} :
    (entries.map fun e => (e.1, f e.2)).lookup k = (entries.lookup k).map f := by
  induction entries with
  | nil => rfl
  | cons head rest ih => grind

theorem lookup_of_mem {e : String × α} {entries : List (String × α)}
    (h : SortedKeys entries) (he : e ∈ entries) : entries.lookup e.1 = some e.2 := by
  obtain ⟨before, after, rfl⟩ := List.append_of_mem he
  refine List.lookup_eq_some_iff.2 ⟨before, after, rfl, fun p hp => ?_⟩
  have hlt := (List.pairwise_append.1 h).2.2 p hp e List.mem_cons_self
  exact bne_iff_ne.2 fun same => String.lt_irrefl _ (same ▸ hlt)

theorem mem_of_lookup {k : String} {x : α} {entries : List (String × α)}
    (h : entries.lookup k = some x) : (k, x) ∈ entries := by
  obtain ⟨before, after, rfl, -⟩ := List.lookup_eq_some_iff.1 h
  exact List.mem_append_right before List.mem_cons_self

/-- A key occurs once, so its first entry is the last one too. -/
theorem lookup_eq_getLast? {k : String} {entries : List (String × α)} (h : SortedKeys entries) :
    entries.lookup k = ((entries.filter (·.1 = k)).map (·.2)).getLast? := by
  induction entries with
  | nil => rfl
  | cons head rest ih =>
    obtain ⟨hhead, hrest⟩ := List.pairwise_cons.1 h
    rw [List.lookup_cons]
    by_cases hk : head.1 = k
    · have once : rest.filter (·.1 = k) = [] := by
        refine List.filter_eq_nil_iff.2 fun e he heq => ?_
        have hlt := hhead e he
        rw [hk, of_decide_eq_true heq] at hlt
        exact String.lt_irrefl _ hlt
      rw [List.filter_cons_of_pos (by simpa using hk), once, beq_iff_eq.2 hk.symm]
      rfl
    · rw [List.filter_cons_of_neg (by simpa using hk), ← ih hrest, beq_eq_false_iff_ne.2 (Ne.symm hk)]

/-- Ordered entry lists with the same look-ups are the same list. -/
theorem eq_of_lookup_eq {a b : List (String × α)} (ha : SortedKeys a) (hb : SortedKeys b)
    (h : ∀ k, a.lookup k = b.lookup k) : a = b := by
  have hmem : ∀ e : String × α, e ∈ a ↔ e ∈ b := fun e =>
    ⟨fun he => mem_of_lookup ((h e.1).symm.trans (lookup_of_mem ha he)),
     fun he => mem_of_lookup ((h e.1).trans (lookup_of_mem hb he))⟩
  clear h
  induction a generalizing b with
  | nil =>
    cases b with
    | nil => rfl
    | cons e rest => exact absurd ((hmem e).2 (by simp)) (by simp)
  | cons e rest ih =>
    cases b with
    | nil => exact absurd ((hmem e).1 (by simp)) (by simp)
    | cons e' rest' =>
      obtain ⟨he, hrest⟩ := List.pairwise_cons.1 ha
      obtain ⟨he', hrest'⟩ := List.pairwise_cons.1 hb
      have first : e = e' := by
        rcases List.mem_cons.1 ((hmem e).1 (by simp)) with h | h
        · exact h
        · rcases List.mem_cons.1 ((hmem e').2 (by simp)) with h' | h'
          · exact h'.symm
          · exact absurd (String.lt_trans (he _ h') (he' _ h)) (String.lt_irrefl _)
      subst first
      refine congrArg (e :: ·) (ih hrest hrest' fun x => ⟨fun hx => ?_, fun hx => ?_⟩)
      · rcases List.mem_cons.1 ((hmem x).1 (List.mem_cons_of_mem _ hx)) with rfl | h
        · exact absurd (he _ hx) (String.lt_irrefl _)
        · exact h
      · rcases List.mem_cons.1 ((hmem x).2 (List.mem_cons_of_mem _ hx)) with rfl | h
        · exact absurd (he' _ hx) (String.lt_irrefl _)
        · exact h

/-- A finite map from strings, listed in the order of its keys. -/
structure Dict (α : Type) where
  entries : List (String × α)
  sorted : SortedKeys entries

namespace Dict

instance [DecidableEq α] : DecidableEq (Dict α) := fun a b =>
  decidable_of_iff (a.entries = b.entries) ⟨fun h => by cases a; cases b; simp_all, congrArg _⟩

/-- The dictionary without entries. -/
def empty : Dict α := ⟨[], List.Pairwise.nil⟩

instance : Inhabited (Dict α) := ⟨empty⟩
instance : EmptyCollection (Dict α) := ⟨empty⟩

/-- The value at a key. -/
def get? (d : Dict α) (k : String) : Option α := d.entries.lookup k

/-- Whether a key has a value. -/
def contains (d : Dict α) (k : String) : Bool := (d.get? k).isSome

/-- Gives key `k` the value `x`. -/
def insert (d : Dict α) (k : String) (x : α) : Dict α :=
  ⟨insertEntry k x d.entries, sortedKeys_insertEntry d.sorted⟩

/-- Takes key `k` out. -/
def erase (d : Dict α) (k : String) : Dict α :=
  ⟨eraseEntry k d.entries, sortedKeys_eraseEntry d.sorted⟩

/-- Adds entries one after another, so the last one given for a key stays. -/
def insertMany (d : Dict α) (entries : List (String × α)) : Dict α :=
  entries.foldl (fun d e => d.insert e.1 e.2) d

/-- The dictionary of a list of entries; the last one given for a key stays. -/
def ofList (entries : List (String × α)) : Dict α := empty.insertMany entries

/-- The entries in the order of their keys. -/
def toList (d : Dict α) : List (String × α) := d.entries

/-- The keys in increasing order. -/
def keys (d : Dict α) : List String := d.entries.map (·.1)

def isEmpty (d : Dict α) : Bool := d.entries.isEmpty

def map (f : α → β) (d : Dict α) : Dict β :=
  ⟨d.entries.map fun e => (e.1, f e.2), by
    simpa [SortedKeys, List.pairwise_map] using d.sorted⟩

/-- The entries whose key passes `p`. -/
def filterKeys (p : String → Bool) (d : Dict α) : Dict α :=
  ⟨d.entries.filter fun e => p e.1, d.sorted.sublist List.filter_sublist⟩

/-- The union of two dictionaries; where both have a key, `e` wins. -/
def union (d e : Dict α) : Dict α := d.insertMany e.entries

theorem ext {d e : Dict α} (h : ∀ k, d.get? k = e.get? k) : d = e := by
  obtain ⟨a, ha⟩ := d
  obtain ⟨b, hb⟩ := e
  obtain rfl : a = b := eq_of_lookup_eq ha hb h
  rfl

@[simp] theorem get?_empty (k : String) : (empty : Dict α).get? k = none := rfl

theorem get?_insert (d : Dict α) (k l : String) (x : α) :
    (d.insert k x).get? l = if l = k then some x else d.get? l :=
  lookup_insertEntry

theorem get?_erase (d : Dict α) (k l : String) :
    (d.erase k).get? l = if l = k then none else d.get? l :=
  lookup_eraseEntry

theorem get?_map (f : α → β) (d : Dict α) (k : String) :
    (d.map f).get? k = (d.get? k).map f :=
  lookup_map

theorem get?_filterKeys (p : String → Bool) (d : Dict α) (k : String) :
    (d.filterKeys p).get? k = if p k then d.get? k else none := by
  obtain ⟨entries, hsorted⟩ := d
  simp only [filterKeys, get?]
  clear hsorted
  induction entries with
  | nil => simp
  | cons head rest ih => grind

/-- Of the values that are listed for a key, the last one stays. -/
theorem get?_insertMany_eq_getLast? (d : Dict α) (entries : List (String × α)) (k : String) :
    (d.insertMany entries).get? k =
      ((entries.filter (·.1 = k)).map (·.2)).getLast?.or (d.get? k) := by
  induction entries generalizing d with
  | nil => rfl
  | cons head rest ih =>
    change ((d.insert head.1 head.2).insertMany rest).get? k = _
    rw [ih, get?_insert]
    by_cases hk : head.1 = k
    · rw [if_pos hk.symm, List.filter_cons_of_pos (by simpa using hk), List.map_cons,
        List.getLast?_cons]
      cases ((rest.filter (·.1 = k)).map (·.2)).getLast? with
      | none => rfl
      | some x => rfl
    · rw [if_neg (Ne.symm hk), List.filter_cons_of_neg (by simpa using hk)]

/-- Entries of a dictionary that are added to another one replace what it has for their keys. -/
theorem get?_insertMany (d e : Dict α) (k : String) :
    (d.insertMany e.entries).get? k = (e.get? k).or (d.get? k) := by
  rw [get?_insertMany_eq_getLast?, ← lookup_eq_getLast? e.sorted]
  rfl

theorem mem_keys_iff {d : Dict α} {k : String} : k ∈ d.keys ↔ d.contains k = true := by
  constructor
  · intro h
    obtain ⟨e, he, rfl⟩ := List.mem_map.1 h
    simp [contains, get?, lookup_of_mem d.sorted he]
  · intro h
    obtain ⟨x, hx⟩ := Option.isSome_iff_exists.1 h
    exact List.mem_map.2 ⟨(k, x), mem_of_lookup hx, rfl⟩

end Dict

end TaskDecoration
