import Mathlib.Data.List.Find
import TaskDecoration.Arguments.Rules

/-!
# What rules make of argument names

Rules judge arguments in two passes. The first one looks for a mandatory name that is not there, and
the second one for a name that is not listed; of several such names it reports the first in the order
of their bytes. `Rules.Verdict` says the same without the passes, and `Rules.check_exact` that it is
the same. As a verdict looks at nothing but which names there are, arguments with the same names are
judged alike.

The names are kept in the order of their characters. In UTF-8 this is the order of their bytes
(`Text.bytes_lt`), since the first byte in which two characters differ is the greater one for the
greater character.
-/

set_option autoImplicit false

namespace TaskDecoration

namespace Text

/-- The bytes of a text in UTF-8. -/
def bytes (s : String) : List UInt8 := s.toByteArray.data.toList

theorem bytes_eq_flatMap (s : String) : bytes s = s.toList.flatMap String.utf8EncodeChar := by
  rw [bytes, ← String.utf8Encode_toList, List.utf8Encode, List.data_toByteArray]

/-- A greater character has greater bytes, whatever follows. -/
theorem utf8EncodeChar_lt {c d : Char} (smaller : c < d) (x y : List UInt8) :
    String.utf8EncodeChar c ++ x < String.utf8EncodeChar d ++ y := by
  have less : c.val.toNat < d.val.toNat := smaller
  have bound : d.val.toNat < 0x110000 := by
    rcases d.valid with low | high <;> omega
  unfold String.utf8EncodeChar
  generalize c.val.toNat = m at less ⊢
  generalize d.val.toNat = n at less bound ⊢
  dsimp only
  -- Digits to the base 64, with what marks the length of the encoding added to them.
  have digits (k : Nat) : k / 4096 = k / 64 / 64 ∧ k / 262144 = k / 64 / 64 / 64 := by omega
  rw [(digits m).1, (digits m).2, (digits n).1, (digits n).2]
  have byte {k : Nat} (small : k < 256) : (UInt8.ofNat k).toNat = k := Nat.mod_eq_of_lt small
  split_ifs <;>
    simp (disch := omega) only [List.cons_append, List.nil_append, List.cons_lt_cons_iff,
      UInt8.lt_iff_toNat_lt, ← UInt8.toNat_inj, byte] <;>
    omega

theorem flatMap_utf8EncodeChar_lt {cs ds : List Char} (smaller : cs < ds) :
    cs.flatMap String.utf8EncodeChar < ds.flatMap String.utf8EncodeChar := by
  induction cs generalizing ds with
  | nil =>
    cases ds with
    | nil => cases smaller
    | cons d ds =>
      obtain ⟨b, bs, encoded⟩ := List.exists_cons_of_ne_nil (String.utf8EncodeChar_ne_nil (c := d))
      rw [List.flatMap_nil, List.flatMap_cons, encoded]
      exact List.nil_lt_cons b _
  | cons c cs ih =>
    cases ds with
    | nil => cases smaller
    | cons d ds =>
      rw [List.flatMap_cons, List.flatMap_cons]
      rcases List.cons_lt_cons_iff.mp smaller with different | ⟨rfl, rest⟩
      · exact utf8EncodeChar_lt different _ _
      · exact List.append_left_lt (ih rest)

/-- The order of characters is the order of bytes. -/
theorem bytes_lt {s t : String} (smaller : s < t) : bytes s < bytes t := by
  rw [bytes_eq_flatMap, bytes_eq_flatMap]
  exact flatMap_utf8EncodeChar_lt (String.lt_iff.mp smaller)

end Text

/-- In a list with increasing keys, the first element to pass a test is the least one to do so. -/
theorem find?_eq_some_iff_least {α β : Type} [LT β] [Std.Asymm (α := β) (· < ·)] {key : α → β}
    {p : α → Bool} {l : List α} (sorted : l.Pairwise fun x y => key x < key y) {x : α} :
    l.find? p = some x ↔ x ∈ l ∧ p x = true ∧ ∀ y ∈ l, p y = true → y ≠ x → key x < key y := by
  have least {x : α} (found : l.find? p = some x) :
      x ∈ l ∧ p x = true ∧ ∀ y ∈ l, p y = true → y ≠ x → key x < key y := by
    obtain ⟨passes, before, after, rfl, none⟩ := List.find?_eq_some_iff_append.mp found
    refine ⟨by simp, passes, fun y member also different => ?_⟩
    rcases List.mem_append.mp member with early | late
    · exact absurd also (by simpa using none y early)
    · have rest := (List.mem_cons.mp late).resolve_left different
      exact (List.pairwise_cons.mp (List.pairwise_append.mp sorted).2.1).1 y rest
  refine ⟨least, fun ⟨member, passes, first⟩ => ?_⟩
  cases found : l.find? p with
  | none => exact absurd passes (List.find?_eq_none.mp found x member)
  | some y =>
    obtain ⟨there, also, before⟩ := least found
    by_cases same : y = x
    · rw [same]
    · have less := first y there also same
      exact absurd (before x member passes (Ne.symm same)) (Std.Asymm.asymm _ _ less)

namespace Rules

/-- The mandatory name `m` is present, or else its camel-case spelling is, and that is listed as
deprecated. -/
def Satisfied (r : Rules) (a : Arguments) (m : String) : Prop :=
  a.contains m = true ∨ camelCase m ∈ r.deprecated ∧ a.contains (camelCase m) = true

/-- The name is present, and the rules are neither open nor list it. -/
def Stray (r : Rules) (a : Arguments) (k : String) : Prop :=
  a.contains k = true ∧ r.isOpen = false ∧
    k ∉ r.mandatory ∧ k ∉ r.supported ∧ k ∉ r.deprecated

/-- What comes of the names of arguments. -/
inductive Verdict (r : Rules) (a : Arguments) (label : String) :
    Except ConfigurationError Unit → Prop where
  | accepted (satisfied : ∀ m ∈ r.mandatory, r.Satisfied a m) (known : ∀ k, ¬ r.Stray a k) :
      Verdict r a label (.ok ())
  | missing {before after : List String} {m : String} (order : r.mandatory = before ++ m :: after)
      (satisfied : ∀ n ∈ before, r.Satisfied a n) (absent : ¬ r.Satisfied a m) :
      Verdict r a label (.error (.missingArgument label m))
  | unsupported {k : String} (satisfied : ∀ m ∈ r.mandatory, r.Satisfied a m) (stray : r.Stray a k)
      (least : ∀ l, r.Stray a l → l ≠ k → Text.bytes k < Text.bytes l) :
      Verdict r a label (.error (.unsupportedArgument label k))

variable {r : Rules} {a b : Arguments} {label : String}

theorem given_iff {m : String} : r.given a m = true ↔ r.Satisfied a m := by
  simp [given, Satisfied]

theorem stray_iff {k : String} : r.Stray a k ↔ k ∈ a.keyword.keys ∧ (!r.knows k) = true := by
  simp [Dict.mem_keys_iff, knows, Stray, Arguments.contains, and_assoc]

/-- The first pass comes to its end. -/
theorem find?_given_eq_none_iff :
    r.mandatory.find? (!r.given a ·) = none ↔ ∀ m ∈ r.mandatory, r.Satisfied a m := by
  simp [given_iff]

/-- The first pass stops at a mandatory name. -/
theorem find?_given_eq_some_iff {m : String} :
    r.mandatory.find? (!r.given a ·) = some m ↔ ¬ r.Satisfied a m ∧
      ∃ before after, r.mandatory = before ++ m :: after ∧ ∀ n ∈ before, r.Satisfied a n := by
  simp [List.find?_eq_some_iff_append, ← given_iff]

/-- The second pass comes to its end. -/
theorem find?_knows_eq_none_iff :
    a.keyword.keys.find? (!r.knows ·) = none ↔ ∀ k, ¬ r.Stray a k := by
  simp [stray_iff]

/-- The second pass stops at a name. -/
theorem find?_knows_eq_some_iff {k : String} :
    a.keyword.keys.find? (!r.knows ·) = some k ↔
      r.Stray a k ∧ ∀ l, r.Stray a l → l ≠ k → Text.bytes k < Text.bytes l := by
  have sorted : a.keyword.keys.Pairwise fun k l => Text.bytes k < Text.bytes l :=
    List.pairwise_map.mpr (a.keyword.sorted.imp Text.bytes_lt)
  rw [find?_eq_some_iff_least sorted]
  simp only [stray_iff, and_assoc, and_imp]

/-- Each of the ways in which the passes can end is a verdict. -/
theorem check_verdict (r : Rules) (a : Arguments) (label : String) :
    r.Verdict a label (r.check a label) := by
  unfold check
  cases first : r.mandatory.find? (!r.given a ·) with
  | some m =>
    obtain ⟨absent, before, after, order, satisfied⟩ := find?_given_eq_some_iff.mp first
    exact .missing order satisfied absent
  | none =>
    have satisfied := find?_given_eq_none_iff.mp first
    dsimp only
    cases second : a.keyword.keys.find? (!r.knows ·) with
    | some k =>
      obtain ⟨stray, least⟩ := find?_knows_eq_some_iff.mp second
      exact .unsupported satisfied stray least
    | none => exact .accepted satisfied (find?_knows_eq_none_iff.mp second)

/-- A verdict fixes how each of the passes ends. -/
theorem Verdict.check_eq {result : Except ConfigurationError Unit}
    (verdict : r.Verdict a label result) : r.check a label = result := by
  unfold check
  cases verdict with
  | accepted satisfied known =>
    rw [find?_given_eq_none_iff.mpr satisfied, find?_knows_eq_none_iff.mpr known]
  | missing order satisfied absent =>
    rw [find?_given_eq_some_iff.mpr ⟨absent, _, _, order, satisfied⟩]
  | unsupported satisfied stray least =>
    rw [find?_given_eq_none_iff.mpr satisfied, find?_knows_eq_some_iff.mpr ⟨stray, least⟩]

/-- What is judged is which names there are. -/
theorem Verdict.congr {result : Except ConfigurationError Unit} (verdict : r.Verdict a label result)
    (same : ∀ k, b.contains k = a.contains k) : r.Verdict b label result := by
  have satisfied (m : String) : r.Satisfied b m ↔ r.Satisfied a m := by
    rw [Satisfied, Satisfied, same, same]
  have stray (k : String) : r.Stray b k ↔ r.Stray a k := by
    rw [Stray, Stray, same]
  cases verdict with
  | accepted given known =>
    exact .accepted (by simpa only [satisfied] using given) (by simpa only [stray] using known)
  | missing order given absent =>
    exact .missing order (by simpa only [satisfied] using given) (by rwa [satisfied])
  | unsupported given here least =>
    exact .unsupported (by simpa only [satisfied] using given) ((stray _).mpr here)
      (by simpa only [stray] using least)

/-- Checking arguments comes to exactly the verdict on their names, and to the same for all arguments
that have these names, whatever their values, and whatever arguments without a name there are. -/
theorem check_exact (r : Rules) (a : Arguments) (label : String) :
    (∀ result, r.check a label = result ↔ r.Verdict a label result) ∧
      ∀ b : Arguments, (∀ k, b.contains k = a.contains k) → r.check b label = r.check a label := by
  refine ⟨fun result => ⟨?_, Verdict.check_eq⟩, fun b same => ?_⟩
  · rintro rfl
    exact check_verdict r a label
  · exact ((check_verdict r a label).congr same).check_eq

/-- A directory is given in its older spelling, and so all that is wrong is that two names are not
listed. The same names in another order, with other values and something positional, end alike. -/
theorem check_exact_reordered :
    let r := closed ["binary", "working_dir"] ["params"] ["workingDir"]
    let a := Arguments.ofDict (.ofList
      [("zone", .null), ("binary", .text "ls"), ("workingDir", .text "/"), ("Zone", .null)])
    let b : Arguments := ⟨[.null], .ofList
      [("Zone", .list []), ("workingDir", .null), ("binary", .null), ("zone", .list [])]⟩
    r.check a "@binary" = .error (.unsupportedArgument "@binary" "Zone") ∧
      r.check b "@binary" = r.check a "@binary" := by
  intro r a b
  have names : b.keyword.keys = a.keyword.keys := by decide +kernel
  have same (k : String) : b.contains k = a.contains k := by
    rw [Bool.eq_iff_iff, Arguments.contains, Arguments.contains, ← Dict.mem_keys_iff, names,
      Dict.mem_keys_iff]
  exact ⟨by decide +kernel, (check_exact r a "@binary").2 b same⟩

end Rules

end TaskDecoration
