import TaskDecoration.Hook
import TaskDecoration.Proofs.Decimals
import TaskDecoration.Proofs.Spellings

/-!
# Failure policies of hooks

A hook may be told by a truth value or an integer what to do about a failing exit status. The
declaration spells it out as a text, and the text is read again when the hook has run. Between the
two, integers above the signed words get lost: they are taken for the name of an environment
variable (`FailurePolicy.meaning_kept_iff`).
-/

set_option autoImplicit false

namespace TaskDecoration

section Spelling

variable {c : Char}

theorem toLower_of_isDigit (digit : c.isDigit = true) : c.toLower = c := by
  have bound : c.val ≤ '9'.val := (by simpa [Char.isDigit] using digit : _ ∧ _).2
  unfold Char.toLower
  rw [dif_neg]
  rintro ⟨capital, _⟩
  exact absurd (UInt32.le_trans capital bound) (by decide)

/-- The spelling of an integer has no letters. -/
theorem lowerAscii_intChars (i : Int) : Text.lowerAscii (Text.intChars i) = Text.intChars i := by
  have digits (n : Nat) : Text.lowerAscii (Text.natChars n) = Text.natChars n := by
    have each (c : Char) (member : c ∈ Text.natChars n) : c.toLower = c :=
      toLower_of_isDigit (Json.isDigit_of_mem_natChars member)
    exact (List.map_congr_left each).trans (List.map_id' _)
  cases i with
  | ofNat n => exact digits n
  | negSucc n => exact congrArg ('-' :: ·) (digits (n + 1))

/-- The spelling of an integer starts with a digit or the sign. -/
theorem intChars_ne_cons (letter : c.isDigit = false) (other : c ≠ '-') (i : Int)
    (cs : List Char) : Text.intChars i ≠ c :: cs := by
  cases i with
  | ofNat n => exact (Text.digits_natChars n).not_signed c letter cs
  | negSucc n =>
    intro same
    exact other (List.cons.inj same).1.symm

end Spelling

namespace FailurePolicy

/-- What a truth value or an integer means as a policy: true and all integers but zero mean
`fail`. Other values mean none. -/
def ofValue? : Value → Option FailurePolicy
  | .bool b => some (if b then fail else ignore)
  | .number (.integer i) => some (if i = 0 then ignore else fail)
  | _ => none

/-- The policy of a text that does not spell one out. -/
def named (text : String) (lookup : String → Option String) : FailurePolicy :=
  ((lookup text).bind fun v => literal? (Text.trim v.toList)).getD ignore

theorem resolve_eq (text : String) (lookup : String → Option String) :
    resolve text lookup = (literal? text.toList).getD (named text lookup) := by
  unfold resolve
  cases literal? text.toList <;> rfl

/-- The spelling of an integer spells out a policy if the integer is a signed word. -/
theorem literal?_intChars (i : Int) :
    literal? (Text.intChars i) =
      if Number.InSignedRange i then some (if i = 0 then ignore else fail) else none := by
  have yes : Text.intChars i ≠ "true".toList := intChars_ne_cons rfl (by decide) i _
  have no : Text.intChars i ≠ "false".toList := intChars_ne_cons rfl (by decide) i _
  unfold literal?
  rw [lowerAscii_intChars]
  dsimp only
  rw [if_neg yes, if_neg no, Text.signedWord?_intChars]
  split <;> rfl

/-- An integer that is given as a policy is a signed word. -/
def Spelled (v : Value) : Prop := ∀ i, v = .int i → Number.InSignedRange i

/-- What the spelling of a policy is read as. -/
theorem resolve_failureText {v : Value} {meant : FailurePolicy} (meaning : ofValue? v = some meant)
    (label : String) : ∃ text, Arguments.failureText label (some v) = .ok text ∧
      (Spelled v → ∀ lookup, resolve text lookup = meant) ∧
      (¬ Spelled v → meant = fail ∧ ∀ lookup, resolve text lookup = named text lookup) := by
  cases v with
  | bool b =>
    cases meaning
    refine ⟨if b then "true" else "false", rfl, fun _ lookup => ?_, fun unspelled => ?_⟩
    · cases b <;> rfl
    · exact absurd (fun i same => nomatch same) unspelled
  | number n =>
    cases n with
    | double x => cases meaning
    | integer i =>
      cases meaning
      have literal := literal?_intChars i
      refine ⟨String.ofList (Text.intChars i), rfl, fun spelled lookup => ?_, fun unspelled => ?_⟩
      · rw [if_pos (spelled i rfl)] at literal
        rw [resolve_eq, String.toList_ofList, literal]
        rfl
      · have outside : ¬ Number.InSignedRange i := by
          intro inside
          refine unspelled fun j same => ?_
          cases same
          exact inside
        rw [if_neg outside] at literal
        refine ⟨if_neg ?_, fun lookup => ?_⟩
        · rintro rfl
          exact outside (by decide)
        · rw [resolve_eq, String.toList_ofList, literal]
          rfl
  | _ => cases meaning

/-- A truth value or an integer that is given as a failure policy keeps its meaning under all
environments exactly if it is not an integer above the signed words. The text of such an integer
is the name of an environment variable, which has the say: failures are ignored without it, though
the integer means the opposite. -/
theorem meaning_kept_iff {a : Arguments} {v : Value} {meant : FailurePolicy}
    (given : a.get? Name.failByExitValue = some v) (word : v.Canonical)
    (meaning : ofValue? v = some meant) (label : String) :
    ∃ b text, a.resolveFailByExitValue label = .ok b ∧
      b.get? Name.failByExitValue = some (.text text) ∧
      ((∀ lookup, resolve text lookup = meant) ↔ ∀ i, v = .int i → i < Nat.pow 2 63) ∧
      ∀ i, v = .int i → Nat.pow 2 63 ≤ i →
        meant = fail ∧ ∀ lookup, resolve text lookup = named text lookup := by
  obtain ⟨text, spelling, kept, lost⟩ := resolve_failureText meaning label
  have ran : a.resolveFailByExitValue label = .ok (a.insert Name.failByExitValue (.text text)) := by
    unfold Arguments.resolveFailByExitValue
    rw [given, spelling]
    rfl
  have spelled : Spelled v ↔ ∀ i, v = .int i → i < Nat.pow 2 63 := by
    refine ⟨fun h i same => (h i same).2, fun h i same => ⟨?_, h i same⟩⟩
    subst same
    exact word.1
  refine ⟨_, text, ran, by simp, ?_, fun i same large => ?_⟩
  · rw [← spelled]
    refine ⟨fun always => ?_, kept⟩
    -- An environment without variables tells the two apart.
    by_contra unspelled
    obtain ⟨rfl, environment⟩ := lost unspelled
    cases (always fun _ => none).symm.trans (environment fun _ => none)
  · refine lost fun h => ?_
    have small := (h i same).2
    omega

/-- The least integer keeps its meaning. -/
theorem meaning_kept_iff_least :
    let v : Value := .int (-9223372036854775808)
    let a := Arguments.empty.insert Name.failByExitValue v
    a.get? Name.failByExitValue = some v ∧ v.Canonical ∧ ofValue? v = some fail ∧
      ∃ b text, a.resolveFailByExitValue "@prolog" = .ok b ∧
        b.get? Name.failByExitValue = some (.text text) ∧ ∀ lookup, resolve text lookup = fail := by
  intro v a
  have given : a.get? Name.failByExitValue = some v := rfl
  have word : v.Canonical := (by decide : Number.InRange (-9223372036854775808))
  obtain ⟨b, text, ran, stored, kept, -⟩ := meaning_kept_iff given word rfl "@prolog"
  refine ⟨given, word, rfl, b, text, ran, stored, kept.mpr fun i same => ?_⟩
  have value : -9223372036854775808 = i := Number.integer.inj (Value.number.inj same)
  rw [← value]
  decide

/-- The first integer above the signed words does not: where no environment variable is set, the
text of its policy is read as `ignore`. -/
theorem meaning_lost :
    let v : Value := .int 9223372036854775808
    let a := Arguments.empty.insert Name.failByExitValue v
    v.Canonical ∧ ofValue? v = some fail ∧ ∃ b, a.resolveFailByExitValue "@prolog" = .ok b ∧
      b.get? Name.failByExitValue = some (.text "9223372036854775808") ∧
      resolve "9223372036854775808" (fun _ => none) = ignore := by
  intro v a
  have word : v.Canonical := (by decide : Number.InRange 9223372036854775808)
  exact ⟨word, rfl, _, rfl, rfl, by decide⟩

end FailurePolicy

end TaskDecoration
