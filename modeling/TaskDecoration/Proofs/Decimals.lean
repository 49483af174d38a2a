import TaskDecoration.Proofs.Numerals

/-!
# Decimal numbers in texts

What the readers of integers make of a run of digits, of whatever length. A text of 64 bits has a
bound, and a run that denotes more is not read as another number but not at all (`word?_digits`).
The decimal spelling of an integer is read back as that integer exactly if it is a signed word
(`signedWord?_intChars`).
-/

set_option autoImplicit false

namespace TaskDecoration

namespace Text

/-- A run of decimal digits, one at least. -/
structure Digits (cs : List Char) : Prop where
  nonempty : cs ≠ []
  all : ∀ c ∈ cs, c.isDigit = true

/-- The number that a run of digits denotes. -/
def denoted (cs : List Char) : Nat := Nat.ofDigitChars 10 cs 0

/-- The decimal spelling of a natural number consists of digits, and denotes the number. -/
theorem digits_natChars (n : Nat) : Digits (natChars n) where
  nonempty := Nat.toDigits_ne_nil
  all _ member := Json.isDigit_of_mem_natChars member

theorem denoted_natChars (n : Nat) : denoted (natChars n) = n := Nat.ofDigitChars_ten_toDigits

section Reading

variable {cs : List Char}

theorem foldlM_digits (all : ∀ c ∈ cs, c.isDigit = true) (n : Nat) :
    cs.foldlM (fun n c => (digitValue? c).map fun d => n * 10 + d) n =
      some (Nat.ofDigitChars 10 cs n) := by
  induction cs generalizing n with
  | nil => rfl
  | cons c cs ih =>
    have value := Json.digitValue?_of_isDigit (all c List.mem_cons_self)
    have behind := ih (fun d hd => all d (List.mem_cons_of_mem c hd))
      (10 * n + (c.toNat - '0'.toNat))
    rw [List.foldlM_cons, value, Nat.ofDigitChars_cons, ← behind, Nat.mul_comm 10 n]
    rfl

/-- A run of digits is read as the number it denotes, however long it is. -/
theorem decimal?_digits (digits : Digits cs) : decimal? cs = some (denoted cs) := by
  unfold decimal?
  rw [if_neg (by simpa using digits.nonempty), foldlM_digits digits.all]
  rfl

/-- A run of digits does not start with a sign. -/
theorem Digits.not_signed (digits : Digits cs) (sign : Char) (other : sign.isDigit = false)
    (rest : List Char) : cs ≠ sign :: rest := by
  rintro rfl
  cases other.symm.trans (digits.all sign List.mem_cons_self)

/-- A run of digits is read as a word unless it denotes more than words hold. -/
theorem word?_digits (digits : Digits cs) :
    word? cs = if denoted cs < Nat.pow 2 64 then some (denoted cs) else none := by
  have plain : word? cs = (decimal? cs).filter (· < Nat.pow 2 64) := by
    unfold word?
    split
    · next rest => exact absurd rfl (digits.not_signed '+' rfl rest)
    · rfl
  rw [plain, decimal?_digits digits, Option.filter_some]
  simp only [decide_eq_true_eq]

theorem word?_plus (digits : Digits cs) :
    word? ('+' :: cs) = if denoted cs < Nat.pow 2 64 then some (denoted cs) else none := by
  change (decimal? cs).filter (· < Nat.pow 2 64) = _
  rw [decimal?_digits digits, Option.filter_some]
  simp only [decide_eq_true_eq]

theorem signedWord?_digits (digits : Digits cs) :
    signedWord? cs = if denoted cs < Nat.pow 2 63 then some (Int.ofNat (denoted cs)) else none := by
  have plain : signedWord? cs = ((decimal? cs).filter (· < Nat.pow 2 63)).map Int.ofNat := by
    unfold signedWord?
    split
    · next rest => exact absurd rfl (digits.not_signed '+' rfl rest)
    · next rest => exact absurd rfl (digits.not_signed '-' rfl rest)
    · rfl
  rw [plain, decimal?_digits digits, Option.filter_some]
  simp only [decide_eq_true_eq]
  split <;> rfl

theorem signedWord?_minus (digits : Digits cs) :
    signedWord? ('-' :: cs) =
      if denoted cs ≤ Nat.pow 2 63 then some (-Int.ofNat (denoted cs)) else none := by
  change ((decimal? cs).filter (· ≤ Nat.pow 2 63)).map (fun n => -Int.ofNat n) = _
  rw [decimal?_digits digits, Option.filter_some]
  simp only [decide_eq_true_eq]
  split <;> rfl

end Reading

end Text

/-- The integers that are signed words. -/
def Number.InSignedRange (i : Int) : Prop := -Nat.pow 2 63 ≤ i ∧ i < Nat.pow 2 63

instance (i : Int) : Decidable (Number.InSignedRange i) := inferInstanceAs (Decidable (_ ∧ _))

/-- The spelling of an integer is read as that integer exactly if it is a signed word. -/
theorem Text.signedWord?_intChars (i : Int) :
    signedWord? (intChars i) = if Number.InSignedRange i then some i else none := by
  unfold Number.InSignedRange
  cases i with
  | ofNat n =>
    have bounds : (-(Nat.pow 2 63 : Int) ≤ Int.ofNat n ∧ Int.ofNat n < (Nat.pow 2 63 : Int)) ↔
        n < Nat.pow 2 63 := by
      rw [Int.ofNat_eq_natCast]
      omega
    change signedWord? (natChars n) = _
    rw [signedWord?_digits (digits_natChars n), denoted_natChars]
    simp only [bounds]
  | negSucc n =>
    have bounds : (-(Nat.pow 2 63 : Int) ≤ Int.negSucc n ∧ Int.negSucc n < (Nat.pow 2 63 : Int)) ↔
        n + 1 ≤ Nat.pow 2 63 := by
      omega
    change signedWord? ('-' :: natChars (n + 1)) = _
    rw [signedWord?_minus (digits_natChars (n + 1)), denoted_natChars]
    simp only [bounds]
    rfl

end TaskDecoration
