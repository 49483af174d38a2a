import TaskDecoration.Json.Reader

/-!
# Reading numerals back

The decimal digits of a number are read as that number, up to the first character that is no digit.
The spelling of an integer of 64 bits is read as that integer wherever a JSON text may go on after
a value (`numeral?_intChars`).
-/

set_option autoImplicit false

namespace TaskDecoration

open Text (natChars intChars digitValue?)

namespace Json

/-- What may stand behind a value inside a JSON text, or at its end. -/
def Closes (rest : List Char) : Prop := ∀ c ∈ rest.head?, c = ',' ∨ c = ']' ∨ c = '}'

theorem closes_nil : Closes [] := by simp [Closes]

theorem closes_cons {c : Char} {rest : List Char} :
    Closes (c :: rest) ↔ c = ',' ∨ c = ']' ∨ c = '}' := by
  simp [Closes]

section Digits

variable {c : Char} {cs rest : List Char} {n : Nat}

theorem digitValue?_of_isDigit (digit : c.isDigit = true) :
    digitValue? c = some (c.toNat - '0'.toNat) := by
  have bounds : '0' ≤ c ∧ c ≤ '9' := by simpa [Char.isDigit, Char.le_def] using digit
  unfold digitValue?
  rw [if_pos bounds]

/-- A run of digits is read to its end. -/
theorem digits_append (all : ∀ c ∈ cs, c.isDigit = true) (closes : Closes rest) :
    digits (cs ++ rest) = (cs.map fun c => c.toNat - '0'.toNat, rest) := by
  induction cs with
  | nil =>
    cases rest with
    | nil => rfl
    | cons c rest => rcases closes_cons.mp closes with rfl | rfl | rfl <;> rfl
  | cons c cs ih =>
    have digit := digitValue?_of_isDigit (all c List.mem_cons_self)
    have behind := ih fun d hd => all d (List.mem_cons_of_mem c hd)
    simp [digits, digit, behind]

theorem le_ofDigitChars (cs : List Char) (n : Nat) : n ≤ Nat.ofDigitChars 10 cs n := by
  induction cs generalizing n with
  | nil => simp
  | cons c cs ih =>
    rw [Nat.ofDigitChars_cons]
    have := ih (10 * n + (c.toNat - '0'.toNat))
    omega

/-- Digits are absorbed while the number has a word. -/
theorem absorb_eq (word : Nat.ofDigitChars 10 cs n < Nat.pow 2 64) :
    Numeral.absorb n (cs.map fun c => c.toNat - '0'.toNat) = (Nat.ofDigitChars 10 cs n, []) := by
  induction cs generalizing n with
  | nil => rfl
  | cons c cs ih =>
    rw [Nat.ofDigitChars_cons] at word ⊢
    have here := Nat.lt_of_le_of_lt (le_ofDigitChars cs _) word
    unfold Numeral.absorb
    rw [List.map_cons]
    dsimp only
    rw [Nat.mul_comm n 10, if_pos here]
    exact ih word

end Digits

section Naturals

variable {n : Nat} {rest : List Char}

theorem isDigit_of_mem_natChars {c : Char} (member : c ∈ natChars n) : c.isDigit = true :=
  Nat.isDigit_of_mem_toDigits (by decide) (by decide) member

theorem natChars_eq_cons (n : Nat) : ∃ c cs, natChars n = c :: cs ∧ c.isDigit = true := by
  obtain ⟨c, cs, split⟩ := List.exists_cons_of_ne_nil (Nat.toDigits_ne_nil (n := n) (b := 10))
  exact ⟨c, cs, split, isDigit_of_mem_natChars (split ▸ List.mem_cons_self)⟩

/-- A number other than zero is not written with a zero in front. -/
theorem head?_natChars (positive : 0 < n) : (natChars n).head? ≠ some '0' := by
  induction n using Nat.strongRecOn with
  | ind n ih =>
    unfold natChars
    rw [Nat.toDigits_eq_if (by decide)]
    by_cases small : n < 10
    · have nonzero : n ≠ 0 := by omega
      simpa [small, Nat.digitChar_eq_zero] using nonzero
    · have front := ih (n / 10) (by omega) (by omega)
      obtain ⟨c, cs, split, -⟩ := natChars_eq_cons (n / 10)
      rw [split] at front
      rw [if_neg small, show Nat.toDigits 10 (n / 10) = c :: cs from split]
      exact front

/-- The values of the digits of a number. -/
def digitValues (n : Nat) : List Nat := (natChars n).map fun c => c.toNat - '0'.toNat

theorem digitValues_head (n : Nat) :
    ¬ ((digitValues n).head? = some 0 ∧ 1 < (digitValues n).length) := by
  rintro ⟨zero, long⟩
  obtain ⟨c, cs, split, digit⟩ := natChars_eq_cons n
  have bounds : 48 ≤ c.toNat := by
    have := (show '0' ≤ c ∧ c ≤ '9' by simpa [Char.isDigit, Char.le_def] using digit).1
    exact this
  by_cases positive : 0 < n
  · apply head?_natChars positive
    rw [digitValues, split] at zero
    have code : c.toNat = '0'.toNat := by
      have : c.toNat - 48 = 0 := by simpa using zero
      show c.toNat = 48
      omega
    rw [split, List.head?_cons, Char.toNat_inj.mp code]
  · obtain rfl : n = 0 := by omega
    simp [digitValues, natChars] at long

theorem someDigits?_natChars (n : Nat) (closes : Closes rest) :
    someDigits? (natChars n ++ rest) = some (digitValues n, rest) := by
  unfold someDigits?
  rw [digits_append (fun c hc => isDigit_of_mem_natChars hc) closes]
  simp [digitValues, natChars, Nat.toDigits_ne_nil]

theorem absorb_digitValues (word : n < Nat.pow 2 64) :
    Numeral.absorb 0 (digitValues n) = (n, []) := by
  have value : Nat.ofDigitChars 10 (natChars n) 0 = n := Nat.ofDigitChars_ten_toDigits
  unfold digitValues
  rw [absorb_eq (by rw [value]; exact word), value]

/-- Neither a point nor an exponent goes on with digits. -/
theorem fraction?_of_closes (closes : Closes rest) : fraction? rest = some (none, rest) := by
  cases rest with
  | nil => rfl
  | cons c rest => rcases closes_cons.mp closes with rfl | rfl | rfl <;> rfl

theorem exponent?_of_closes (closes : Closes rest) : exponent? rest = some (none, rest) := by
  cases rest with
  | nil => rfl
  | cons c rest => rcases closes_cons.mp closes with rfl | rfl | rfl <;> rfl

theorem unsigned?_natChars (negative : Bool) (n : Nat) (closes : Closes rest) :
    unsigned? negative (natChars n ++ rest) =
      some (⟨negative, digitValues n, none, none⟩, rest) := by
  unfold unsigned?
  simp only [someDigits?_natChars n closes, fraction?_of_closes closes,
    exponent?_of_closes closes, Option.bind_eq_bind, Option.bind_some, digitValues_head,
    if_false]
  rfl

/-- The numeral of an integer. -/
def numeralOf : Int → Numeral
  | .ofNat n => ⟨false, digitValues n, none, none⟩
  | .negSucc n => ⟨true, digitValues (n + 1), none, none⟩

/-- What is written for an integer is read as its numeral. -/
theorem numeral?_intChars (i : Int) (closes : Closes rest) :
    numeral? (intChars i ++ rest) = some (numeralOf i, rest) := by
  cases i with
  | ofNat n =>
    have plain : numeral? (natChars n ++ rest) = unsigned? false (natChars n ++ rest) := by
      obtain ⟨c, cs, split, digit⟩ := natChars_eq_cons n
      rw [split]
      unfold numeral?
      split
      · next same =>
        obtain ⟨rfl, -⟩ := List.cons.inj same
        cases digit
      · rfl
    exact plain.trans (unsigned?_natChars false n closes)
  | negSucc n => exact unsigned?_natChars true (n + 1) closes

/-- The numeral of an integer that has a word stands for it. -/
theorem number?_numeralOf {i : Int} (word : Number.InRange i) :
    (numeralOf i).number? = some (.integer i) := by
  obtain ⟨low, high⟩ := word
  cases i with
  | ofNat n =>
    have small : n < Nat.pow 2 64 := Int.ofNat_lt.mp high
    unfold numeralOf Numeral.number?
    simp [absorb_digitValues small]
  | negSucc n =>
    have small : n + 1 ≤ Nat.pow 2 63 := by omega
    have word : n + 1 < Nat.pow 2 64 := Nat.lt_of_le_of_lt small (by decide)
    unfold numeralOf Numeral.number?
    simp [absorb_digitValues word, small, Int.negSucc_eq]

end Naturals

end Json

end TaskDecoration
