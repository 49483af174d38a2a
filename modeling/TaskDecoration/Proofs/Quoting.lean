import TaskDecoration.Json.Printer
import TaskDecoration.Json.Reader

/-!
# Reading quoted texts back

Inside quotes, a character stands for itself, or for what an escape says: a letter behind a
backslash for some, the code in hexadecimal digits for the other control characters. Each way of
writing a character is read as one piece (`pieces?_escapeChar`), the pieces are put together again
(`join?_pieceOf`), and so a text in quotes is read back (`quoted?_quote`).
-/

set_option autoImplicit false

namespace TaskDecoration.Json

/-- The piece that a written character is read as. -/
def pieceOf (c : Char) : Piece :=
  if c.toNat < 0x20 ∧ c ∉ ['\x08', '\x0c', '\n', '\r', '\t'] then .code c.toNat else .char c

section Pieces

variable {c : Char} {cs : List Char}

theorem pieces?_letter {e : Char} (escape : escape? e = some c) :
    pieces? ('\\' :: e :: cs) = (pieces? cs).map fun (ps, rest) => (.char c :: ps, rest) := by
  have other : e ≠ 'u' := by
    rintro rfl
    cases escape
  rw [pieces?]
  · rw [escape]
    cases pieces? cs <;> rfl
  · rintro a b c d rest rfl
    exact absurd rfl other

theorem pieces?_code {a b : Char} (code : hexCode? '0' '0' a b = some c.toNat) :
    pieces? ('\\' :: 'u' :: '0' :: '0' :: a :: b :: cs) =
      (pieces? cs).map fun (ps, rest) => (.code c.toNat :: ps, rest) := by
  rw [pieces?, code]
  cases pieces? cs <;> rfl

theorem pieces?_plain (quote : c ≠ '"') (backslash : c ≠ '\\') (printed : ¬ c.toNat < 0x20) :
    pieces? (c :: cs) = (pieces? cs).map fun (ps, rest) => (.char c :: ps, rest) := by
  rw [pieces?, if_neg printed]
  · cases pieces? cs <;> rfl
  · exact quote
  · exact fun _ _ _ _ _ same => absurd same backslash
  · exact fun _ _ same => absurd same backslash

/-- The code of a control character in two hexadecimal digits. -/
theorem hexCode?_hexChar {n : Nat} (control : n < 0x20) :
    hexCode? '0' '0' (hexChar (n / 16)) (hexChar (n % 16)) = some n := by
  have all : ∀ n < 0x20, hexCode? '0' '0' (hexChar (n / 16)) (hexChar (n % 16)) = some n := by
    decide
  exact all n control

/-- A written character is read as one piece. -/
theorem pieces?_escapeChar (c : Char) (cs : List Char) :
    pieces? (escapeChar c ++ cs) =
      (pieces? cs).map fun (ps, rest) => (pieceOf c :: ps, rest) := by
  unfold escapeChar
  split
  · exact pieces?_letter rfl
  · exact pieces?_letter rfl
  · exact pieces?_letter rfl
  · exact pieces?_letter rfl
  · exact pieces?_letter rfl
  · exact pieces?_letter rfl
  · exact pieces?_letter rfl
  · next quote backslash b f n r t =>
    by_cases control : c.toNat < 0x20
    · rw [if_pos control]
      have coded : pieceOf c = .code c.toNat := if_pos ⟨control, by simpa using ⟨b, f, n, r, t⟩⟩
      rw [coded]
      exact pieces?_code (hexCode?_hexChar control)
    · rw [if_neg control]
      have plain : pieceOf c = .char c := if_neg (by simp [control])
      rw [plain]
      exact pieces?_plain quote backslash control

theorem pieces?_flatMap (cs rest : List Char) :
    pieces? (cs.flatMap escapeChar ++ '"' :: rest) = some (cs.map pieceOf, rest) := by
  induction cs with
  | nil => rfl
  | cons c cs ih =>
    rw [List.flatMap_cons, List.append_assoc, pieces?_escapeChar, ih]
    rfl

end Pieces

section Joining

/-- Control characters are no halves of surrogate pairs. -/
theorem join?_code {c : Char} (control : c.toNat < 0x20) (ps : List Piece) :
    join? (.code c.toNat :: ps) = (join? ps).map (c :: ·) := by
  have lead : isLead c.toNat = false := by simp [isLead]; omega
  have trail : isTrail c.toNat = false := by simp [isTrail]; omega
  have same : Char.ofNat c.toNat = c := Char.ofNat_toNat c
  cases ps with
  | nil => simp [join?, lead, trail, same]
  | cons p ps => cases p <;> simp [join?, lead, trail, same]

theorem join?_pieceOf (cs : List Char) : join? (cs.map pieceOf) = some cs := by
  induction cs with
  | nil => rfl
  | cons c cs ih =>
    rw [List.map_cons]
    by_cases coded : c.toNat < 0x20 ∧ c ∉ ['\x08', '\x0c', '\n', '\r', '\t']
    · rw [show pieceOf c = .code c.toNat from if_pos coded, join?_code coded.1, ih, Option.map_some]
    · rw [show pieceOf c = .char c from if_neg coded, join?, ih, Option.map_some]

end Joining

/-- A text in quotes is read back. -/
theorem quoted?_quote (s : String) (rest : List Char) :
    quoted? (s.toList.flatMap escapeChar ++ '"' :: rest) = some (some s, rest) := by
  simp [quoted?, pieces?_flatMap, join?_pieceOf]

end TaskDecoration.Json
