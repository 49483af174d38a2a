/-!
# Blank characters

White space in the sense of the Unicode property `White_Space`, with trimming and splitting by
it, and cutting a text in two. Text is handled as a list of characters; `String` is used at the
boundaries.
-/

set_option autoImplicit false

namespace TaskDecoration.Text

/-- Characters with the Unicode property `White_Space`. -/
def isBlank (c : Char) : Bool :=
  let n := c.toNat
  (0x09 ≤ n && n ≤ 0x0D) || n == 0x20 || n == 0x85 || n == 0xA0 || n == 0x1680 ||
    (0x2000 ≤ n && n ≤ 0x200A) || n == 0x2028 || n == 0x2029 || n == 0x202F || n == 0x205F ||
    n == 0x3000

/-- Drops the blanks at both ends. -/
def trim (cs : List Char) : List Char :=
  ((cs.dropWhile isBlank).reverse.dropWhile isBlank).reverse

/-- The maximal runs of characters that are not blank. -/
def words (cs : List Char) : List (List Char) :=
  (cs.splitOnP isBlank).filter (!·.isEmpty)

/-- The part before the first character that passes `p`, and the part after it. -/
def splitFirst? (p : Char → Bool) : List Char → Option (List Char × List Char)
  | [] => none
  | c :: cs => if p c then some ([], cs) else (splitFirst? p cs).map fun (a, b) => (c :: a, b)

/-- The part before the last character that passes `p`, and the part after it. -/
def splitLast? (p : Char → Bool) (cs : List Char) : Option (List Char × List Char) :=
  (splitFirst? p cs.reverse).map fun (a, b) => (b.reverse, a.reverse)

/-- The letters `A` to `Z` in lower case, everything else as it is. -/
def lowerAscii (cs : List Char) : List Char := cs.map Char.toLower

end TaskDecoration.Text
