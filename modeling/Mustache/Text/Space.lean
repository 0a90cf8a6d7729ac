import Mustache.Text.Basic

/-!
# White space

`isSpace` is the `White_Space` property of Unicode: the characters trimmed from the content of a tag
and those that separate the two delimiters of a delimiter change. `isBlank` is the narrower class of
a line's indentation, spaces and tabs only.
-/

namespace Mustache.Text

/-- The characters with the Unicode property `White_Space`. -/
def isSpace (c : Char) : Bool :=
  let n := c.toNat
  (9 ≤ n && n ≤ 13) || n == 0x20 || n == 0x85 || n == 0xA0 || n == 0x1680 ||
  (0x2000 ≤ n && n ≤ 0x200A) || n == 0x2028 || n == 0x2029 || n == 0x202F || n == 0x205F ||
  n == 0x3000

/-- The characters that a line may hold beside the tag that stands alone on it. -/
def isBlank (c : Char) : Bool :=
  c == ' ' || c == '\t'

/-- The text without the white space at its end. -/
def trimEnd : Text → Text
  | [] => []
  | c :: t =>
    match trimEnd t with
    | [] => if isSpace c then [] else [c]
    | t => c :: t

/-- The text without the white space at either end. -/
def trim (t : Text) : Text :=
  trimEnd (t.dropWhile isSpace)

/-- The runs of characters other than white space. -/
def words (t : Text) : List Text :=
  (pieces isSpace t).filter (· ≠ [])

theorem trimEnd_cons (c : Char) (t : Text) :
    trimEnd (c :: t) = if trimEnd t = [] ∧ isSpace c = true then [] else c :: trimEnd t := by
  rw [trimEnd]
  split
  next h => simp only [h, true_and]
  next h => rw [if_neg fun hnil => h hnil.1]

/-- A blank is white space. -/
theorem isSpace_of_isBlank {c : Char} (h : isBlank c = true) : isSpace c = true := by
  rcases Bool.or_eq_true_iff.1 h with h | h <;> obtain rfl := eq_of_beq h <;> decide

end Mustache.Text
