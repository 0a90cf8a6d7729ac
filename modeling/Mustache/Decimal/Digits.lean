import Mustache.Text.Basic

/-!
# Decimal digits

Natural numbers and integers written in decimal, and digit strings read back.
-/

namespace Mustache.Decimal

/-- The digits of a number, without leading zeros. -/
def ofNat (n : Nat) : Text :=
  Nat.toDigits 10 n

/-- An integer in decimal, with a minus sign if it is negative. -/
def ofInt : Int → Text
  | .ofNat n => ofNat n
  | .negSucc n => '-' :: ofNat (n + 1)

/-- The value of a digit. -/
def digit? (c : Char) : Option Nat :=
  if c.isDigit then some (c.toNat - '0'.toNat) else none

/-- The value of a string of digits written after the digits of `n`. -/
def valueFrom? (n : Nat) : Text → Option Nat
  | [] => some n
  | c :: t => (digit? c).bind fun d => valueFrom? (10 * n + d) t

/-- The value of a string of at least one digit. Leading zeros do not count. -/
def value? : Text → Option Nat
  | [] => none
  | t => valueFrom? 0 t

/-- The bound of a position in a sequence: a position is a word of 64 bits. -/
def positionBound : Nat := Nat.pow 2 64

/-- The position that a text denotes: digits, with one plus sign in front or none, for a number
below `positionBound`. Reference: the index in `Renderer.lookup`. -/
def position? (t : Text) : Option Nat :=
  let digits := match t with
    | '+' :: digits => digits
    | digits => digits
  (value? digits).filter (· < positionBound)

end Mustache.Decimal
