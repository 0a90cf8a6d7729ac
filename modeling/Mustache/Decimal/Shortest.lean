import Mustache.Decimal.Binary

/-!
# Shortest decimal text

A finite number of a binary format is written with the fewest digits that are read back as that
number, and of these with the digits nearest to it. `Layout` says what a way of writing decides
beyond that: which of two equally near digit strings is taken, and where the point goes.
-/

namespace Mustache.Decimal

/-- A decimal number, `digits · 10 ^ exponent`. -/
structure Scaled where
  digits : Nat
  exponent : Int
  deriving DecidableEq

/-- A way of writing finite numbers. -/
structure Layout where
  /-- Whether the larger of two equally near digit strings is taken, rather than the even one. -/
  tieUp : Bool
  /-- Whether a number is written without an exponent, by the exponent of its first digit. -/
  positional : Int → Bool
  /-- Whether a whole number without an exponent is written with a point and a zero. -/
  point : Bool

/-- Numbers are never written with an exponent, and whole numbers without a point. -/
def Layout.plain : Layout :=
  ⟨true, fun _ => true, false⟩

/-- Very large and very small numbers are written with an exponent, and whole numbers with a
point, so that they are told apart from integers. -/
def Layout.json : Layout :=
  ⟨false, fun e => -5 ≤ e && e < 16, true⟩

/-- An interval of fractions `low / den` to `high / den` around `value / den`, with or without its
ends. -/
structure Interval where
  low : Nat
  value : Nat
  high : Nat
  den : Nat
  closed : Bool

namespace Interval

/-- The fractions that are read as `m · 2 ^ e` in a format. Below a power of two the numbers lie
twice as close. -/
def ofFinite (f : Format) (m : Nat) (e : Int) : Interval :=
  let close := m = Nat.pow 2 (f.precision - 1) ∧ f.minExponent < e
  let scale := Nat.pow 2 e.toNat
  { low := (4 * m - if close then 1 else 2) * scale
    value := 4 * m * scale
    high := (4 * m + 2) * scale
    den := 4 * Nat.pow 2 (-e).toNat
    closed := m % 2 == 0 }

/-- Whether a fraction with the interval's denominator is in the interval. -/
def contains (i : Interval) (num : Nat) : Bool :=
  if i.closed then i.low ≤ num && num ≤ i.high else i.low < num && num < i.high

/-- The interval in units of a power of ten. -/
def scaled (i : Interval) (exponent : Int) : Interval :=
  let up := Nat.pow 10 (-exponent).toNat
  { i with
    low := i.low * up
    value := i.value * up
    high := i.high * up
    den := i.den * Nat.pow 10 exponent.toNat }

/-- The multiple of `10 ^ exponent` in the interval that is nearest to its value. -/
def nearest? (tieUp : Bool) (i : Interval) (exponent : Int) : Option Nat :=
  let i := i.scaled exponent
  let down := i.value / i.den
  let up := down + 1
  match i.contains (down * i.den), i.contains (up * i.den) with
  | true, true =>
    let below := i.value - down * i.den
    let above := up * i.den - i.value
    if below < above ∨ (below = above ∧ !tieUp ∧ down % 2 = 0) then some down else some up
  | true, false => some down
  | false, true => some up
  | false, false => none

/-- The exponent of the first digit of the interval's value, which is not zero. -/
def order (i : Interval) : Int :=
  if i.den ≤ i.value then (Decimal.ofNat (i.value / i.den)).length - 1
  else -(Decimal.ofNat ((i.den - 1) / i.value)).length

end Interval

/-- The digits without the zeros at their end. -/
def dropZeros : Nat → Scaled → Scaled
  | 0, s => s
  | fuel + 1, s =>
    if s.digits % 10 = 0 then dropZeros fuel ⟨s.digits / 10, s.exponent + 1⟩ else s

/-- The fewest digits in an interval, tried from `count` digits on, of which the first has the
exponent `order`. -/
def shortestFrom (tieUp : Bool) (i : Interval) (order : Int) : (fuel count : Nat) → Scaled
  | 0, _ => ⟨0, 0⟩
  | fuel + 1, count =>
    let exponent := order - count + 1
    match i.nearest? tieUp exponent with
    | some digits => dropZeros count ⟨digits, exponent⟩
    | none => shortestFrom tieUp i order fuel (count + 1)

/-- The number of digits that is enough for any number of a format of 64 bits. -/
def maxDigits : Nat := 17

/-- The fewest digits that are read back as `m · 2 ^ e`, the nearest ones of these. -/
def shortest (tieUp : Bool) (f : Format) (m : Nat) (e : Int) : Scaled :=
  if m = 0 then ⟨0, 0⟩
  else
    let i := Interval.ofFinite f m e
    shortestFrom tieUp i i.order maxDigits 1

namespace Layout

/-- A decimal number as it is written. -/
def write (l : Layout) (s : Scaled) : Text :=
  let digits := Decimal.ofNat s.digits
  let order := s.exponent + digits.length - 1
  if !l.positional order then
    let fraction := match digits.tail with
      | [] => []
      | places => '.' :: places
    let sign := if order < 0 then [] else ['+']
    digits.take 1 ++ fraction ++ ['e'] ++ sign ++ Decimal.ofInt order
  else if 0 ≤ s.exponent then
    digits ++ List.replicate s.exponent.toNat '0' ++ if l.point then ['.', '0'] else []
  else if 0 ≤ order then
    digits.take (order.toNat + 1) ++ '.' :: digits.drop (order.toNat + 1)
  else ['0', '.'] ++ List.replicate (-order - 1).toNat '0' ++ digits

end Layout

/-- A number of a format as it is written. -/
def Binary.text (l : Layout) (f : Format) : Binary → Text
  | .nan => "NaN".toList
  | .infinite negative => (if negative then ['-'] else []) ++ "inf".toList
  | .finite negative m e =>
    (if negative then ['-'] else []) ++ l.write (shortest l.tieUp f m e)

end Mustache.Decimal
