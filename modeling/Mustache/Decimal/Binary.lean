import Mustache.Decimal.Digits

/-!
# Binary floating-point numbers

The numbers of a binary format, kept exactly: a finite number is a sign, a mantissa and the exponent
of the mantissa's last bit. `Format.round` gives the number of a format nearest to a fraction, and
`Format.read?` the number nearest to what a decimal text says.
-/

namespace Mustache.Decimal

/-- A binary floating-point format. -/
structure Format where
  /-- The number of bits of a mantissa. -/
  precision : Nat
  /-- The exponent of the last bit of the smallest numbers. -/
  minExponent : Int
  /-- The exponent of the last bit of the largest numbers. -/
  maxExponent : Int
  deriving DecidableEq

/-- The format of 32 bits. -/
def Format.single : Format := ⟨24, -149, 104⟩

/-- The format of 64 bits. -/
def Format.double : Format := ⟨53, -1074, 971⟩

/-- A binary floating-point number. -/
inductive Binary
  /-- Not a number. -/
  | nan
  /-- Beyond every number of the format. -/
  | infinite (negative : Bool)
  /-- `mantissa · 2 ^ exponent`, or its negative. -/
  | finite (negative : Bool) (mantissa : Nat) (exponent : Int)
  deriving DecidableEq

namespace Binary

/-- The numbers that compare equal: the two zeros do, and nothing is equal to what is not a
number. -/
def equal : Binary → Binary → Bool
  | .nan, _ | _, .nan => false
  | .finite _ 0 _, .finite _ 0 _ => true
  | x, y => x == y

end Binary

/-- The integer nearest to a fraction; of two equally near ones the even one. -/
def roundHalfEven (num den : Nat) : Nat :=
  let q := num / den
  let r := num % den
  if 2 * r < den ∨ (2 * r = den ∧ q % 2 = 0) then q else q + 1

namespace Format

/-- The nearest integer to `num / den / 2 ^ exponent`. -/
def mantissaAt (num den : Nat) (exponent : Int) : Nat :=
  roundHalfEven (num * Nat.pow 2 (-exponent).toNat) (den * Nat.pow 2 exponent.toNat)

/-- The number of the format nearest to `num / den`, of two equally near ones the one with an even
mantissa. Beyond the largest number it is infinite. -/
def round (f : Format) (negative : Bool) (num den : Nat) : Binary :=
  if num = 0 then .finite negative 0 f.minExponent
  else
    let limit := Nat.pow 2 f.precision
    let guess : Int := Nat.log2 num - Nat.log2 den - f.precision
    let floor (e : Int) := num * Nat.pow 2 (-e).toNat / (den * Nat.pow 2 e.toNat)
    let e := max f.minExponent (if floor guess < limit then guess else guess + 1)
    let m := mantissaAt num den e
    let (m, e) := if m = limit then (limit / 2, e + 1) else (m, e)
    if f.maxExponent < e then .infinite negative else .finite negative m e

/-- A power of ten with which a decimal number is beyond every format, whichever way. -/
def decimalBound : Int := 400

/-- The number of the format nearest to `mantissa · 10 ^ exponent`. -/
def ofDecimal (f : Format) (negative : Bool) (mantissa : Nat) (exponent : Int) : Binary :=
  let order := (Decimal.ofNat mantissa).length + exponent
  if mantissa = 0 ∨ order < -decimalBound then .finite negative 0 f.minExponent
  else if decimalBound < order then .infinite negative
  else f.round negative (mantissa * Nat.pow 10 exponent.toNat) (Nat.pow 10 (-exponent).toNat)

/-- The exponent written behind the digits of a number; nothing written is zero. -/
def readExponent? : Text → Option Int
  | [] => some 0
  | c :: t =>
    if c.toLower = 'e' then
      match t with
      | '-' :: t => (value? t).map fun n => -n
      | '+' :: t => (value? t).map Int.ofNat
      | t => (value? t).map Int.ofNat
    else none

/-- The number that an unsigned text says. -/
def readUnsigned? (f : Format) (negative : Bool) (t : Text) : Option Binary :=
  let word := String.ofList (t.map Char.toLower)
  if word = "nan" then some .nan
  else if word = "inf" ∨ word = "infinity" then some (.infinite negative)
  else
    let whole := t.takeWhile Char.isDigit
    let (places, rest) := match t.dropWhile Char.isDigit with
      | '.' :: rest => (rest.takeWhile Char.isDigit, rest.dropWhile Char.isDigit)
      | rest => ([], rest)
    match value? (whole ++ places), readExponent? rest with
    | some mantissa, some exponent =>
      some (f.ofDecimal negative mantissa (exponent - places.length))
    | _, _ => none

/-- The number of the format nearest to what a text says: a decimal number with or without a point
and an exponent, or one of the words for what is no finite number. -/
def read? (f : Format) : Text → Option Binary
  | '-' :: t => f.readUnsigned? true t
  | '+' :: t => f.readUnsigned? false t
  | t => f.readUnsigned? false t

end Format

end Mustache.Decimal
