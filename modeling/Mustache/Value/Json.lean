import Mustache.Decimal.Shortest

/-!
# JSON values

The values of a JSON text. A number is an integer if it is written without a point and fits 64 bits,
with or without a sign; any other number is a binary floating-point number of 64 bits.
-/

namespace Mustache

open Decimal

/-- A JSON value. The entries of an object have different keys. -/
inductive Json
  | null
  | bool (value : Bool)
  | integer (value : Int)
  | float (value : Binary)
  | text (value : Text)
  | array (items : List Json)
  | object (entries : List (Text × Json))
  deriving Inhabited

namespace Json

/-- The integers that fit 64 bits, with or without a sign. -/
def isInteger (n : Int) : Bool :=
  -9223372036854775808 ≤ n && n < 18446744073709551616

/-- The number `mantissa · 10 ^ -places`, written with that many places after the point. -/
def ofDecimal (mantissa : Int) (places : Nat) : Json :=
  if places = 0 && isInteger mantissa then .integer mantissa
  else .float (Format.double.ofDecimal (mantissa < 0) mantissa.natAbs (-places))

end Json

end Mustache
