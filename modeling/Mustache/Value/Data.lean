import Mustache.Entries
import Mustache.Lambda
import Mustache.Value.Json

/-!
# Data

Template data as one builds it by hand: like JSON, with integers of 64 bits and with lambdas.

Data are compared by `equal`, which is not quite the equality of the logic: a number that is none
differs from itself, the two zeros are equal, the entries of a map have no order, and a lambda is
equal to itself only.
-/

namespace Mustache

open Decimal

/-- Template data. The entries of a map have different keys. Reference: `Data`. -/
inductive Data
  | null
  | bool (value : Bool)
  | integer (value : Int)
  | float (value : Binary)
  | text (value : Text)
  | list (items : List Data)
  | map (entries : List (Text × Data))
  | lambda (value : Lambda)
  deriving Inhabited

namespace Data

/-- Sets a key. What is not a map becomes one first. Reference: `Data.insert`. -/
def insert (d : Data) (key : Text) (value : Data) : Data :=
  match d with
  | .map entries => .map (setEntry key value entries)
  | _ => .map [(key, value)]

/-- The integers of 64 bits. -/
def isInteger (n : Int) : Bool :=
  -9223372036854775808 ≤ n && n < 9223372036854775808

/-- An integer, or the nearest floating-point number of 64 bits if it does not fit. -/
def ofInteger (n : Int) : Data :=
  if isInteger n then .integer n
  else .float (Format.double.round (n < 0) n.natAbs 1)

mutual

/-- The data of a JSON value. Reference: the conversion `from` of `Data`. -/
def ofJson : Json → Data
  | .null => .null
  | .bool b => .bool b
  | .integer n => ofInteger n
  | .float x => .float x
  | .text t => .text t
  | .array items => .list (ofJsonList items)
  | .object entries => .map (ofJsonEntries entries)

/-- `ofJson` over the items of an array. -/
def ofJsonList : List Json → List Data
  | [] => []
  | j :: js => ofJson j :: ofJsonList js

/-- `ofJson` over the entries of an object. -/
def ofJsonEntries : List (Text × Json) → List (Text × Data)
  | [] => []
  | (k, j) :: entries => (k, ofJson j) :: ofJsonEntries entries

end

mutual

/-- Whether two data are equal. Reference: the equality of `Data` and of `Lambda`. -/
def equal : Data → Data → Bool
  | .null, .null => true
  | .bool a, .bool b => a == b
  | .integer m, .integer n => m == n
  | .float x, .float y => x.equal y
  | .text s, .text t => s == t
  | .list xs, .list ys => equalList xs ys
  | .map xs, .map ys => xs.length == ys.length && equalEntries xs ys
  | .lambda f, .lambda g => f.identity == g.identity
  | _, _ => false

/-- `equal` item by item. -/
def equalList : List Data → List Data → Bool
  | [], [] => true
  | x :: xs, y :: ys => equal x y && equalList xs ys
  | _, _ => false

/-- Whether every entry of the first list is equal to the second list's entry of the same key. -/
def equalEntries : List (Text × Data) → List (Text × Data) → Bool
  | [], _ => true
  | (k, x) :: xs, ys =>
    (match valueAt? ys k with
      | some y => equal x y
      | none => false) && equalEntries xs ys

end

end Data

end Mustache
