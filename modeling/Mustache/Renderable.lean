import Mustache.Decimal.Digits
import Mustache.Lambda

/-!
# What can be rendered

The renderer never looks at a value itself. It asks for the shape of the value, for its entries by
key, its items in order or by position, its lambda and its text, and whether it counts as true.
Whatever answers these questions can be rendered (`Renderable`), values of a user's own among it.
-/

namespace Mustache

/-- What sort of thing a value is. Reference: `Shape`. -/
inductive Shape
  | null
  | scalar
  | sequence
  | mapping
  | lambda
  deriving DecidableEq

/-- Values that can be rendered, by their answers to what the renderer asks. What such a value holds
is a value of the same type again; values of different types are rendered together as values of
their sum. The answers need not go together, and a value may hold itself.

A type answers at least for shapes and texts. Where it says no more, its values have no entries, no
items and no lambda, at a position is the item there, and only null and sequences without items do
not count as true. Reference: `Value`. -/
class Renderable (V : Type) where
  /-- What sort of thing a value is. Reference: `Value.shape`. -/
  shape : V → Shape
  /-- The value of a key, one level down. Reference: `Value.get`. -/
  get? : Text → V → Option V := fun _ _ => none
  /-- The items of a value, in order. Reference: `Value.items`. -/
  items : V → List V := fun _ => []
  /-- The item of a value at a position. Reference: `Value.get_index`. -/
  getAt? : Nat → V → Option V := fun i v => (items v)[i]?
  /-- The lambda that a value is. Reference: `Value.lambda`. -/
  lambda? : V → Option Lambda := fun _ => none
  /-- The text that a value is rendered as. Reference: `Value.to_text`. -/
  toText : V → Text
  /-- Whether a value counts as true. Reference: `Value.is_truthy`. -/
  truthy : V → Bool := fun v =>
    match shape v with
    | .null => false
    | .sequence => !(items v).isEmpty
    | .scalar | .mapping | .lambda => true

/-- A number as a value of a user's own. It is a mapping that has the next number under every key,
is shown in angle brackets, and counts as true unless it is zero. -/
structure Counter where
  value : Nat
  deriving DecidableEq

instance : Renderable Counter where
  shape _ := .mapping
  get? _ c := some ⟨c.value + 1⟩
  toText c := '<' :: Decimal.ofNat c.value ++ ['>']
  truthy c := c.value != 0

end Mustache
