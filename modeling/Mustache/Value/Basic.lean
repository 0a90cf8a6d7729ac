import Mustache.Renderable
import Mustache.Value.Data

/-!
# Values

The values that there are without a user's help: text, numbers, optional values, references,
containers, JSON and data, put together in any way. This module says for each of them what the
renderer asks of a value. Plain values of a user's own are among them, so that they can be held by
containers; a user whose values say more for themselves makes a type of them `Renderable`.
-/

namespace Mustache

open Decimal

/-- A value of a type that can be rendered from the start. -/
inductive Value
  /-- A text. -/
  | text (value : Text)
  /-- A truth value. -/
  | bool (value : Bool)
  /-- An integer of any size. -/
  | integer (value : Int)
  /-- A floating-point number of a format. -/
  | float (format : Format) (value : Binary)
  /-- An optional value that is not there. -/
  | absent
  /-- An optional value that is there. -/
  | present (value : Value)
  /-- A reference to a value. -/
  | ref (value : Value)
  /-- A list that owns its items. -/
  | vector (items : List Value)
  /-- A view of items that are owned elsewhere. -/
  | slice (items : List Value)
  /-- A map in no order. -/
  | hashMap (entries : List (Text × Value))
  /-- A map ordered by its keys. -/
  | orderedMap (entries : List (Text × Value))
  /-- A value of a user's own that says no more of itself than its shape, its text and its items. -/
  | custom (shape : Shape) (text : Text) (items : List Value)
  /-- A JSON value. -/
  | json (value : Json)
  /-- Data. -/
  | data (value : Data)
  deriving Inhabited

namespace Json

/-- The shape of a JSON value. Reference: `Value.shape`. -/
def shape : Json → Shape
  | .null => .null
  | .array _ => .sequence
  | .object _ => .mapping
  | .bool _ | .integer _ | .float _ | .text _ => .scalar

/-- The value of a key of an object. Reference: `Value.get`. -/
def get? (key : Text) : Json → Option Json
  | .object entries => valueAt? entries key
  | _ => none

/-- The item of an array at a position. Reference: `Value.get_index`. -/
def getAt? (i : Nat) : Json → Option Json
  | .array items => items[i]?
  | _ => none

/-- The items of an array. Reference: `Value.items`. -/
def items : Json → List Json
  | .array items => items
  | _ => []

/-- The text of a scalar. Reference: `Value.to_text`. -/
def toText : Json → Text
  | .text t => t
  | .bool b => (if b then "true" else "false").toList
  | .integer n => ofInt n
  | .float x => x.text .json .double
  | .null | .array _ | .object _ => []

/-- False for null, the false truth value, the empty text and the empty array. Reference:
`Value.is_truthy`. -/
def truthy : Json → Bool
  | .null => false
  | .bool b => b
  | .text t => !t.isEmpty
  | .array items => !items.isEmpty
  | .integer _ | .float _ | .object _ => true

end Json

namespace Data

/-- The shape of data. Reference: `Value.shape`. -/
def shape : Data → Shape
  | .null => .null
  | .list _ => .sequence
  | .map _ => .mapping
  | .lambda _ => .lambda
  | .bool _ | .integer _ | .float _ | .text _ => .scalar

/-- The value of a key of a map. Reference: `Value.get`. -/
def get? (key : Text) : Data → Option Data
  | .map entries => valueAt? entries key
  | _ => none

/-- The item of a list at a position. Reference: `Value.get_index`. -/
def getAt? (i : Nat) : Data → Option Data
  | .list items => items[i]?
  | _ => none

/-- The items of a list. Reference: `Value.items`. -/
def items : Data → List Data
  | .list items => items
  | _ => []

/-- The lambda, if the data is one. Reference: `Value.lambda`. -/
def lambda? : Data → Option Lambda
  | .lambda l => some l
  | _ => none

/-- The text of a scalar. Reference: `Value.to_text`. -/
def toText : Data → Text
  | .text t => t
  | .bool b => (if b then "true" else "false").toList
  | .integer n => ofInt n
  | .float x => x.text .plain .double
  | .null | .list _ | .map _ | .lambda _ => []

/-- False for null, the false truth value, the empty text and the empty list. Reference:
`Value.is_truthy`. -/
def truthy : Data → Bool
  | .null => false
  | .bool b => b
  | .text t => !t.isEmpty
  | .list items => !items.isEmpty
  | .integer _ | .float _ | .map _ | .lambda _ => true

end Data

namespace Value

/-- The shape of a value. Reference: `Value.shape`. -/
def shape : Value → Shape
  | .text _ | .bool _ | .integer _ | .float .. => .scalar
  | .absent => .null
  | .present v | .ref v => v.shape
  | .vector _ | .slice _ => .sequence
  | .hashMap _ | .orderedMap _ => .mapping
  | .custom s _ _ => s
  | .json j => j.shape
  | .data d => d.shape

/-- The value of a key, one level down. Reference: `Value.get`. -/
def get? (key : Text) : Value → Option Value
  | .present v | .ref v => v.get? key
  | .hashMap entries | .orderedMap entries => valueAt? entries key
  | .json j => (j.get? key).map .json
  | .data d => (d.get? key).map .data
  | .text _ | .bool _ | .integer _ | .float .. | .absent | .vector _ | .slice _ | .custom .. => none

/-- The items of a value, in order. Reference: `Value.items`. -/
def items : Value → List Value
  | .present v | .ref v => v.items
  | .vector vs | .slice vs | .custom _ _ vs => vs
  | .json j => j.items.map .json
  | .data d => d.items.map .data
  | .text _ | .bool _ | .integer _ | .float .. | .absent | .hashMap _ | .orderedMap _ => []

/-- The item of a value at a position. Reference: `Value.get_index`. -/
def getAt? (i : Nat) : Value → Option Value
  | .present v | .ref v => v.getAt? i
  | .vector vs | .slice vs | .custom _ _ vs => vs[i]?
  | .json j => (j.getAt? i).map .json
  | .data d => (d.getAt? i).map .data
  | .text _ | .bool _ | .integer _ | .float .. | .absent | .hashMap _ | .orderedMap _ => none

/-- The lambda that a value is. Reference: `Value.lambda`. -/
def lambda? : Value → Option Lambda
  | .present v | .ref v => v.lambda?
  | .data d => d.lambda?
  | .text _ | .bool _ | .integer _ | .float .. | .absent | .vector _ | .slice _ | .hashMap _
  | .orderedMap _ | .custom .. | .json _ => none

/-- The text that a value is rendered as. Reference: `Value.to_text`. -/
def toText : Value → Text
  | .text t => t
  | .bool b => (if b then "true" else "false").toList
  | .integer n => ofInt n
  | .float f x => x.text .plain f
  | .present v | .ref v => v.toText
  | .custom _ t _ => t
  | .json j => j.toText
  | .data d => d.toText
  | .absent | .vector _ | .slice _ | .hashMap _ | .orderedMap _ => []

/-- Whether a value counts as true. Of the scalars, only the false truth value and the empty text do
not; of what has no say of its own, null and sequences without items do not. Reference:
`Value.is_truthy`. -/
def truthy : Value → Bool
  | .text t => !t.isEmpty
  | .bool b => b
  | .absent => false
  | .present v | .ref v => v.truthy
  | .vector vs | .slice vs => !vs.isEmpty
  | .custom .null _ _ => false
  | .custom .sequence _ vs => !vs.isEmpty
  | .json j => j.truthy
  | .data d => d.truthy
  | .integer _ | .float .. | .hashMap _ | .orderedMap _ | .custom .. => true

instance : Renderable Value where
  shape := shape
  get? := get?
  items := items
  getAt? := getAt?
  lambda? := lambda?
  toText := toText
  truthy := truthy

end Value

namespace Renderable

variable (v : Value) (key : Text) (i : Nat)

@[simp] theorem shape_value : shape v = v.shape := rfl
@[simp] theorem get?_value : get? key v = v.get? key := rfl
@[simp] theorem items_value : items v = v.items := rfl
@[simp] theorem lambda?_value : lambda? v = v.lambda? := rfl
@[simp] theorem toText_value : toText v = v.toText := rfl
@[simp] theorem truthy_value : truthy v = v.truthy := rfl

end Renderable

end Mustache
