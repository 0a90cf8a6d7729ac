import Mustache.Decimal.Digits
import Mustache.Renderable

/-!
# Contexts

A key is resolved against a stack of values, the innermost first. The first segment of a dotted key
belongs to the innermost value that has it, and each further segment to what the one before it
denotes: when one of those is missing, the outer values are not searched again.
-/

namespace Mustache

/-- How a segment of a key finds its value. Reference: `KeyType`. -/
inductive KeyType
  /-- As the key of a mapping. -/
  | text
  /-- As the key of a mapping or as a position in a sequence. -/
  | indexed
  deriving DecidableEq

/-- The values in effect at a point of a rendering, the innermost first. -/
abbrev Context (V : Type) := List V

/-- The segments of a key. -/
def segments (key : Text) : List Text :=
  Text.pieces (· == '.') key

variable {V : Type} [Renderable V]

namespace Renderable

/-- The value that a segment denotes in a value. Reference: `Renderer.lookup`. -/
def lookup (keyType : KeyType) (v : V) (segment : Text) : Option V :=
  match keyType, shape v with
  | .indexed, .sequence => (Decimal.position? segment).bind fun i => getAt? i v
  | _, _ => get? segment v

/-- The value that segments denote one after another, each in what the one before it denotes.
Reference: the further segments in `Renderer.resolve`. -/
def follow (keyType : KeyType) (v : V) : List Text → Option V
  | [] => some v
  | segment :: rest => (lookup keyType v segment).bind fun w => follow keyType w rest

end Renderable

namespace Context

/-- The value that a segment denotes in the innermost value that has it. Reference: the first
segment in `Renderer.resolve`. -/
def find? (keyType : KeyType) (segment : Text) : Context V → Option V
  | [] => none
  | v :: outer => (Renderable.lookup keyType v segment).or (find? keyType segment outer)

/-- The value of a key. A dot alone denotes the innermost value. Reference: `Renderer.resolve`. -/
def resolve (keyType : KeyType) (context : Context V) (key : Text) : Option V :=
  if key = ['.'] then context.head?
  else match segments key with
    | [] => none
    | first :: rest =>
      (context.find? keyType first).bind fun v => Renderable.follow keyType v rest

end Context

end Mustache
