import Mathlib.Tactic.ByContra
import Mustache.Value.Basic

/-!
# Views of a value

The views of a value are given for each sort of value by itself, and those of an optional value or a
reference are the views of the value inside. What is at a position is the item there
(`Value.getAt?_eq_getElem?`), and the shape says of a value whether it counts as true, if it is no
scalar (`Value.truthy_eq`), and whether it can have entries (`Value.get?_eq_none`).

A value of a user's own has a shape, a text and items that need not go together. All other values
are `Value.BuiltIn`: of these only sequences have items, only scalars have a text, and the lambdas
are the values that have a lambda. So all views of such a value agree (`Value.coherent_of_builtIn`).
-/

namespace Mustache

namespace Value

/-- What a value holds at a position is the item there. -/
theorem getAt?_eq_getElem? (i : Nat) : ∀ v : Value, v.getAt? i = v.items[i]?
  | .present v | .ref v => getAt?_eq_getElem? i v
  | .json j => by cases j <;> simp [getAt?, items, Json.getAt?, Json.items]
  | .data d => by cases d <;> simp [getAt?, items, Data.getAt?, Data.items]
  | .text _ | .bool _ | .integer _ | .float .. | .absent | .vector _ | .slice _ | .hashMap _
  | .orderedMap _ | .custom .. => rfl

/-- Of the values that are no scalars, null and the sequences without items do not count as true. -/
theorem truthy_eq : ∀ v : Value, v.truthy = match v.shape with
    | .null => false
    | .scalar => v.truthy
    | .sequence => !v.items.isEmpty
    | .mapping | .lambda => true
  | .present v | .ref v => truthy_eq v
  | .custom s _ _ => by cases s <;> rfl
  | .json j => by
    cases j with
    | array js => exact congrArg (! ·) List.isEmpty_map.symm
    | _ => rfl
  | .data d => by
    cases d with
    | list ds => exact congrArg (! ·) List.isEmpty_map.symm
    | _ => rfl
  | .text _ | .bool _ | .integer _ | .float .. | .absent | .vector _ | .slice _ | .hashMap _
  | .orderedMap _ => rfl

/-- Only a mapping has entries. -/
theorem get?_eq_none (key : Text) : ∀ {v : Value}, v.shape ≠ .mapping → v.get? key = none
  | .present v, h | .ref v, h => get?_eq_none key (v := v) h
  | .hashMap _, h | .orderedMap _, h => absurd rfl h
  | .json j, h => by
    cases j with
    | object => exact absurd rfl h
    | _ => rfl
  | .data d, h => by
    cases d with
    | map => exact absurd rfl h
    | _ => rfl
  | .text _, _ | .bool _, _ | .integer _, _ | .float .., _ | .absent, _ | .vector _, _
  | .slice _, _ | .custom .., _ => rfl

/-! ## Values that are built in -/

/-- A value is built in if it is none of a user's own, and no optional value and no reference with
one inside. -/
def BuiltIn : Value → Prop
  | .present v | .ref v => v.BuiltIn
  | .custom .. => False
  | .text _ | .bool _ | .integer _ | .float .. | .absent | .vector _ | .slice _ | .hashMap _
  | .orderedMap _ | .json _ | .data _ => True

/-- Only a sequence has items. -/
theorem items_eq_nil : ∀ {v : Value}, v.BuiltIn → v.shape ≠ .sequence → v.items = []
  | .present v, hv, h | .ref v, hv, h => items_eq_nil (v := v) hv h
  | .custom .., hv, _ => hv.elim
  | .vector _, _, h | .slice _, _, h => absurd rfl h
  | .json j, _, h => by
    cases j with
    | array => exact absurd rfl h
    | _ => rfl
  | .data d, _, h => by
    cases d with
    | list => exact absurd rfl h
    | _ => rfl
  | .text _, _, _ | .bool _, _, _ | .integer _, _, _ | .float .., _, _ | .absent, _, _
  | .hashMap _, _, _ | .orderedMap _, _, _ => rfl

/-- A lambda is what has a lambda. -/
theorem isSome_lambda?_iff : ∀ {v : Value}, v.BuiltIn →
    (v.lambda?.isSome = true ↔ v.shape = .lambda)
  | .present v, hv | .ref v, hv => isSome_lambda?_iff (v := v) hv
  | .custom .., hv => hv.elim
  | .json j, _ => by cases j <;> exact ⟨nofun, nofun⟩
  | .data d, _ => by
    cases d with
    | lambda => exact ⟨fun _ => rfl, fun _ => rfl⟩
    | _ => exact ⟨nofun, nofun⟩
  | .text _, _ | .bool _, _ | .integer _, _ | .float .., _ | .absent, _ | .vector _, _
  | .slice _, _ | .hashMap _, _ | .orderedMap _, _ => ⟨nofun, nofun⟩

/-- Only a scalar has a text. -/
theorem toText_eq_nil : ∀ {v : Value}, v.BuiltIn → v.shape ≠ .scalar → v.toText = []
  | .present v, hv, h | .ref v, hv, h => toText_eq_nil (v := v) hv h
  | .custom .., hv, _ => hv.elim
  | .text _, _, h | .bool _, _, h | .integer _, _, h | .float .., _, h => absurd rfl h
  | .json j, _, h => by
    cases j with
    | null | array | object => rfl
    | _ => exact absurd rfl h
  | .data d, _, h => by
    cases d with
    | null | list | map | lambda => rfl
    | _ => exact absurd rfl h
  | .absent, _, _ | .vector _, _, _ | .slice _, _, _ | .hashMap _, _, _
  | .orderedMap _, _, _ => rfl

/-- The views of a value agree with its shape and with each other. -/
structure Coherent (v : Value) : Prop where
  /-- What is at a position is the item there. -/
  getAt? : ∀ i, v.getAt? i = v.items[i]?
  /-- Only a sequence has items. -/
  items : v.items ≠ [] → v.shape = .sequence
  /-- Only a mapping has entries. -/
  get? : ∀ key w, v.get? key = some w → v.shape = .mapping
  /-- A lambda is what has a lambda. -/
  lambda? : v.lambda?.isSome = true ↔ v.shape = .lambda
  /-- Only a scalar has a text. -/
  toText : v.toText ≠ [] → v.shape = .scalar
  /-- Null does not count as true. -/
  null : v.shape = .null → v.truthy = false
  /-- A sequence counts as true if it has items. -/
  sequence : v.shape = .sequence → (v.truthy = true ↔ v.items ≠ [])
  /-- A mapping counts as true, entries or none. -/
  mapping : v.shape = .mapping → v.truthy = true
  /-- A lambda counts as true. -/
  lambda : v.shape = .lambda → v.truthy = true

/-- **The views of a value agree,** unless it is a value of a user's own: through any number of
optional values and references, and whatever is held by lists and maps. -/
theorem coherent_of_builtIn {v : Value} (hv : v.BuiltIn) : v.Coherent where
  getAt? i := getAt?_eq_getElem? i v
  items h := by
    by_contra hshape
    exact h (items_eq_nil hv hshape)
  get? key w hw := by
    by_contra hshape
    rw [get?_eq_none key hshape] at hw
    cases hw
  lambda? := isSome_lambda?_iff hv
  toText h := by
    by_contra hshape
    exact h (toText_eq_nil hv hshape)
  null h := by rw [truthy_eq, h]
  sequence h := by
    rw [truthy_eq, h]
    simp
  mapping h := by rw [truthy_eq, h]
  lambda h := by rw [truthy_eq, h]

/-- An optional reference to a list of what is absent, a map and JSON, and a reference to an
optional lambda. -/
theorem coherent_of_builtIn_nested :
    let list : Value := .present (.ref (.vector [.present .absent, .orderedMap [],
      .json (.array [.null])]))
    let lambda : Value := .ref (.present (.data (.lambda ⟨0, none, .done⟩)))
    list.BuiltIn ∧ list.truthy = true ∧ list.toText = [] ∧ list.get? ['0'] = none ∧
      lambda.BuiltIn ∧ lambda.lambda?.isSome = true ∧ lambda.truthy = true := by
  intro list lambda
  have hlist : list.Coherent := coherent_of_builtIn trivial
  have hlambda : lambda.Coherent := coherent_of_builtIn trivial
  refine ⟨trivial, (hlist.sequence rfl).2 nofun, ?_, ?_, trivial, hlambda.lambda?.2 rfl,
    hlambda.lambda rfl⟩
  · by_contra htext
    cases hlist.toText htext
  · by_contra hentry
    obtain ⟨w, hw⟩ := Option.ne_none_iff_exists'.1 hentry
    cases hlist.get? _ w hw

end Value

end Mustache
