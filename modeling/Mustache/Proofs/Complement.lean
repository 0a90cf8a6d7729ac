import Mathlib.Logic.Basic
import Mustache.Proofs.Coherence
import Mustache.Proofs.LambdaFree

/-!
# Sections and inverted sections

A section goes by the shape and the items of a value, and an inverted section by whether the value
counts as true. Since the views of a value agree (`Value.truthy_eq`), one of the two renders its
children and the other does not (`Context.enteredInverted_eq`), unless the value is a lambda, for
which neither does.

What a tag does with its children is told by the contexts that it renders them in, whatever it is
that renders them (`Enters`). These contexts can be told from the results (`Enters.unique`), so that
a tag that renders its children in some contexts does not render them in others as well.
-/

namespace Mustache

open Renderable (shape lambda?)

/-! ## The contexts that children are rendered in -/

/-- Children are rendered once in each of some contexts, one after another, and nothing else is. -/
def Enters {V : Type} (run : BlockRenderer V → List Tag → Option Rendering)
    (contexts : List (Context V)) : Prop :=
  ∀ block children, run block children = Rendering.each (fun c => block c children) contexts

/-- A run over items that are rendered to one character each has these characters. -/
theorem Rendering.each_char {α : Type} (f : α → Char) (as : List α) :
    Rendering.each (fun a => some ⟨[f a], []⟩) as = some ⟨as.map f, []⟩ := by
  induction as with
  | nil => rfl
  | cons a as ih =>
    rw [each, ih]
    rfl

/-- Lists are equal if no item is told from another one at the same place by any character. -/
theorem eq_of_map_char {α : Type} {as bs : List α}
    (h : ∀ f : α → Char, as.map f = bs.map f) : as = bs := by
  classical
  -- The character that is written for `a` alone tells it from any other item.
  induction as generalizing bs with
  | nil => exact (List.map_eq_nil_iff.1 (h fun _ => 'x').symm).symm
  | cons a as ih =>
    cases bs with
    | nil => exact absurd (h fun _ => 'x') nofun
    | cons b bs =>
      have hfirst : 'x' = if b = a then 'x' else 'y' := by
        simpa using (List.cons.inj (h fun c => if c = a then 'x' else 'y')).1
      have hb : b = a := by
        by_contra hne
        rw [if_neg hne] at hfirst
        exact absurd hfirst (by decide)
      rw [hb, ih fun f => (List.cons.inj (h f)).2]

/-- Children are rendered in the contexts of one list only. -/
theorem Enters.unique {V : Type} {run : BlockRenderer V → List Tag → Option Rendering}
    {contexts contexts' : List (Context V)} (h : Enters run contexts) (h' : Enters run contexts') :
    contexts = contexts' := by
  refine eq_of_map_char fun f => ?_
  have hsame := (h (fun c _ => some ⟨[f c], []⟩) []).symm.trans (h' _ [])
  rw [Rendering.each_char, Rendering.each_char] at hsame
  exact congrArg Rendering.text (Option.some.inj hsame)

/-- If one run enters some contexts, and another one enters a context where the first enters none,
then just one of them enters any. -/
theorem Enters.complement {V : Type} {run run' : BlockRenderer V → List Tag → Option Rendering}
    {contexts : List (Context V)} {context : Context V} (h : Enters run contexts)
    (h' : Enters run' (if contexts = [] then [context] else [])) :
    Xor (∃ contexts, contexts ≠ [] ∧ Enters run contexts) (Enters run' [context]) ∧
      (Enters run [] ∨ Enters run' []) := by
  by_cases hnil : contexts = []
  · subst hnil
    rw [if_pos rfl] at h'
    refine ⟨.inr ⟨h', ?_⟩, .inl h⟩
    rintro ⟨contexts, hne, henters⟩
    exact hne (henters.unique h)
  · rw [if_neg hnil] at h'
    refine ⟨.inl ⟨⟨contexts, hnil, h⟩, fun henters => ?_⟩, .inr h'⟩
    exact absurd (henters.unique h') nofun

section Tags

variable {V : Type} [Renderable V] {scope : Scope} {context : Context V} {key source : Text}
  {d : Delimiters}

/-- A section enters the contexts that its value says, unless it calls a lambda. -/
theorem enters_block
    (h : ∀ v, context.resolve scope.keyType key = some v → shape v = .lambda → lambda? v = none) :
    Enters (fun block children => renderTag block scope context (.block key source d children))
      (context.entered scope.keyType key) :=
  fun _ _ => renderSection_entered h

/-- For a lambda the children of a section make no difference. -/
theorem renderSection_of_lambda {block : BlockRenderer V} {children children' : List Tag} {v : V}
    (hv : context.resolve scope.keyType key = some v) (h : shape v = .lambda) :
    renderSection block scope context key source d children =
      renderSection block scope context key source d children' := by
  simp only [renderSection, hv, h]

/-- An inverted section enters the context that it stands in, or none. -/
theorem enters_inverted :
    Enters (fun block children => renderTag block scope context (.inverted key children))
      (context.enteredInverted scope.keyType key) :=
  fun _ _ => renderInverted_eq

end Tags

namespace Context

variable {context : Context Value} {keyType : KeyType} {key : Text} {v : Value}

/-- The contexts that a section enters for a value. -/
theorem entered_of_resolve (hv : context.resolve keyType key = some v) :
    context.entered keyType key = match v.shape with
      | .sequence => v.items.map (· :: context)
      | .mapping => [v :: context]
      | .scalar => if v.truthy then [context] else []
      | .null | .lambda => [] := by
  cases hshape : v.shape <;>
    simp only [entered, hv, Renderable.shape_value, hshape, Renderable.items_value,
      Renderable.truthy_value]

/-- Where a section does not enter a context, the inverted section enters that which it stands in,
unless the key denotes a lambda. -/
theorem enteredInverted_eq (h : ∀ v, context.resolve keyType key = some v → v.shape ≠ .lambda) :
    context.enteredInverted keyType key =
      if context.entered keyType key = [] then [context] else [] := by
  unfold enteredInverted
  cases hv : context.resolve keyType key with
  | none =>
    have hentered : context.entered keyType key = [] := by rw [entered, hv]
    rw [hentered]
    rfl
  | some v =>
    have htruthy := v.truthy_eq
    rw [entered_of_resolve hv, Option.any_some, Renderable.truthy_value]
    cases hshape : v.shape with
    | lambda => exact absurd hshape (h v hv)
    | null => simp only [hshape] at htruthy; simp [htruthy]
    | mapping => simp only [hshape] at htruthy; simp [htruthy]
    | sequence => simp only [hshape] at htruthy; cases hitems : v.items <;> simp [htruthy, hitems]
    | scalar => cases v.truthy <;> rfl

/-- An inverted section enters no context for a lambda. -/
theorem enteredInverted_of_lambda (hv : context.resolve keyType key = some v)
    (h : v.shape = .lambda) : context.enteredInverted keyType key = [] := by
  have htruthy := v.truthy_eq
  simp only [h] at htruthy
  rw [enteredInverted, hv, Option.any_some, Renderable.truthy_value, htruthy]
  rfl

end Context

/-- **A section and an inverted section on the same key complement each other.** Unless the key
denotes a lambda, either the section renders its children at least once or the inverted section
renders them once, and the other one does not render them. The section renders them once for each
item of a sequence, in order and with the item innermost, once with a mapping innermost, and once in
the same context for a scalar that counts as true. For a lambda neither renders its children: the
inverted section renders nothing, and what comes of the section is the same for all children. -/
theorem section_complements_inverted (scope : Scope) (context : Context Value) (key source : Text)
    (d : Delimiters) :
    let straight := fun block children =>
      renderTag block scope context (.block key source d children)
    let inverted := fun block children => renderTag block scope context (.inverted key children)
    ((∀ v, context.resolve scope.keyType key = some v → v.shape ≠ .lambda) →
      Xor (∃ contexts, contexts ≠ [] ∧ Enters straight contexts) (Enters inverted [context]) ∧
        (Enters straight [] ∨ Enters inverted [])) ∧
    ∀ v, context.resolve scope.keyType key = some v →
      (v.shape = .sequence → Enters straight (v.items.map (· :: context))) ∧
      (v.shape = .mapping → Enters straight [v :: context]) ∧
      (v.shape = .scalar → v.truthy = true → Enters straight [context]) ∧
      (v.shape = .lambda → Enters inverted [] ∧
        ∀ block children children', straight block children = straight block children') := by
  intro straight inverted
  have hinverted : Enters inverted (context.enteredInverted scope.keyType key) := enters_inverted
  refine ⟨fun hlambda => ?_, fun v hv => ?_⟩
  · have hstraight : Enters straight (context.entered scope.keyType key) :=
      enters_block fun v hv h => absurd h (hlambda v hv)
    exact hstraight.complement (Context.enteredInverted_eq hlambda ▸ hinverted)
  · have hentered := Context.entered_of_resolve hv
    have hstraight : v.shape ≠ .lambda → Enters straight (context.entered scope.keyType key) := by
      intro hshape
      refine enters_block fun w hw h => absurd h ?_
      obtain rfl : v = w := Option.some.inj (hv.symm.trans hw)
      exact hshape
    refine ⟨fun h => ?_, fun h => ?_, fun h htrue => ?_, fun h => ⟨?_, fun block ts us => ?_⟩⟩
    · simp only [h] at hentered
      exact hentered ▸ hstraight (h ▸ nofun)
    · simp only [h] at hentered
      exact hentered ▸ hstraight (h ▸ nofun)
    · simp only [h, htrue, if_true] at hentered
      exact hentered ▸ hstraight (h ▸ nofun)
    · rw [← Context.enteredInverted_of_lambda hv h]
      exact hinverted
    · exact renderSection_of_lambda hv h

/-- An optional list behind a reference, an empty map, a zero, and a lambda. -/
theorem section_complements_inverted_list :
    let list : Value := .present (.ref (.vector [.integer 1, .absent]))
    let map : Value := .orderedMap []
    let context : Context Value := [.hashMap [(['x'], list), (['m'], map), (['n'], .integer 0),
      (['f'], .data (.lambda ⟨0, none, .done⟩))]]
    let straight := fun key block children =>
      renderTag block ⟨.indexed, []⟩ context (.block key [] {} children)
    let inverted := fun key block children =>
      renderTag block ⟨.indexed, []⟩ context (.inverted key children)
    Xor (∃ contexts, contexts ≠ [] ∧ Enters (straight ['x']) contexts)
        (Enters (inverted ['x']) [context]) ∧
      Enters (straight ['x']) [.integer 1 :: context, .absent :: context] ∧
      Enters (straight ['m']) [map :: context] ∧ Enters (straight ['n']) [context] ∧
      Enters (inverted ['f']) [] := by
  intro list map context straight inverted
  have hlaw := fun key => section_complements_inverted ⟨.indexed, []⟩ context key [] {}
  have hlist : ∀ v, context.resolve .indexed ['x'] = some v → v.shape ≠ .lambda := by
    rintro v hv
    obtain rfl : list = v := Option.some.inj hv
    exact nofun
  exact ⟨((hlaw ['x']).1 hlist).1, ((hlaw ['x']).2 list rfl).1 rfl,
    ((hlaw ['m']).2 map rfl).2.1 rfl, ((hlaw ['n']).2 (.integer 0) rfl).2.2.1 rfl rfl,
    (((hlaw ['f']).2 _ rfl).2.2.2 rfl).1⟩

end Mustache
