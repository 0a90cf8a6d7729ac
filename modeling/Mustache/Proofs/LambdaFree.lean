import Mathlib.Logic.Relation
import Mustache.Proofs.Bisimulation
import Mustache.Proofs.Coherence

/-!
# Rendering without lambdas

A value is lambda-free (`Renderable.LambdaFree`) if neither it nor any value that is found in it, to
whatever depth, is a lambda. Keys resolve to lambda-free values in a lambda-free context
(`Context.LambdaFree.resolve`), so that rendering calls no lambda. A tag then is a text or a run
over contexts: a key has a text (`renderKey_eq`), and a section renders its children once in each of
the contexts that it enters (`renderSection_eq`), which are lambda-free again.

Values may hold each other without end, so that being lambda-free is not told by an induction over
the values. What is enough is a property of values that excludes lambdas and holds of all that such
a value holds (`Renderable.lambdaFree_of_invariant`). For the values that there are from the start
it is that none of their parts is a lambda (`Value.WithoutLambda.lambdaFree`).
-/

namespace Mustache

namespace Renderable

variable {V : Type} [Renderable V] {v w : V} {key : Text}

/-- A value has another one under a key, at a position or among its items. -/
inductive Holds : V → V → Prop
  | get? {v w : V} {key : Text} : get? key v = some w → Holds v w
  | getAt? {v w : V} {i : Nat} : getAt? i v = some w → Holds v w
  | item {v w : V} : w ∈ items v → Holds v w

/-- Neither a value nor what is found in it, at any depth, is a lambda. -/
def LambdaFree (v : V) : Prop :=
  ∀ w, Relation.ReflTransGen Holds v w → lambda? w = none

/-- Values are lambda-free if a property excludes lambdas and is handed on to all that is held. -/
theorem lambdaFree_of_invariant {P : V → Prop} (hlambda : ∀ v, P v → lambda? v = none)
    (hholds : ∀ v w, P v → Holds v w → P w) (hv : P v) : LambdaFree v := by
  intro w hw
  have hPw : P w := by
    induction hw with
    | refl => exact hv
    | tail _ hstep ih => exact hholds _ _ ih hstep
  exact hlambda w hPw

namespace LambdaFree

theorem lambda? (h : LambdaFree v) : lambda? v = none :=
  h v .refl

/-- What a lambda-free value holds is lambda-free. -/
theorem of_holds (h : LambdaFree v) (hw : Holds v w) : LambdaFree w :=
  fun u hu => h u (.head hw hu)

/-- The items of a lambda-free value are lambda-free. -/
theorem items (h : LambdaFree v) (hw : w ∈ items v) : LambdaFree w :=
  h.of_holds (.item hw)

/-- Lambda-free values hold lambda-free values, as equality of such values says. -/
theorem bisimulation : Bisimulation fun v w : V => v = w ∧ LambdaFree v where
  shape h := h.1 ▸ rfl
  truthy h := h.1 ▸ rfl
  toText h := h.1 ▸ rfl
  lambda? h := h.1 ▸ rfl
  get? := by
    rintro v _ ⟨rfl, h⟩ key
    exact rel_self fun w hw => ⟨rfl, h.of_holds (.get? hw)⟩
  getAt? := by
    rintro v _ ⟨rfl, h⟩ i
    exact rel_self fun w hw => ⟨rfl, h.of_holds (.getAt? hw)⟩
  items := by
    rintro v _ ⟨rfl, h⟩
    exact List.forall₂_same.2 fun w hw => ⟨rfl, h.items hw⟩

end LambdaFree

end Renderable

open Renderable

namespace Context

variable {V : Type} [Renderable V] {context : Context V} {keyType : KeyType} {key : Text} {v : V}

/-- A context of lambda-free values. -/
def LambdaFree (context : Context V) : Prop :=
  ∀ v ∈ context, Renderable.LambdaFree v

/-- A key resolves to a lambda-free value in a lambda-free context. -/
theorem LambdaFree.resolve (h : context.LambdaFree) (hv : context.resolve keyType key = some v) :
    Renderable.LambdaFree v := by
  have hself : List.Forall₂ (fun v w => v = w ∧ Renderable.LambdaFree v) context context :=
    List.forall₂_same.2 fun v hv => ⟨rfl, h v hv⟩
  obtain ⟨hnone, -⟩ | ⟨u, w, hu, -, -, hfree⟩ :=
    Renderable.LambdaFree.bisimulation.resolve_cases hself keyType key
  · rw [hnone] at hv
    cases hv
  · rw [hu] at hv
    cases hv
    exact hfree

/-! ## The contexts of a section -/

/-- The contexts in which a section renders its children, one after another, if it calls no
lambda. -/
def entered (context : Context V) (keyType : KeyType) (key : Text) : List (Context V) :=
  match context.resolve keyType key with
  | none => []
  | some v =>
    match shape v with
    | .sequence => (items v).map (· :: context)
    | .mapping => [v :: context]
    | .scalar => if truthy v then [context] else []
    | .null | .lambda => []

/-- The contexts in which an inverted section renders its children. -/
def enteredInverted (context : Context V) (keyType : KeyType) (key : Text) :
    List (Context V) :=
  if (context.resolve keyType key).any truthy then [] else [context]

/-- The text of a key, if it calls no lambda. -/
def textOf (context : Context V) (keyType : KeyType) (key : Text) : Text :=
  (context.resolve keyType key).elim [] toText

/-- A section in a lambda-free context enters lambda-free contexts. -/
theorem LambdaFree.entered (h : context.LambdaFree) :
    ∀ c ∈ context.entered keyType key, c.LambdaFree := by
  intro c hc
  have hcons : ∀ w : V, Renderable.LambdaFree w → Context.LambdaFree (w :: context) :=
    fun w hw u hu => (List.mem_cons.1 hu).elim (fun heq => heq ▸ hw) (h u)
  unfold Context.entered at hc
  split at hc
  next => cases hc
  next v hv =>
    have hfree := h.resolve hv
    split at hc
    next =>
      obtain ⟨w, hw, rfl⟩ := List.mem_map.1 hc
      exact hcons w (hfree.items hw)
    next =>
      obtain rfl := List.mem_singleton.1 hc
      exact hcons v hfree
    next =>
      split at hc
      next => obtain rfl := List.mem_singleton.1 hc; exact h
      next => cases hc
    next => cases hc
    next => cases hc

/-- An inverted section enters the context that it stands in or none. -/
theorem eq_of_mem_enteredInverted {c : Context V} (hc : c ∈ context.enteredInverted keyType key) :
    c = context := by
  unfold enteredInverted at hc
  split at hc
  · cases hc
  · exact List.mem_singleton.1 hc

end Context

namespace Rendering

/-- Nothing behind a rendering leaves it as it is. -/
theorem append_empty (r : Rendering) : r ++ ({} : Rendering) = r := by
  show append r {} = r
  simp only [append, List.append_nil]

/-- A run over one item is its rendering. -/
theorem each_singleton {α : Type} (render : α → Option Rendering) (a : α) :
    each render [a] = render a := by
  cases h : render a with
  | none => simp only [each, h]
  | some r => simp only [each, h, Option.map_some, append_empty]

/-- A run over mapped items maps them first. -/
theorem each_map {α β : Type} (render : β → Option Rendering) (f : α → β) (as : List α) :
    each render (as.map f) = each (fun a => render (f a)) as := by
  induction as with
  | nil => rfl
  | cons a as ih => simp only [List.map_cons, each, ih]

end Rendering

section Tags

variable {V : Type} [Renderable V] {block : BlockRenderer V} {scope : Scope} {context : Context V}
  {key source : Text} {d : Delimiters} {children : List Tag}

/-- A key is rendered to its text. -/
theorem renderKey_eq (h : context.LambdaFree) :
    renderKey block scope context key = some ⟨context.textOf scope.keyType key, []⟩ := by
  unfold renderKey Context.textOf
  cases hv : context.resolve scope.keyType key with
  | none => rfl
  | some v => simp only [(h.resolve hv).lambda?, Option.elim_some]

/-- A section renders its children in the contexts that it enters, unless it calls a lambda. -/
theorem renderSection_entered
    (h : ∀ v, context.resolve scope.keyType key = some v → shape v = .lambda → lambda? v = none) :
    renderSection block scope context key source d children =
      Rendering.each (fun c => block c children) (context.entered scope.keyType key) := by
  unfold renderSection Context.entered
  cases hv : context.resolve scope.keyType key with
  | none => rfl
  | some v =>
    cases hshape : shape v with
    | lambda => simp only [h v hv hshape, hshape, Rendering.each]
    | sequence => simp only [hshape, Rendering.each_map]
    | mapping => simp only [hshape, Rendering.each_singleton]
    | null => simp only [hshape, Rendering.each]
    | scalar =>
      simp only [hshape]
      split
      · rw [Rendering.each_singleton]
      · rfl

/-- It calls none in a lambda-free context. -/
theorem renderSection_eq (h : context.LambdaFree) :
    renderSection block scope context key source d children =
      Rendering.each (fun c => block c children) (context.entered scope.keyType key) :=
  renderSection_entered fun _ hv _ => (h.resolve hv).lambda?

/-- An inverted section renders its children in the context that it enters, if any. -/
theorem renderInverted_eq : renderInverted block scope context key children =
    Rendering.each (fun c => block c children) (context.enteredInverted scope.keyType key) := by
  unfold renderInverted Context.enteredInverted
  split
  · rfl
  · rw [Rendering.each_singleton]

end Tags

/-! ## Values that are put together without lambdas -/

/-- Data in which there is no lambda. -/
inductive Data.WithoutLambda : Data → Prop
  | null : WithoutLambda .null
  | bool (b : Bool) : WithoutLambda (.bool b)
  | integer (n : Int) : WithoutLambda (.integer n)
  | float (x : Decimal.Binary) : WithoutLambda (.float x)
  | text (t : Text) : WithoutLambda (.text t)
  | list {items : List Data} : (∀ d ∈ items, d.WithoutLambda) → WithoutLambda (.list items)
  | map {entries : List (Text × Data)} : (∀ e ∈ entries, e.2.WithoutLambda) →
      WithoutLambda (.map entries)

/-- A value in which there is no lambda. -/
inductive Value.WithoutLambda : Value → Prop
  | text (t : Text) : WithoutLambda (.text t)
  | bool (b : Bool) : WithoutLambda (.bool b)
  | integer (n : Int) : WithoutLambda (.integer n)
  | float (f : Decimal.Format) (x : Decimal.Binary) : WithoutLambda (.float f x)
  | absent : WithoutLambda .absent
  | present {v : Value} : WithoutLambda v → WithoutLambda (.present v)
  | ref {v : Value} : WithoutLambda v → WithoutLambda (.ref v)
  | vector {vs : List Value} : (∀ v ∈ vs, v.WithoutLambda) → WithoutLambda (.vector vs)
  | slice {vs : List Value} : (∀ v ∈ vs, v.WithoutLambda) → WithoutLambda (.slice vs)
  | hashMap {entries : List (Text × Value)} : (∀ e ∈ entries, e.2.WithoutLambda) →
      WithoutLambda (.hashMap entries)
  | orderedMap {entries : List (Text × Value)} : (∀ e ∈ entries, e.2.WithoutLambda) →
      WithoutLambda (.orderedMap entries)
  | custom (s : Shape) (t : Text) {vs : List Value} : (∀ v ∈ vs, v.WithoutLambda) →
      WithoutLambda (.custom s t vs)
  | json (j : Json) : WithoutLambda (.json j)
  | data {d : Data} : d.WithoutLambda → WithoutLambda (.data d)

namespace Data.WithoutLambda

variable {d e : Data} {key : Text}

theorem get? (h : d.WithoutLambda) (he : d.get? key = some e) : e.WithoutLambda := by
  cases h with
  | map hentries => exact hentries _ (mem_of_valueAt? he)
  | _ => cases he

theorem items (h : d.WithoutLambda) (he : e ∈ d.items) : e.WithoutLambda := by
  cases h with
  | list hitems => exact hitems e he
  | _ => cases he

theorem lambda? (h : d.WithoutLambda) : d.lambda? = none := by
  cases h <;> rfl

end Data.WithoutLambda

namespace Value.WithoutLambda

variable {v w : Value} {key : Text}

theorem get? (h : v.WithoutLambda) (hw : v.get? key = some w) : w.WithoutLambda := by
  induction h with
  | present _ ih | ref _ ih => exact ih hw
  | hashMap hentries | orderedMap hentries => exact hentries _ (mem_of_valueAt? hw)
  | json j =>
    obtain ⟨k, -, rfl⟩ := Option.map_eq_some_iff.1 hw
    exact .json k
  | data hd =>
    obtain ⟨e, he, rfl⟩ := Option.map_eq_some_iff.1 hw
    exact .data (hd.get? he)
  | _ => cases hw

theorem items (h : v.WithoutLambda) (hw : w ∈ v.items) : w.WithoutLambda := by
  induction h with
  | present _ ih | ref _ ih => exact ih hw
  | vector hitems | slice hitems | custom _ _ hitems => exact hitems w hw
  | json j =>
    obtain ⟨k, -, rfl⟩ := List.mem_map.1 hw
    exact .json k
  | data hd =>
    obtain ⟨e, he, rfl⟩ := List.mem_map.1 hw
    exact .data (hd.items he)
  | _ => cases hw

theorem lambda? (h : v.WithoutLambda) : v.lambda? = none := by
  induction h with
  | present _ ih | ref _ ih => exact ih
  | data hd => exact hd.lambda?
  | _ => rfl

/-- The item at a position is one of the items. -/
theorem getAt? {i : Nat} (h : v.WithoutLambda) (hw : v.getAt? i = some w) : w.WithoutLambda := by
  rw [getAt?_eq_getElem?] at hw
  exact h.items (List.mem_of_getElem? hw)

/-- **A value without lambdas among its parts is lambda-free.** -/
theorem lambdaFree (h : v.WithoutLambda) : LambdaFree v := by
  refine lambdaFree_of_invariant (fun _ => lambda?) (fun v w hv hw => ?_) h
  cases hw with
  | get? hw => exact hv.get? hw
  | getAt? hw => exact hv.getAt? hw
  | item hw => exact hv.items hw

end Value.WithoutLambda

end Mustache
