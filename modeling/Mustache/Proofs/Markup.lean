import Mustache.Proofs.Entity
import Mustache.Proofs.LambdaFree

/-!
# Markup comes from the template

An escaped text has no markup (`not_mem_escape`). So a rendering without raw values has as much
markup as the rendering of the template without its values, whatever the data are: both take the
same branches in the same contexts (`renderBlock_dropEscaped`), and what the values add is escaped.
-/

namespace Mustache

open Renderable (LambdaFree)

namespace Tag

mutual

/-- A tag without the escaped values in it: nothing if it is one itself. -/
def dropEscaped : Tag → List Tag
  | .literal t => [.literal t]
  | .escaped _ => []
  | .raw key => [.raw key]
  | .block key source d children => [.block key source d (dropEscapedList children)]
  | .inverted key children => [.inverted key (dropEscapedList children)]
  | .inclusion name => [.inclusion name]

/-- Tags without the escaped values among them and in them. -/
def dropEscapedList : List Tag → List Tag
  | [] => []
  | t :: ts => dropEscaped t ++ dropEscapedList ts

end

mutual

/-- No value in a tag is shown as it is. -/
def rawFree : Tag → Bool
  | .raw _ => false
  | .block _ _ _ children | .inverted _ children => rawFreeList children
  | .literal _ | .escaped _ | .inclusion _ => true

/-- No value in a list of tags is shown as it is. -/
def rawFreeList : List Tag → Bool
  | [] => true
  | t :: ts => rawFree t && rawFreeList ts

end

end Tag

/-- Two renderings have the same markup, each character as often. -/
def Rendering.SameMarkup (r s : Rendering) : Prop :=
  ∀ c ∈ markup, r.text.count c = s.text.count c

namespace Rendering

variable {r r' s s' : Rendering}

/-- One rendering after another has the markup of both. -/
theorem SameMarkup.append (h : r.SameMarkup s) (h' : r'.SameMarkup s') :
    (r ++ r').SameMarkup (s ++ s') := by
  intro c hc
  have hleft : (r ++ r').text.count c = r.text.count c + r'.text.count c := List.count_append
  have hright : (s ++ s').text.count c = s.text.count c + s'.text.count c := List.count_append
  rw [hleft, hright, h c hc, h' c hc]

/-- An escaped text in front adds no markup. -/
theorem SameMarkup.escape_append {t : Text} {events : List Event} (h : r.SameMarkup s) :
    ((⟨escape t, events⟩ : Rendering) ++ r).SameMarkup s := by
  intro c hc
  have hleft : ((⟨escape t, events⟩ : Rendering) ++ r).text.count c =
      (escape t).count c + r.text.count c := List.count_append
  rw [hleft, List.count_eq_zero.2 (not_mem_escape hc t), Nat.zero_add, h c hc]

/-- A first rendering and the rest of a run have the markup of another such pair. -/
theorem each_cons_sameMarkup {α β : Type} {f : α → Option Rendering} {g : β → Option Rendering}
    {a : α} {as : List α} {b : β} {bs : List β} (h : Option.Rel SameMarkup (f a) (g b))
    (hs : Option.Rel SameMarkup (each f as) (each g bs)) :
    Option.Rel SameMarkup (each f (a :: as)) (each g (b :: bs)) := by
  simp only [each]
  generalize f a = x at h ⊢
  generalize g b = y at h ⊢
  generalize each f as = xs at hs ⊢
  generalize each g bs = ys at hs ⊢
  cases h with
  | none => exact .none
  | some hab =>
    cases hs with
    | none => exact .none
    | some habs => exact .some (hab.append habs)

/-- A run that begins with an escaped text has the markup of the rest. -/
theorem each_cons_escape {α β : Type} {f : α → Option Rendering} {g : β → Option Rendering}
    {a : α} {as : List α} {bs : List β} {t : Text} {events : List Event}
    (h : f a = some ⟨escape t, events⟩) (hs : Option.Rel SameMarkup (each f as) (each g bs)) :
    Option.Rel SameMarkup (each f (a :: as)) (each g bs) := by
  simp only [each, h]
  generalize each f as = xs at hs ⊢
  generalize each g bs = ys at hs ⊢
  cases hs with
  | none => exact .none
  | some habs => exact .some habs.escape_append

/-- Renderings one after another have the same markup if each of them has. -/
theorem each_sameMarkup {α : Type} {f g : α → Option Rendering} {as : List α}
    (h : ∀ a ∈ as, Option.Rel SameMarkup (f a) (g a)) :
    Option.Rel SameMarkup (each f as) (each g as) := by
  induction as with
  | nil => exact .some fun _ _ => rfl
  | cons a as ih => exact each_cons_sameMarkup (h a (.head _)) (ih fun b hb => h b (.tail _ hb))

end Rendering

/-- What tags are rendered with, the partials without their escaped values. -/
def Scope.withoutEscaped (scope : Scope) : Scope :=
  ⟨scope.keyType, scope.partials.map fun (name, tags) => (name, Tag.dropEscapedList tags)⟩

/-- No value in the partials is shown as it is. -/
def Scope.RawFree (scope : Scope) : Prop :=
  ∀ name tags, valueAt? scope.partials name = some tags → Tag.rawFreeList tags = true

section Render

variable {V : Type} [Renderable V]

/-- Blocks have the markup that they have without their escaped values. -/
def BlockRenderer.SameMarkup (block block' : BlockRenderer V) : Prop :=
  ∀ ⦃context : Context V⦄ ⦃tags : List Tag⦄, context.LambdaFree → Tag.rawFreeList tags = true →
    Option.Rel Rendering.SameMarkup (block context tags) (block' context (Tag.dropEscapedList tags))

variable {block block' : BlockRenderer V} {scope : Scope} {context : Context V}

/-- Blocks in several contexts have the markup that they have without their escaped values. -/
theorem BlockRenderer.SameMarkup.each (hb : block.SameMarkup block') {contexts : List (Context V)}
    (hc : ∀ c ∈ contexts, c.LambdaFree) {tags : List Tag} (ht : Tag.rawFreeList tags = true) :
    Option.Rel Rendering.SameMarkup (Rendering.each (fun c => block c tags) contexts)
      (Rendering.each (fun c => block' c (Tag.dropEscapedList tags)) contexts) :=
  Rendering.each_sameMarkup fun c h => hb (hc c h) ht

/-- A tag that stays has the markup that it has without its escaped values. -/
theorem renderTag_dropEscaped (hb : block.SameMarkup block') (hs : scope.RawFree)
    (hc : context.LambdaFree) {t t' : Tag} (ht : Tag.rawFree t = true)
    (ht' : Tag.dropEscaped t = [t']) :
    Option.Rel Rendering.SameMarkup (renderTag block scope context t)
      (renderTag block' scope.withoutEscaped context t') := by
  cases t with
  | literal text => cases ht'; exact .some fun _ _ => rfl
  | escaped key => cases ht'
  | raw key => cases ht
  | block key source d children =>
    cases ht'
    simp only [renderTag, renderSection_eq hc]
    exact hb.each hc.entered ht
  | inverted key children =>
    cases ht'
    simp only [renderTag, renderInverted_eq]
    exact hb.each (fun c h => Context.eq_of_mem_enteredInverted h ▸ hc) ht
  | inclusion name =>
    cases ht'
    have hfind : valueAt? scope.withoutEscaped.partials name =
        (valueAt? scope.partials name).map Tag.dropEscapedList := valueAt?_map ..
    simp only [renderTag, hfind]
    cases hname : valueAt? scope.partials name with
    | none => exact .some fun _ _ => rfl
    | some tags => exact hb hc (hs name tags hname)

/-- Tags have the markup that they have without their escaped values. -/
theorem each_dropEscaped (hb : block.SameMarkup block') (hs : scope.RawFree)
    (hc : context.LambdaFree) {tags : List Tag} (ht : Tag.rawFreeList tags = true) :
    Option.Rel Rendering.SameMarkup (Rendering.each (renderTag block scope context) tags)
      (Rendering.each (renderTag block' scope.withoutEscaped context)
        (Tag.dropEscapedList tags)) := by
  induction tags with
  | nil => exact .some fun _ _ => rfl
  | cons t ts ih =>
    obtain ⟨hfirst, hrest⟩ : Tag.rawFree t = true ∧ Tag.rawFreeList ts = true := by
      simpa [Tag.rawFreeList] using ht
    have hts := ih hrest
    by_cases hescaped : ∃ key, t = .escaped key
    · obtain ⟨key, rfl⟩ := hescaped
      have hdrop : Tag.dropEscapedList (.escaped key :: ts) = Tag.dropEscapedList ts := rfl
      have htag : renderTag block scope context (.escaped key) =
          some ⟨escape (context.textOf scope.keyType key), []⟩ := by
        rw [renderTag, renderKey_eq hc, Option.map_some]
      rw [hdrop]
      exact Rendering.each_cons_escape htag hts
    · obtain ⟨t', ht'⟩ : ∃ t', Tag.dropEscaped t = [t'] := by
        cases t with
        | escaped key => exact absurd ⟨key, rfl⟩ hescaped
        | _ => exact ⟨_, rfl⟩
      have hdrop : Tag.dropEscapedList (t :: ts) = t' :: Tag.dropEscapedList ts := by
        rw [Tag.dropEscapedList, ht', List.singleton_append]
      rw [hdrop]
      exact Rendering.each_cons_sameMarkup (renderTag_dropEscaped hb hs hc hfirst ht') hts

/-- **A block has the markup of its literals.** To every depth, and in every lambda-free context, it
is rendered if it is without its escaped values, and to as much markup. -/
theorem renderBlock_dropEscaped (hs : scope.RawFree) (depth : Nat) :
    (renderBlock (V := V) scope depth).SameMarkup (renderBlock scope.withoutEscaped depth) := by
  induction depth with
  | zero => exact fun _ _ _ _ => .none
  | succ depth ih => exact fun context tags hc ht => each_dropEscaped ih hs hc ht

end Render

namespace Template

/-- The template and its partials without their escaped values. -/
def withoutEscaped (t : Template) : Template :=
  { t with
    tags := Tag.dropEscapedList t.tags
    partials := t.partials.map fun (name, tags) => (name, Tag.dropEscapedList tags) }

/-- No value in a template or in one of its partials is shown as it is. -/
def RawFree (t : Template) : Prop :=
  Tag.rawFreeList t.tags = true ∧
    ∀ name tags, t.find? name = some tags → Tag.rawFreeList tags = true

/-- **Data cannot bring in markup.** A template without raw values is rendered against lambda-free
data of whatever type if and only if it is rendered without its escaped values, and each character
that makes markup comes out as often. -/
theorem count_markup_renders {t : Template} (ht : t.RawFree) {V : Type} [Renderable V] {v : V}
    (hv : LambdaFree v) :
    ((∃ r, t.Renders v r) ↔ ∃ s, t.withoutEscaped.Renders v s) ∧
      ∀ r s, t.Renders v r → t.withoutEscaped.Renders v s →
        ∀ c ∈ ['<', '>', '"'], r.text.count c = s.text.count c := by
  have hrel : ∀ depth, Option.Rel Rendering.SameMarkup (t.renderWithin depth v)
      (t.withoutEscaped.renderWithin depth v) := fun depth => by
    have hcontext : Context.LambdaFree [v] := fun w hw => List.mem_singleton.1 hw ▸ hv
    have hscope : t.scope.RawFree := ht.2
    exact renderBlock_dropEscaped hscope depth hcontext ht.1
  refine ⟨⟨?_, ?_⟩, ?_⟩
  · rintro ⟨r, depth, hr⟩
    obtain ⟨s, hs, -⟩ := exists_of_rel (hrel depth) hr
    exact ⟨s, depth, hs⟩
  · rintro ⟨s, depth, hs⟩
    obtain ⟨r, hr, -⟩ := exists_of_rel (rel_flip (hrel depth)) hs
    exact ⟨r, depth, hr⟩
  · rintro r s ⟨depth, hr⟩ hs
    obtain ⟨s', hs', hsame⟩ := exists_of_rel (hrel depth) hr
    obtain rfl : s' = s := Renders.unique ⟨depth, hs'⟩ hs
    exact hsame

/-- A list that is rendered by a partial, with markup in its items, between markup of the template,
and in its place a value of a user's own, which is shown with markup. -/
theorem count_markup_renders_list :
    let t : Template := ⟨[.literal "<p>".toList, .block ['x'] [] {} [.inclusion ['i']],
      .escaped ['y']], [(['i'], [.escaped ['.'], .literal ['"']])], [['i']], {}⟩
    let v : Value := .json (.object [(['x'], .array [.text ['<'], .text ['"', '>']]),
      (['y'], .text "<b>".toList)])
    t.Renders v ⟨"<p>&lt;\"&quot;&gt;\"&lt;b&gt;".toList, []⟩ ∧
      t.withoutEscaped.Renders v ⟨"<p>\"\"".toList, []⟩ ∧
      (∀ c ∈ ['<', '>', '"'],
        "<p>&lt;\"&quot;&gt;\"&lt;b&gt;".toList.count c = "<p>\"\"".toList.count c) ∧
      ∃ s, t.withoutEscaped.Renders (⟨0⟩ : Counter) s ∧ ∀ c ∈ ['<', '>', '"'],
        "<p>&lt;1&gt;\"&lt;1&gt;".toList.count c = s.text.count c := by
  intro t v
  have hr : t.Renders v ⟨"<p>&lt;\"&quot;&gt;\"&lt;b&gt;".toList, []⟩ := ⟨3, by decide +kernel⟩
  have hs : t.withoutEscaped.Renders v ⟨"<p>\"\"".toList, []⟩ := ⟨3, by decide +kernel⟩
  have ht : t.RawFree := by
    refine ⟨by decide, fun name tags hfind => ?_⟩
    obtain rfl : ([.escaped ['.'], .literal ['"']] : List Tag) = tags := by
      have := mem_of_valueAt? hfind
      simp only [t, List.mem_singleton, Prod.mk.injEq] at this
      exact this.2.symm
    decide
  have hc : t.Renders (⟨0⟩ : Counter) ⟨"<p>&lt;1&gt;\"&lt;1&gt;".toList, []⟩ :=
    ⟨3, by decide +kernel⟩
  have hv : LambdaFree v := (Value.WithoutLambda.json _).lambdaFree
  obtain ⟨hiff, hcount⟩ := count_markup_renders (v := (⟨0⟩ : Counter)) ht fun _ _ => rfl
  obtain ⟨s, hcs⟩ := hiff.1 ⟨_, hc⟩
  exact ⟨hr, hs, (count_markup_renders ht hv).2 _ _ hr hs, s, hcs, hcount _ s hc hcs⟩

end Template

end Mustache
