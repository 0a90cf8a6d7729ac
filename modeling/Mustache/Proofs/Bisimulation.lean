import Mathlib.Data.List.Forall2
import Mustache.Template

/-!
# Values that cannot be told apart

The renderer sees of a value its shape, its text, its lambda, whether it counts as true, and the
values that it holds. A relation between values, of one type or of two, is a `Bisimulation` if
related values are seen alike and hold values that are related again. Keys then resolve to related
values (`Bisimulation.resolve`), and rendering does not tell one context from a related one, lambdas
included (`Bisimulation.renderBlock`).

The rendering in the second context may go deeper than the one in the first. With equality for the
relation this says that a rendering that has ended does not depend on the depth that it is allowed:
`Template.Renders`, which forgets the depth, yields one rendering at most
(`Template.Renders.unique`).
-/

namespace Mustache

open Renderable

/-- Related values are seen alike by the renderer and hold values that are related again. -/
structure Bisimulation {V W : Type} [Renderable V] [Renderable W] (R : V → W → Prop) : Prop where
  shape : ∀ {v : V} {w : W}, R v w → shape v = shape w
  truthy : ∀ {v : V} {w : W}, R v w → truthy v = truthy w
  toText : ∀ {v : V} {w : W}, R v w → toText v = toText w
  lambda? : ∀ {v : V} {w : W}, R v w → lambda? v = lambda? w
  get? : ∀ {v : V} {w : W}, R v w → ∀ key, Option.Rel R (get? key v) (get? key w)
  getAt? : ∀ {v : V} {w : W}, R v w → ∀ i, Option.Rel R (getAt? i v) (getAt? i w)
  items : ∀ {v : V} {w : W}, R v w → List.Forall₂ R (items v) (items w)

/-! ## Optional values -/

section Optional

variable {α β γ δ : Type} {R : α → β → Prop} {S : γ → δ → Prop} {x u : Option α} {y z : Option β}

/-- Related options go on to related options. -/
theorem rel_bind {f : α → Option γ} {g : β → Option δ} (h : Option.Rel R x y)
    (hfg : ∀ {a b}, R a b → Option.Rel S (f a) (g b)) :
    Option.Rel S (x.bind f) (y.bind g) := by
  cases h with
  | none => exact .none
  | some hab => exact hfg hab

/-- The first of two options that is there is related to the first of two related ones. -/
theorem rel_or (h : Option.Rel R x y) (h' : Option.Rel R u z) :
    Option.Rel R (x.or u) (y.or z) := by
  cases h with
  | none => simpa using h'
  | some hab => simpa using Option.Rel.some hab

/-- Related options are related the other way round by the converse relation. -/
theorem rel_flip (h : Option.Rel R x y) : Option.Rel (fun b a => R a b) y x := by
  cases h with
  | none => exact .none
  | some hab => exact .some hab

/-- What an option holds is related to what a related option holds. -/
theorem exists_of_rel (h : Option.Rel R x y) {a : α} (ha : x = some a) :
    ∃ b, y = some b ∧ R a b := by
  subst ha
  cases h with
  | some hab => exact ⟨_, rfl, hab⟩

/-- An option is related to itself if what it holds is. -/
theorem rel_self {R : α → α → Prop} (h : ∀ a, x = some a → R a a) : Option.Rel R x x := by
  cases x with
  | none => exact .none
  | some a => exact .some (h a rfl)

end Optional

section Values

variable {V W : Type} [Renderable V] [Renderable W]

namespace Bisimulation

variable {R : V → W → Prop} {v : V} {w : W} {context : Context V} {context' : Context W}
  {keyType : KeyType} {segment key : Text}

/-- No value can be told from itself. -/
theorem of_eq : Bisimulation (@Eq V) where
  shape h := h ▸ rfl
  truthy h := h ▸ rfl
  toText h := h ▸ rfl
  lambda? h := h ▸ rfl
  get? h _ := h ▸ rel_self fun _ _ => rfl
  getAt? h _ := h ▸ rel_self fun _ _ => rfl
  items h := h ▸ List.forall₂_same.2 fun _ _ => rfl

/-- Of two related values neither can be told from the other. -/
theorem symm (hR : Bisimulation R) : Bisimulation fun w v => R v w where
  shape h := (hR.shape h).symm
  truthy h := (hR.truthy h).symm
  toText h := (hR.toText h).symm
  lambda? h := (hR.lambda? h).symm
  get? h key := rel_flip (hR.get? h key)
  getAt? h i := rel_flip (hR.getAt? h i)
  items h := (hR.items h).flip

/-! ## Keys -/

/-- A segment denotes related values in related values. -/
theorem lookup (hR : Bisimulation R) (h : R v w) :
    Option.Rel R (lookup keyType v segment) (lookup keyType w segment) := by
  unfold Renderable.lookup
  rw [hR.shape h]
  split
  · exact rel_bind (rel_self (R := Eq) fun _ _ => rfl) fun {i _} hi => hi ▸ hR.getAt? h i
  · exact hR.get? h segment

/-- Segments denote related values in related values, one after another. -/
theorem follow (hR : Bisimulation R) {segments : List Text} (h : R v w) :
    Option.Rel R (follow keyType v segments) (follow keyType w segments) := by
  induction segments generalizing v w with
  | nil => exact .some h
  | cons segment rest ih => exact rel_bind (hR.lookup h) ih

/-- A segment denotes related values in related contexts. -/
theorem find? (hR : Bisimulation R) (h : List.Forall₂ R context context') :
    Option.Rel R (context.find? keyType segment) (context'.find? keyType segment) := by
  induction h with
  | nil => exact .none
  | cons hvw _ ih => exact rel_or (hR.lookup hvw) ih

/-- A key resolves to related values in related contexts. -/
theorem resolve (hR : Bisimulation R) (h : List.Forall₂ R context context') :
    Option.Rel R (context.resolve keyType key) (context'.resolve keyType key) := by
  unfold Context.resolve
  split
  next =>
    cases h with
    | nil => exact .none
    | cons hvw _ => exact .some hvw
  next =>
    split
    · exact .none
    · exact rel_bind (hR.find? h) fun hvw => hR.follow hvw

/-- In related contexts a key has no value, or values that are related. -/
theorem resolve_cases (hR : Bisimulation R) (h : List.Forall₂ R context context')
    (keyType : KeyType) (key : Text) :
    (context.resolve keyType key = none ∧ context'.resolve keyType key = none) ∨
      ∃ v w, context.resolve keyType key = some v ∧ context'.resolve keyType key = some w ∧
        R v w := by
  have hrel : Option.Rel R (context.resolve keyType key) (context'.resolve keyType key) :=
    hR.resolve h
  generalize context.resolve keyType key = x at hrel ⊢
  generalize context'.resolve keyType key = y at hrel ⊢
  cases hrel with
  | none => exact .inl ⟨rfl, rfl⟩
  | some hvw => exact .inr ⟨_, _, rfl, rfl, hvw⟩

end Bisimulation

end Values

/-! ## Renderings -/

/-- Renderings one after another are related to others if each of them is, by any relation that
holds of what is put together. -/
theorem Rendering.each_rel {α β : Type} {f : α → Option Rendering} {g : β → Option Rendering}
    {R : Rendering → Rendering → Prop} {as : List α} {bs : List β} {r : Rendering}
    (hempty : R {} {})
    (happend : ∀ ⦃r s r' s' : Rendering⦄, R r s → R r' s' → R (r ++ r') (s ++ s'))
    (h : List.Forall₂ (fun a b => ∀ r, f a = some r → ∃ s, g b = some s ∧ R r s) as bs)
    (hr : Rendering.each f as = some r) : ∃ s, Rendering.each g bs = some s ∧ R r s := by
  induction h generalizing r with
  | nil =>
    obtain rfl := Option.some.inj hr
    exact ⟨{}, rfl, hempty⟩
  | cons hab _ ih =>
    simp only [Rendering.each] at hr ⊢
    split at hr
    · cases hr
    next ra hra =>
      obtain ⟨rs, hrs, rfl⟩ := Option.map_eq_some_iff.1 hr
      obtain ⟨sa, hsa, hfirst⟩ := hab ra hra
      obtain ⟨ss, hss, hrest⟩ := ih hrs
      exact ⟨sa ++ ss, by simp only [hsa, hss, Option.map_some], happend hfirst hrest⟩

/-- Renderings one after another are found again if each of them is. -/
theorem Rendering.each_of_forall₂ {α β : Type} {f : α → Option Rendering} {g : β → Option Rendering}
    {as : List α} {bs : List β} {r : Rendering}
    (h : List.Forall₂ (fun a b => ∀ r, f a = some r → g b = some r) as bs)
    (hr : Rendering.each f as = some r) : Rendering.each g bs = some r := by
  have hsame : ∀ ⦃r s r' s' : Rendering⦄, r = s → r' = s' → r ++ r' = s ++ s' := by
    rintro r _ r' _ rfl rfl
    rfl
  obtain ⟨_, hs, rfl⟩ := each_rel rfl hsame (h.imp fun _ _ hab r hr => ⟨r, hab r hr, rfl⟩) hr
  exact hs

/-- A reply ends in the same way if its questions have the same answers. -/
theorem Reply.render_of_answer {answer answer' : Text → Option Rendering}
    (h : ∀ text r, answer text = some r → answer' text = some r) (reply : Reply) {r : Rendering}
    (hr : reply.render answer = some r) : reply.render answer' = some r := by
  induction reply generalizing r with
  | done text => exact hr
  | ask text next ih =>
    simp only [Reply.render] at hr ⊢
    split at hr
    · cases hr
    next ra hra =>
      obtain ⟨rs, hrs, rfl⟩ := Option.map_eq_some_iff.1 hr
      rw [h text ra hra]
      simp only [ih _ hrs, Option.map_some]

section Follows

variable {V W : Type}

/-- Whatever `block` renders, `block'` renders to the same in a related context. -/
def BlockRenderer.Follows (R : V → W → Prop) (block : BlockRenderer V) (block' : BlockRenderer W) :
    Prop :=
  ∀ ⦃context : Context V⦄ ⦃context' : Context W⦄ ⦃tags : List Tag⦄ ⦃r : Rendering⦄,
    List.Forall₂ R context context' → block context tags = some r → block' context' tags = some r

namespace BlockRenderer.Follows

variable {R : V → W → Prop} {block : BlockRenderer V} {block' : BlockRenderer W}
  {context : Context V} {context' : Context W} {scope : Scope} {d : Delimiters}
  {key source text : Text} {children : List Tag} {r : Rendering}

/-- A text is rendered to the same. -/
theorem renderText (hb : block.Follows R block') (h : List.Forall₂ R context context')
    (hr : renderText block d context text = some r) :
    Mustache.renderText block' d context' text = some r := by
  unfold Mustache.renderText at hr ⊢
  split at hr
  · exact hb h hr
  · exact hr

/-- A lambda answers the same. -/
theorem lambda (hb : block.Follows R block') (h : List.Forall₂ R context context') {l : Lambda}
    (hr : l.render source (Mustache.renderText block d context) = some r) :
    l.render source (Mustache.renderText block' d context') = some r := by
  obtain ⟨r', hr', rfl⟩ := Option.map_eq_some_iff.1 hr
  have hsame := Reply.render_of_answer (fun _ _ => hb.renderText h) _ hr'
  rw [Lambda.render, hsame]
  rfl

variable [Renderable V] [Renderable W]

/-- A key has the same text. -/
theorem renderKey (hR : Bisimulation R) (hb : block.Follows R block')
    (h : List.Forall₂ R context context')
    (hr : Mustache.renderKey block scope context key = some r) :
    Mustache.renderKey block' scope context' key = some r := by
  unfold Mustache.renderKey at hr ⊢
  obtain ⟨hv, hw⟩ | ⟨v, w, hv, hw, hvw⟩ := hR.resolve_cases h scope.keyType key
  · rw [hv] at hr
    rw [hw]
    exact hr
  · rw [hv] at hr
    rw [hw]
    simp only [← hR.lambda? hvw, ← hR.toText hvw]
    cases hl : lambda? v with
    | none => simpa only [hl] using hr
    | some l =>
      simp only [hl] at hr ⊢
      exact hb.lambda h hr

/-- A section is rendered to the same. -/
theorem renderSection (hR : Bisimulation R) (hb : block.Follows R block')
    (h : List.Forall₂ R context context')
    (hr : Mustache.renderSection block scope context key source d children = some r) :
    Mustache.renderSection block' scope context' key source d children = some r := by
  unfold Mustache.renderSection at hr ⊢
  obtain ⟨hv, hw⟩ | ⟨v, w, hv, hw, hvw⟩ := hR.resolve_cases h scope.keyType key
  · rw [hv] at hr
    rw [hw]
    exact hr
  · rw [hv] at hr
    rw [hw]
    simp only [← hR.shape hvw, ← hR.lambda? hvw, ← hR.truthy hvw]
    cases hshape : shape v with
    | lambda =>
      simp only [hshape] at hr ⊢
      cases hl : lambda? v with
      | none => simpa only [hl] using hr
      | some l =>
        simp only [hl] at hr ⊢
        exact hb.lambda h hr
    | sequence =>
      simp only [hshape] at hr ⊢
      exact Rendering.each_of_forall₂ ((hR.items hvw).imp fun _ _ hab _ => hb (.cons hab h)) hr
    | mapping =>
      simp only [hshape] at hr ⊢
      exact hb (.cons hvw h) hr
    | scalar =>
      simp only [hshape] at hr ⊢
      split at hr
      next htrue => rw [if_pos htrue]; exact hb h hr
      next hfalse => rw [if_neg hfalse]; exact hr
    | null => simpa only [hshape] using hr

/-- An inverted section is rendered to the same. -/
theorem renderInverted (hR : Bisimulation R) (hb : block.Follows R block')
    (h : List.Forall₂ R context context')
    (hr : Mustache.renderInverted block scope context key children = some r) :
    Mustache.renderInverted block' scope context' key children = some r := by
  have hany : (context'.resolve scope.keyType key).any truthy =
      (context.resolve scope.keyType key).any truthy := by
    obtain ⟨hv, hw⟩ | ⟨v, w, hv, hw, hvw⟩ := hR.resolve_cases h scope.keyType key
    · rw [hv, hw, Option.any_none, Option.any_none]
    · rw [hv, hw, Option.any_some, Option.any_some, hR.truthy hvw]
  unfold Mustache.renderInverted at hr ⊢
  rw [hany]
  split at hr
  next htrue => rw [if_pos htrue]; exact hr
  next hfalse => rw [if_neg hfalse]; exact hb h hr

/-- A tag is rendered to the same. -/
theorem renderTag (hR : Bisimulation R) (hb : block.Follows R block')
    (h : List.Forall₂ R context context') (t : Tag)
    (hr : Mustache.renderTag block scope context t = some r) :
    Mustache.renderTag block' scope context' t = some r := by
  cases t with
  | literal => exact hr
  | escaped key =>
    obtain ⟨r', hr', rfl⟩ := Option.map_eq_some_iff.1 hr
    simp only [Mustache.renderTag, hb.renderKey hR h hr', Option.map_some]
  | raw => exact hb.renderKey hR h hr
  | block => exact hb.renderSection hR h hr
  | inverted => exact hb.renderInverted hR h hr
  | inclusion name =>
    simp only [Mustache.renderTag] at hr ⊢
    split at hr
    · exact hb h hr
    · exact hr

end BlockRenderer.Follows

variable [Renderable V] [Renderable W]

/-- **Related contexts are rendered alike,** the second one at any depth that is not smaller. -/
theorem Bisimulation.renderBlock {R : V → W → Prop} (hR : Bisimulation R) (scope : Scope)
    {depth depth' : Nat} (hdepth : depth ≤ depth') :
    (renderBlock scope depth).Follows R (renderBlock scope depth') := by
  induction depth generalizing depth' with
  | zero => intro context context' tags r _ hr; cases hr
  | succ depth ih =>
    obtain ⟨depth', rfl⟩ : ∃ n, depth' = n + 1 := ⟨depth' - 1, by omega⟩
    intro context context' tags r h hr
    refine Rendering.each_of_forall₂ (List.forall₂_same.2 fun t _ r hr => ?_) hr
    exact BlockRenderer.Follows.renderTag hR (ih (Nat.le_of_succ_le_succ hdepth)) h t hr

namespace Template

variable {t : Template} {v : V} {w : W} {r r' : Rendering}

/-- The rendering of a template against a value ends, and it results in `r`. -/
def Renders (t : Template) (v : V) (r : Rendering) : Prop :=
  ∃ depth, t.renderWithin depth v = some r

/-- Values that cannot be told apart are rendered alike, to every depth. -/
theorem renderWithin_eq_of_bisimulation {R : V → W → Prop} (hR : Bisimulation R)
    (h : R v w) (t : Template) (depth : Nat) : t.renderWithin depth v = t.renderWithin depth w := by
  have hvw := hR.renderBlock t.scope (Nat.le_refl depth)
  have hwv := hR.symm.renderBlock t.scope (Nat.le_refl depth)
  refine Option.ext fun r => ⟨fun hr => ?_, fun hr => ?_⟩
  · exact hvw (.cons h .nil) hr
  · exact hwv (.cons h .nil) hr

/-- A template has one rendering against a value at most, whatever depth it takes. -/
theorem Renders.unique (h : t.Renders v r) (h' : t.Renders v r') : r = r' := by
  obtain ⟨depth, hr⟩ := h
  obtain ⟨depth', hr'⟩ := h'
  have hself : List.Forall₂ Eq [v] [v] := .cons rfl .nil
  have hdeep := Bisimulation.of_eq.renderBlock t.scope
    (Nat.le_max_left depth depth') hself hr
  have hdeep' := Bisimulation.of_eq.renderBlock t.scope
    (Nat.le_max_right depth depth') hself hr'
  exact Option.some.inj (hdeep.symm.trans hdeep')

end Template

end Follows

end Mustache
