import Mustache.Proofs.Acyclic

/-!
# Scopes that agree

Rendering asks its scope for two things: the values of keys, and the tags of partials. Two scopes
agree on some keys and some names of partials (`Scope.AgreeOn`) if they answer alike for these, and
if the partials of these names hold no other keys and no places for other partials. Tags that keep
to these keys and names (`Tag.Within`) are then rendered to the same text under both scopes
(`Template.outputs_iff`).

A partial that is not there counts as one without tags. It takes one level of nesting less than
that, so that the one rendering may have to go deeper than the other.
-/

namespace Mustache

open Renderable (LambdaFree)

/-! ## What tags ask for -/

namespace Tag

mutual

/-- The keys that a tag has to be given values for: its own, and those of the tags inside it. -/
def dataKeys : Tag → List Text
  | .literal _ | .inclusion _ => []
  | .escaped key | .raw key => [key]
  | .block key _ _ children | .inverted key children => key :: dataKeysList children

/-- The keys that a list of tags has to be given values for. -/
def dataKeysList : List Tag → List Text
  | [] => []
  | t :: ts => dataKeys t ++ dataKeysList ts

end

/-- Tags that ask for values of the keys `K` and for partials of the names `N` only. -/
structure Within (K N : Text → Prop) (tags : List Tag) : Prop where
  keys : ∀ key ∈ dataKeysList tags, K key
  names : ∀ name ∈ inclusionsList tags, N name

variable {K N : Text → Prop} {t : Tag} {tags children : List Tag} {key source : Text}
  {d : Delimiters}

/-- A key in a tag is one in a list that the tag stands in. -/
theorem mem_dataKeysList (h : t ∈ tags) (hkey : key ∈ t.dataKeys) : key ∈ dataKeysList tags := by
  induction tags with
  | nil => cases h
  | cons u tags ih =>
    rw [dataKeysList, List.mem_append]
    rcases List.mem_cons.1 h with rfl | h
    · exact .inl hkey
    · exact .inr (ih h)

/-- No tags ask for nothing. -/
theorem within_nil : Within K N [] := ⟨nofun, nofun⟩

/-- What is said of tags is said of each of them. -/
theorem Within.mem (h : Within K N tags) (ht : t ∈ tags) :
    (∀ key ∈ t.dataKeys, K key) ∧ ∀ name ∈ t.inclusions, N name :=
  ⟨fun key hkey => h.keys key (mem_dataKeysList ht hkey),
    fun name hname => h.names name (mem_inclusionsList ht hname)⟩

end Tag

namespace Rendering

/-- A run comes to the same text if each item of it does. -/
theorem each_text {α : Type} {f g : α → Option Rendering} {as : List α} {r : Rendering}
    (h : ∀ a ∈ as, ∀ r, f a = some r → ∃ s, g a = some s ∧ s.text = r.text)
    (hr : each f as = some r) : ∃ s, each g as = some s ∧ s.text = r.text := by
  have happend : ∀ ⦃r s r' s' : Rendering⦄, s.text = r.text → s'.text = r'.text →
      (s ++ s').text = (r ++ r').text := fun _ _ _ _ h h' => congrArg₂ (· ++ ·) h h'
  exact each_rel (R := fun r s => s.text = r.text) rfl happend (List.forall₂_same.2 h) hr

end Rendering

/-! ## Agreement -/

/-- The tags that are rendered for a partial: none if it is not there. -/
def Partials.tagsAt (partials : Partials) (name : Text) : List Tag :=
  (valueAt? partials name).getD []

/-- In the values of a type, two scopes find the same for the keys `K`, and they have the same
partials under the names `N`, which ask for nothing else. -/
structure Scope.AgreeOn (V : Type) [Renderable V] (K N : Text → Prop) (scope scope' : Scope) :
    Prop where
  resolve : ∀ key, K key → ∀ context : Context V,
    context.resolve scope.keyType key = context.resolve scope'.keyType key
  partials : ∀ name, N name → scope.partials.tagsAt name = scope'.partials.tagsAt name
  within : ∀ name, N name → Tag.Within K N (scope.partials.tagsAt name)

/-- Whatever `block` renders of tags within `K` and `N`, `block'` renders to the same text. -/
def BlockRenderer.Agrees {V : Type} [Renderable V] (K N : Text → Prop)
    (block block' : BlockRenderer V) : Prop :=
  ∀ ⦃context : Context V⦄ ⦃tags : List Tag⦄ ⦃r : Rendering⦄, context.LambdaFree →
    Tag.Within K N tags → block context tags = some r →
    ∃ s, block' context tags = some s ∧ s.text = r.text

section Render

variable {V : Type} [Renderable V] {K N : Text → Prop} {scope scope' : Scope}
  {block block' : BlockRenderer V} {context : Context V} {key name : Text} {t : Tag}
  {r : Rendering}

theorem Scope.AgreeOn.symm (h : scope.AgreeOn V K N scope') : scope'.AgreeOn V K N scope where
  resolve key hkey context := (h.resolve key hkey context).symm
  partials name hname := (h.partials name hname).symm
  within name hname := h.partials name hname ▸ h.within name hname

namespace BlockRenderer.Agrees

/-- Children come to the same text in several contexts. -/
theorem each (hb : block.Agrees K N block') {contexts : List (Context V)} {children : List Tag}
    (hcontexts : ∀ c ∈ contexts, c.LambdaFree) (ht : Tag.Within K N children)
    (hr : Rendering.each (fun c => block c children) contexts = some r) :
    ∃ s, Rendering.each (fun c => block' c children) contexts = some s ∧ s.text = r.text :=
  Rendering.each_text (fun c hc _ hr => hb (hcontexts c hc) ht hr) hr

/-- A partial comes to the same text, also if it is empty under one scope and not there under the
other. -/
theorem inclusion (hb : block.Agrees K N block') (h : scope.AgreeOn V K N scope')
    (hempty : block' context [] = some {}) (hc : context.LambdaFree) (hname : N name)
    (hr : renderTag block scope context (.inclusion name) = some r) :
    ∃ s, renderTag block' scope' context (.inclusion name) = some s ∧ s.text = r.text := by
  have htags := h.partials name hname
  have hwithin := h.within name hname
  unfold Partials.tagsAt at htags hwithin
  simp only [renderTag] at hr ⊢
  cases hp : valueAt? scope.partials name with
  | none =>
    rw [hp] at hr htags
    obtain rfl := Option.some.inj hr
    cases hq : valueAt? scope'.partials name with
    | none => exact ⟨_, rfl, rfl⟩
    | some us =>
      rw [hq] at htags
      obtain rfl : [] = us := htags
      exact ⟨_, hempty, rfl⟩
  | some ts =>
    rw [hp] at hr htags hwithin
    obtain ⟨s, hs, htext⟩ := hb hc hwithin hr
    cases hq : valueAt? scope'.partials name with
    | none =>
      rw [hq] at htags
      obtain rfl : ts = [] := htags
      obtain rfl := Option.some.inj (hempty.symm.trans hs)
      exact ⟨_, rfl, htext⟩
    | some us =>
      rw [hq] at htags
      obtain rfl : ts = us := htags
      exact ⟨s, hs, htext⟩

/-- A tag comes to the same text. -/
theorem renderTag (hb : block.Agrees K N block') (h : scope.AgreeOn V K N scope')
    (hempty : block' context [] = some {}) (hc : context.LambdaFree)
    (hkeys : ∀ key ∈ t.dataKeys, K key) (hnames : ∀ name ∈ t.inclusions, N name)
    (hr : renderTag block scope context t = some r) :
    ∃ s, Mustache.renderTag block' scope' context t = some s ∧ s.text = r.text := by
  -- Keys have the same values, so that a value has the same text and a section enters the same
  -- contexts. Only partials are looked up in different tables.
  cases t with
  | literal => exact ⟨r, hr, rfl⟩
  | escaped key =>
    have hvalue := h.resolve key (hkeys key (.head _)) context
    simp only [Mustache.renderTag, renderKey_eq hc, Context.textOf, hvalue] at hr ⊢
    exact ⟨r, hr, rfl⟩
  | raw key =>
    have hvalue := h.resolve key (hkeys key (.head _)) context
    simp only [Mustache.renderTag, renderKey_eq hc, Context.textOf, hvalue] at hr ⊢
    exact ⟨r, hr, rfl⟩
  | block key source d children =>
    have hentered : context.entered scope.keyType key = context.entered scope'.keyType key := by
      rw [Context.entered, h.resolve key (hkeys key (.head _)), Context.entered]
    simp only [Mustache.renderTag, renderSection_eq hc] at hr ⊢
    rw [← hentered]
    exact hb.each hc.entered ⟨fun k hk => hkeys k (.tail _ hk), hnames⟩ hr
  | inverted key children =>
    have hentered : context.enteredInverted scope.keyType key =
        context.enteredInverted scope'.keyType key := by
      rw [Context.enteredInverted, h.resolve key (hkeys key (.head _)), Context.enteredInverted]
    simp only [Mustache.renderTag, renderInverted_eq] at hr ⊢
    rw [← hentered]
    exact hb.each (fun c hin => Context.eq_of_mem_enteredInverted hin ▸ hc)
      ⟨fun k hk => hkeys k (.tail _ hk), hnames⟩ hr
  | inclusion name => exact hb.inclusion h hempty hc (hnames name (.head _)) hr

end BlockRenderer.Agrees

/-- **Scopes that agree render alike,** the second one a level of nesting deeper than the first. -/
theorem Scope.AgreeOn.renderBlock (h : scope.AgreeOn V K N scope') (depth : Nat) :
    (renderBlock (V := V) scope depth).Agrees K N (renderBlock scope' (depth + 1)) := by
  induction depth with
  | zero => intro context tags r _ _ hr; cases hr
  | succ depth ih =>
    intro context tags r hc ht hr
    refine Rendering.each_text (fun t hmem r hr => ?_) hr
    exact ih.renderTag h rfl hc (ht.mem hmem).1 (ht.mem hmem).2 hr

end Render

namespace Template

variable {V : Type} [Renderable V] {K N : Text → Prop} {t u : Template} {v : V} {text : Text}

/-- The rendering of a template against a value ends, and `text` is what comes of it. -/
def Outputs (t : Template) (v : V) (text : Text) : Prop :=
  ∃ events, t.Renders v ⟨text, events⟩

/-- A template outputs what another one with the same tags outputs, if the scopes agree. -/
theorem Outputs.of_agreeOn (h : t.scope.AgreeOn V K N u.scope) (htags : u.tags = t.tags)
    (ht : Tag.Within K N t.tags) (hv : LambdaFree v) (hout : t.Outputs v text) :
    u.Outputs v text := by
  obtain ⟨events, depth, hr⟩ := hout
  have hc : Context.LambdaFree [v] := List.forall_mem_singleton.2 hv
  obtain ⟨⟨_, events'⟩, hs, rfl⟩ := h.renderBlock depth hc ht hr
  exact ⟨events', depth + 1, by rw [renderWithin, htags, hs]⟩

/-- Templates with the same tags output the same if their scopes agree. -/
theorem outputs_iff (h : t.scope.AgreeOn V K N u.scope) (htags : u.tags = t.tags)
    (ht : Tag.Within K N t.tags) (hv : LambdaFree v) : t.Outputs v text ↔ u.Outputs v text :=
  ⟨.of_agreeOn h htags ht hv, .of_agreeOn h.symm htags.symm (htags ▸ ht) hv⟩

end Template

end Mustache
