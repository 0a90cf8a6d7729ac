import Mustache.Proofs.LambdaFree
import Mustache.Proofs.Seam

/-!
# Tags that are rendered to the same

Two lists of tags have the same rendering in a scope if in every lambda-free context one of them is
rendered if the other is, and to the same (`Scope.SameRendering`). How the literals of a list are
divided makes no difference to it (`Scope.sameRendering_joinList`), nor does the source of a
section, and a partial has the rendering of the tags that it stands for
(`Scope.sameRendering_inclusion`). Lists keep the same rendering inside a section and behind any
item of a scan (`Outline.SameRendering.followedBy`).
-/

namespace Mustache

/-! ## Runs to any depth -/

namespace Rendering

theorem empty_append (r : Rendering) : ({} : Rendering) ++ r = r := rfl

theorem append_assoc (a b c : Rendering) : a ++ b ++ c = a ++ (b ++ c) := by
  show append (append a b) c = append a (append b c)
  simp only [append, List.append_assoc]

variable {α : Type} {f : Nat → α → Option Rendering} {a : α} {as : List α} {r : Rendering}

/-- What is rendered at some depth is rendered to the same at every greater one. -/
def Deepens (f : Nat → α → Option Rendering) : Prop :=
  ∀ ⦃n m : Nat⦄, n ≤ m → ∀ ⦃a : α⦄ ⦃r : Rendering⦄, f n a = some r → f m a = some r

/-- A run goes deeper with what it renders. -/
theorem Deepens.each (hf : Deepens f) {n m : Nat} (h : n ≤ m)
    (hr : Rendering.each (f n) as = some r) : Rendering.each (f m) as = some r :=
  each_of_forall₂ (List.forall₂_same.2 fun _ _ _ hr => hf h hr) hr

/-- A run ends at some depth if its first item does and the rest of the run does. -/
theorem Deepens.each_cons_iff (hf : Deepens f) :
    (∃ n, Rendering.each (f n) (a :: as) = some r) ↔
      ∃ x y, (∃ n, f n a = some x) ∧ (∃ n, Rendering.each (f n) as = some y) ∧ r = x ++ y := by
  constructor
  · rintro ⟨n, hr⟩
    simp only [Rendering.each] at hr
    split at hr
    next => cases hr
    next x hx =>
      obtain ⟨y, hy, rfl⟩ := Option.map_eq_some_iff.1 hr
      exact ⟨x, y, ⟨n, hx⟩, ⟨n, hy⟩, rfl⟩
  · rintro ⟨x, y, ⟨n, hx⟩, ⟨m, hy⟩, rfl⟩
    refine ⟨max n m, ?_⟩
    simp only [Rendering.each, hf (Nat.le_max_left n m) hx,
      hf.each (Nat.le_max_right n m) hy, Option.map_some]

end Rendering

namespace Scope

variable {V : Type} [Renderable V] {scope : Scope} {context : Context V} {t u : Tag}
  {ts us vs : List Tag} {r : Rendering} {x : Text}

/-- The rendering of tags in a context ends, and it results in `r`. -/
def Renders (scope : Scope) (context : Context V) (tags : List Tag) (r : Rendering) : Prop :=
  ∃ depth, renderBlock scope depth context tags = some r

/-- The rendering of a tag in a context ends, and it results in `r`. -/
def RendersTag (scope : Scope) (context : Context V) (t : Tag) (r : Rendering) : Prop :=
  ∃ depth, renderTag (renderBlock scope depth) scope context t = some r

/-- A block that is rendered is rendered to the same at every greater depth. -/
theorem deepens_renderBlock :
    Rendering.Deepens fun n (c : Context V) => renderBlock scope n c ts :=
  fun _ _ h _ _ hr =>
    Bisimulation.of_eq.renderBlock scope h (List.forall₂_same.2 fun _ _ => rfl) hr

/-- So is a tag. -/
theorem deepens_renderTag :
    Rendering.Deepens fun n => renderTag (renderBlock scope n) scope context :=
  fun _ _ h t _ hr => BlockRenderer.Follows.renderTag Bisimulation.of_eq
    (Bisimulation.of_eq.renderBlock scope h) (List.forall₂_same.2 fun _ _ => rfl) t hr

/-- Tags are rendered one after another. -/
theorem renders_iff_each : scope.Renders context ts r ↔
    ∃ n, Rendering.each (renderTag (renderBlock scope n) scope context) ts = some r := by
  constructor
  · rintro ⟨depth, hr⟩
    cases depth with
    | zero => cases hr
    | succ n => exact ⟨n, hr⟩
  · rintro ⟨n, hr⟩
    exact ⟨n + 1, hr⟩

theorem renders_nil : scope.Renders context [] r ↔ r = {} := by
  rw [renders_iff_each]
  exact ⟨fun ⟨_, hr⟩ => (Option.some.inj hr).symm, fun hr => ⟨0, hr ▸ rfl⟩⟩

/-- A first tag and the rest are rendered one after the other. -/
theorem renders_cons : scope.Renders context (t :: ts) r ↔
    ∃ x y, scope.RendersTag context t x ∧ scope.Renders context ts y ∧ r = x ++ y := by
  simp only [renders_iff_each]
  exact deepens_renderTag.each_cons_iff

/-- Two lists of tags are rendered one after the other. -/
theorem renders_append : scope.Renders context (ts ++ us) r ↔
    ∃ x y, scope.Renders context ts x ∧ scope.Renders context us y ∧ r = x ++ y := by
  induction ts generalizing r with
  | nil => simp [renders_nil, Rendering.empty_append]
  | cons t ts ih =>
    simp only [List.cons_append, renders_cons, ih]
    constructor
    · rintro ⟨x, _, hx, ⟨y, z, hy, hz, rfl⟩, rfl⟩
      exact ⟨_, z, ⟨x, y, hx, hy, rfl⟩, hz, (Rendering.append_assoc ..).symm⟩
    · rintro ⟨_, z, ⟨x, y, hx, hy, rfl⟩, hz, rfl⟩
      exact ⟨x, _, hx, ⟨y, z, hy, hz, rfl⟩, Rendering.append_assoc ..⟩

/-- Text is rendered to itself. -/
theorem rendersTag_literal : scope.RendersTag context (.literal x) r ↔ r = ⟨x, []⟩ :=
  ⟨fun ⟨_, hr⟩ => (Option.some.inj hr).symm, fun hr => ⟨0, hr ▸ rfl⟩⟩

/-! ## The same rendering -/

/-- In every lambda-free context, of whatever type of values, one list of tags is rendered if the
other is, and to the same. -/
def SameRendering (scope : Scope) (ts us : List Tag) : Prop :=
  ∀ ⦃V : Type⦄ [Renderable V] ⦃context : Context V⦄, context.LambdaFree → ∀ r,
    scope.Renders context ts r ↔ scope.Renders context us r

theorem SameRendering.refl (ts : List Tag) : scope.SameRendering ts ts :=
  fun _ _ _ _ _ => Iff.rfl

theorem SameRendering.symm (h : scope.SameRendering ts us) : scope.SameRendering us ts :=
  fun _ _ _ hc r => (h hc r).symm

theorem SameRendering.trans (h : scope.SameRendering ts us) (h' : scope.SameRendering us vs) :
    scope.SameRendering ts vs :=
  fun _ _ _ hc r => (h hc r).trans (h' hc r)

/-- Lists with tags in front that are rendered to the same have the same rendering if they have it
without these tags. -/
theorem SameRendering.cons (ht : ∀ ⦃V : Type⦄ [Renderable V] ⦃context : Context V⦄,
      context.LambdaFree → ∀ r, scope.RendersTag context t r ↔ scope.RendersTag context u r)
    (h : scope.SameRendering ts us) :
    scope.SameRendering (t :: ts) (u :: us) := by
  intro V _ context hc r
  simp only [renders_cons, ht hc, h hc]

/-- Lists have the same rendering behind the same tags. -/
theorem SameRendering.append (h : scope.SameRendering us vs) (ts : List Tag) :
    scope.SameRendering (ts ++ us) (ts ++ vs) := by
  intro V _ context hc r
  simp only [renders_append, h hc]

/-- Text that has become part of a literal is rendered as a literal of its own. -/
theorem sameRendering_consLiteral :
    scope.SameRendering (Tag.consLiteral x ts) (.literal x :: ts) := by
  intro V _ context _ r
  rcases Tag.literal_or_head ts with ⟨y, us, rfl⟩ | hhead
  · have hfront : Tag.consLiteral x (.literal y :: us) = .literal (x ++ y) :: us := rfl
    simp only [hfront, renders_cons, rendersTag_literal]
    constructor
    · rintro ⟨_, z, rfl, hz, rfl⟩
      exact ⟨_, _, rfl, ⟨_, z, rfl, hz, rfl⟩, (Rendering.append_assoc ⟨x, []⟩ ⟨y, []⟩ z)⟩
    · rintro ⟨_, _, rfl, ⟨_, z, rfl, hz, rfl⟩, rfl⟩
      exact ⟨_, z, rfl, hz, (Rendering.append_assoc ⟨x, []⟩ ⟨y, []⟩ z).symm⟩
  · rw [Tag.consLiteral_of_head hhead]
    split
    next hx =>
      subst hx
      simp only [renders_cons, rendersTag_literal]
      constructor
      · exact fun hr => ⟨{}, r, rfl, hr, (Rendering.empty_append r).symm⟩
      · rintro ⟨_, y, rfl, hy, rfl⟩
        exact hy
    next => exact Iff.rfl

/-- Lists have the same rendering behind the same text. -/
theorem SameRendering.consLiteral (h : scope.SameRendering ts us) :
    scope.SameRendering (Tag.consLiteral x ts) (Tag.consLiteral x us) :=
  sameRendering_consLiteral.trans ((h.append [.literal x]).trans sameRendering_consLiteral.symm)

/-- It makes no difference which literals of a list are joined. -/
theorem sameRendering_joinList : scope.SameRendering (Tag.joinList ts us) (ts ++ us) := by
  induction ts with
  | nil => exact .refl us
  | cons t ts ih =>
    have hrest : scope.SameRendering (t :: Tag.joinList ts us) (t :: (ts ++ us)) := ih.append [t]
    cases t with
    | literal x => exact sameRendering_consLiteral.trans hrest
    | _ => exact hrest

/-- A partial is rendered as the tags that it stands for. -/
theorem sameRendering_inclusion {name : Text} (h : valueAt? scope.partials name = some us) :
    scope.SameRendering (.inclusion name :: ts) (us ++ ts) := by
  intro V _ context _ r
  have htag : ∀ x, scope.RendersTag context (.inclusion name) x ↔ scope.Renders context us x :=
    fun x => by simp only [RendersTag, renderTag, h, Renders]
  simp only [renders_cons, renders_append, htag]

/-- Lists have the same rendering in a run over several contexts. -/
theorem SameRendering.each (h : scope.SameRendering ts us) {contexts : List (Context V)}
    (hc : ∀ c ∈ contexts, c.LambdaFree) :
    (∃ n, Rendering.each (fun c => renderBlock scope n c ts) contexts = some r) ↔
      ∃ n, Rendering.each (fun c => renderBlock scope n c us) contexts = some r := by
  induction contexts generalizing r with
  | nil => exact Iff.rfl
  | cons c contexts ih =>
    have hfirst : ∀ x, (∃ n, renderBlock scope n c ts = some x) ↔
        ∃ n, renderBlock scope n c us = some x := h (hc c (.head _))
    have hrest : ∀ y, (∃ n, Rendering.each (fun c => renderBlock scope n c ts) contexts = some y) ↔
        ∃ n, Rendering.each (fun c => renderBlock scope n c us) contexts = some y :=
      fun y => ih fun d hd => hc d (.tail _ hd)
    have hdeepens : ∀ tags, Rendering.Deepens fun n (c : Context V) => renderBlock scope n c tags :=
      fun tags => deepens_renderBlock
    rw [(hdeepens ts).each_cons_iff, (hdeepens us).each_cons_iff]
    simp only [hfirst, hrest]

/-- Sections of either sort are rendered to the same if their children are, whatever source they
keep. -/
theorem SameRendering.sectionTag {i : Item} {source source' : Text} (h : scope.SameRendering ts us)
    (hc : context.LambdaFree) :
    scope.RendersTag context (Outline.sectionTag i source ts) r ↔
      scope.RendersTag context (Outline.sectionTag i source' us) r := by
  unfold Outline.sectionTag
  split
  · simp only [RendersTag, renderTag, renderInverted_eq]
    exact h.each fun c hin => Context.eq_of_mem_enteredInverted hin ▸ hc
  · simp only [RendersTag, renderTag, renderSection_eq hc]
    exact h.each hc.entered

end Scope

namespace Outline

/-- Outlines have parts with the same rendering, and close tags of the same keys between them. -/
inductive SameRendering (scope : Scope) : Outline → Outline → Prop
  | ended {tags tags' : List Tag} {source source' : Text} : scope.SameRendering tags tags' →
      SameRendering scope (.ended tags source) (.ended tags' source')
  | closed {tags tags' : List Tag} {source source' : Text} {close close' : Item}
      {next next' : Outline} : scope.SameRendering tags tags' → close.content = close'.content →
      SameRendering scope next next' →
      SameRendering scope (.closed tags source close next) (.closed tags' source' close' next')
  | faulty {fault fault' : Fault} : SameRendering scope (.faulty fault) (.faulty fault')

variable {scope : Scope} {o o' o'' : Outline} {r r' x : Text} {add add' : List Tag → List Tag}
  {i : Item} {s : Scan} {tags : List Tag} {source : Text}

theorem SameRendering.symm (h : SameRendering scope o o') : SameRendering scope o' o := by
  induction h with
  | ended htags => exact .ended htags.symm
  | closed htags hkey _ ih => exact .closed htags.symm hkey.symm ih
  | faulty => exact .faulty

theorem SameRendering.trans (h : SameRendering scope o o') (h' : SameRendering scope o' o'') :
    SameRendering scope o o'' := by
  induction h generalizing o'' with
  | ended htags =>
    cases h' with
    | ended htags' => exact .ended (htags.trans htags')
  | closed htags hkey _ ih =>
    cases h' with
    | closed htags' hkey' hnext' =>
      exact .closed (htags.trans htags') (hkey.trans hkey') (ih hnext')
  | faulty => cases h'; exact .faulty

/-- Outlines that are the same up to close tags have the same rendering. -/
theorem EqUpToCloses.sameRendering (h : EqUpToCloses o o') : SameRendering scope o o' := by
  induction h with
  | ended => exact .ended (.refl _)
  | faulty => exact .faulty
  | closed hkey _ _ _ ih => exact .closed (.refl _) hkey ih

/-- Outlines keep the same rendering behind tags that have it in front of lists that have it. -/
theorem SameRendering.push (h : SameRendering scope o o')
    (hadd : ∀ ts us, scope.SameRendering ts us → scope.SameRendering (add ts) (add' us)) :
    SameRendering scope (o.push r add) (o'.push r' add') := by
  cases h with
  | ended htags => exact .ended (hadd _ _ htags)
  | closed htags hkey hnext => exact .closed (hadd _ _ htags) hkey hnext
  | faulty => exact .faulty

/-- Outlines keep the same rendering behind an open tag. -/
theorem SameRendering.consSection (h : SameRendering scope o o') :
    SameRendering scope (o.consSection i) (o'.consSection i) := by
  cases h with
  | ended => exact .faulty
  | faulty => exact .faulty
  | closed htags hkey hnext =>
    rw [Outline.consSection, Outline.consSection, hkey]
    split
    · exact hnext.push fun ts us hrest =>
        (hrest.cons fun _ _ _ hc _ => htags.sectionTag hc).consLiteral
    · exact .faulty

/-- Outlines keep the same rendering behind an item. -/
theorem SameRendering.cons (h : SameRendering scope o o') :
    SameRendering scope (cons i o) (cons i o') := by
  have hvalue : ∀ t : Tag, SameRendering scope
      (o.push i.text fun tags => Tag.consLiteral i.literal (t :: tags))
      (o'.push i.text fun tags => Tag.consLiteral i.literal (t :: tags)) := fun t =>
    h.push fun ts us hrest => (hrest.append [t]).consLiteral
  have hnothing : SameRendering scope (o.push i.text (Tag.consLiteral i.literal))
      (o'.push i.text (Tag.consLiteral i.literal)) := h.push fun ts us hrest => hrest.consLiteral
  unfold Outline.cons
  cases i.kind with
  | escaped | raw | inclusion => exact hvalue _
  | comment | change => exact hnothing
  | closing => exact .closed (.refl _) rfl h
  | opening | inverted => exact h.consSection

/-- Outlines of scans keep the same rendering behind a text. -/
theorem SameRendering.behind {s s' : Scan} (h : SameRendering scope (ofScan s) (ofScan s')) :
    SameRendering scope (ofScan (s.behind x)) (ofScan (s'.behind x)) := by
  have hfront : ∀ s : Scan,
      SameRendering scope (ofScan (s.behind x)) ((ofScan s).push x (Tag.consLiteral x)) :=
    fun s => (EqUpToCloses.refl (ofScan s)).behind.sameRendering
  exact (hfront s).trans ((h.push fun ts us hrest => hrest.consLiteral).trans (hfront s').symm)

/-- **Scans keep the same rendering behind a scan,** also where sections of it are still open. -/
theorem SameRendering.followedBy {next next' : Scan}
    (h : SameRendering scope (ofScan next) (ofScan next')) (s : Scan) :
    SameRendering scope (ofScan (s.followedBy next)) (ofScan (s.followedBy next')) := by
  induction s with
  | tag i rest ih => exact ih.cons
  | done t => exact h.behind
  | faulty => exact .faulty

/-- An outline with the rendering of one part is one part. -/
theorem SameRendering.eq_ended (h : SameRendering scope (.ended tags source) o) :
    ∃ tags' source', o = .ended tags' source' ∧ scope.SameRendering tags tags' := by
  cases h with
  | ended htags => exact ⟨_, _, rfl, htags⟩

end Outline

end Mustache
