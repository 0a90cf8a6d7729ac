import Mustache.Proofs.Interchange

/-!
# Tags and the sources of their sections

A section keeps its source beside its children. `Tag.sourcesList` are the sources among tags, and
`Tag.withoutSourcesList` is everything else: both together are the tags (`Tag.eq_of_sourcesList`).
What is rendered without lambdas is told by everything else alone
(`Scope.sameRendering_of_withoutSources`). Outlines that are the same up to sources
(`Outline.EqUpToSources`) are so whatever stands in front of them
(`Outline.EqUpToSources.followedBy`).
-/

namespace Mustache

namespace Tag

mutual

/-- The sources of the sections in a tag, in the order of their open tags. -/
def sources : Tag → List Text
  | .literal _ | .escaped _ | .raw _ | .inclusion _ => []
  | .block _ source _ children => source :: sourcesList children
  | .inverted _ children => sourcesList children

/-- The sources of the sections in a list of tags, in the order of their open tags. -/
def sourcesList : List Tag → List Text
  | [] => []
  | t :: ts => sources t ++ sourcesList ts

end

mutual

/-- A tag with nothing for the source of a section. -/
def withoutSources : Tag → Tag
  | .literal x => .literal x
  | .escaped key => .escaped key
  | .raw key => .raw key
  | .block key _ d children => .block key [] d (withoutSourcesList children)
  | .inverted key children => .inverted key (withoutSourcesList children)
  | .inclusion name => .inclusion name

/-- A list of tags with nothing for the sources of sections. -/
def withoutSourcesList : List Tag → List Tag
  | [] => []
  | t :: ts => withoutSources t :: withoutSourcesList ts

end

variable {t u : Tag} {ts us children children' : List Tag} {x source source' : Text} {i : Item}

/-- Text has no source. -/
theorem sourcesList_consLiteral : sourcesList (consLiteral x ts) = sourcesList ts := by
  rcases literal_or_head ts with ⟨t, us, rfl⟩ | hhead
  · rfl
  · rw [consLiteral_of_head hhead]
    split <;> rfl

/-- An inverted section keeps no source of its own. -/
theorem sources_sectionTag : sources (Outline.sectionTag i source children) =
    (if i.kind = .inverted then [] else [source]) ++ sourcesList children := by
  unfold Outline.sectionTag
  split <;> rfl

/-- Text in front of tags does not depend on sources. -/
theorem withoutSourcesList_consLiteral :
    withoutSourcesList (consLiteral x ts) = consLiteral x (withoutSourcesList ts) := by
  rcases literal_or_head ts with ⟨t, us, rfl⟩ | hhead
  · rfl
  · have hhead' : ∀ u ∈ (withoutSourcesList ts).head?, u.isLiteral = false := by
      cases ts with
      | nil => exact fun u hu => nomatch hu
      | cons t ts =>
        have ht : t.isLiteral = false := hhead t rfl
        rintro _ ⟨⟩
        cases t <;> exact ht
    rw [consLiteral_of_head hhead, consLiteral_of_head hhead']
    split <;> rfl

/-- A section without sources is told by its children without sources. -/
theorem withoutSources_sectionTag
    (h : withoutSourcesList children = withoutSourcesList children') :
    withoutSources (Outline.sectionTag i source children) =
      withoutSources (Outline.sectionTag i source' children') := by
  unfold Outline.sectionTag
  split <;> simp only [withoutSources, h]

mutual

/-- The places of partials in a tag do not depend on sources. -/
theorem inclusions_withoutSources : ∀ t : Tag, inclusions (withoutSources t) = inclusions t
  | .literal _ | .escaped _ | .raw _ | .inclusion _ => rfl
  | .block _ _ _ children | .inverted _ children => inclusionsList_withoutSources children

/-- The places of partials in a list of tags do not depend on sources. -/
theorem inclusionsList_withoutSources :
    ∀ ts : List Tag, inclusionsList (withoutSourcesList ts) = inclusionsList ts
  | [] => rfl
  | t :: ts => by
    rw [withoutSourcesList, inclusionsList, inclusionsList, inclusions_withoutSources t,
      inclusionsList_withoutSources ts]

end

mutual

/-- Of two tags that differ in sources only, one has as many sources as the other. If the sources
are the same, with others behind them, then so are the tags and these others. -/
theorem eq_of_sources : ∀ {t u : Tag} {r r' : List Text}, withoutSources t = withoutSources u →
    sources t ++ r = sources u ++ r' → t = u ∧ r = r'
  | t, u, r, r', h, hsources => by
    cases t with
    | block key source d children =>
      cases u with
      | block key' source' d' children' =>
        obtain ⟨rfl, -, rfl, hchildren⟩ := Tag.block.inj h
        obtain ⟨rfl, hrest⟩ := List.cons.inj hsources
        obtain ⟨rfl, rfl⟩ := eq_of_sourcesList_append hchildren hrest
        exact ⟨rfl, rfl⟩
      | _ => cases h
    | inverted key children =>
      cases u with
      | inverted key' children' =>
        obtain ⟨rfl, hchildren⟩ := Tag.inverted.inj h
        obtain ⟨rfl, rfl⟩ := eq_of_sourcesList_append hchildren hsources
        exact ⟨rfl, rfl⟩
      | _ => cases h
    | _ =>
      cases u
      all_goals cases h
      exact ⟨rfl, hsources⟩

/-- `Tag.eq_of_sources` over the tags of lists. -/
theorem eq_of_sourcesList_append : ∀ {ts us : List Tag} {r r' : List Text},
    withoutSourcesList ts = withoutSourcesList us →
    sourcesList ts ++ r = sourcesList us ++ r' → ts = us ∧ r = r'
  | [], [], _, _, _, hsources => ⟨rfl, hsources⟩
  | [], _ :: _, _, _, h, _ => nomatch h
  | _ :: _, [], _, _, h, _ => nomatch h
  | t :: ts, u :: us, r, r', h, hsources => by
    obtain ⟨htag, hrest⟩ := List.cons.inj h
    rw [sourcesList, sourcesList, List.append_assoc, List.append_assoc] at hsources
    obtain ⟨rfl, hbehind⟩ := eq_of_sources htag hsources
    obtain ⟨rfl, rfl⟩ := eq_of_sourcesList_append hrest hbehind
    exact ⟨rfl, rfl⟩

end

/-- **Tags and sources.** Tags are the same if they are without their sources, and if these are. -/
theorem eq_of_sourcesList (h : withoutSourcesList ts = withoutSourcesList us)
    (hsources : sourcesList ts = sourcesList us) : ts = us :=
  (eq_of_sourcesList_append h (congrArg (· ++ []) hsources)).1

end Tag

/-! ## Rendering -/

namespace Scope

variable {scope : Scope}

mutual

/-- Tags that differ in sources only are rendered to the same. -/
theorem rendersTag_iff_of_withoutSources : ∀ {t u : Tag},
    Tag.withoutSources t = Tag.withoutSources u →
    ∀ ⦃V : Type⦄ [Renderable V] ⦃context : Context V⦄, context.LambdaFree → ∀ r,
      scope.RendersTag context t r ↔ scope.RendersTag context u r
  | t, u, h, V, _, context, hc, r => by
    cases t with
    | block key source d children =>
      cases u with
      | block key' source' d' children' =>
        obtain ⟨rfl, -, rfl, hchildren⟩ := Tag.block.inj h
        let i : Item := ⟨[], [], [], [], .opening, key, d⟩
        have hsection : scope.RendersTag context (Outline.sectionTag i source children) r ↔
            scope.RendersTag context (Outline.sectionTag i source' children') r :=
          (sameRendering_of_withoutSources hchildren).sectionTag hc
        exact hsection
      | _ => cases h
    | inverted key children =>
      cases u with
      | inverted key' children' =>
        obtain ⟨rfl, hchildren⟩ := Tag.inverted.inj h
        let i : Item := ⟨[], [], [], [], .inverted, key, {}⟩
        have hsection : scope.RendersTag context (Outline.sectionTag i [] children) r ↔
            scope.RendersTag context (Outline.sectionTag i [] children') r :=
          (sameRendering_of_withoutSources hchildren).sectionTag hc
        exact hsection
      | _ => cases h
    | _ =>
      cases u
      all_goals cases h
      exact Iff.rfl

/-- **Sources are for lambdas.** Lists of tags that differ in sources only are rendered to the
same. -/
theorem sameRendering_of_withoutSources : ∀ {ts us : List Tag},
    Tag.withoutSourcesList ts = Tag.withoutSourcesList us → scope.SameRendering ts us
  | [], [], _ => .refl []
  | [], _ :: _, h => nomatch h
  | _ :: _, [], h => nomatch h
  | _ :: _, _ :: _, h =>
    .cons (rendersTag_iff_of_withoutSources (List.cons.inj h).1)
      (sameRendering_of_withoutSources (List.cons.inj h).2)

end

end Scope

/-! ## Outlines -/

namespace Outline

/-- Outlines have parts with the same tags up to sources, and close tags of the same keys between
them. -/
inductive EqUpToSources : Outline → Outline → Prop
  | ended {tags tags' : List Tag} {source source' : Text} :
      Tag.withoutSourcesList tags = Tag.withoutSourcesList tags' →
      EqUpToSources (.ended tags source) (.ended tags' source')
  | closed {tags tags' : List Tag} {source source' : Text} {close close' : Item}
      {next next' : Outline} : Tag.withoutSourcesList tags = Tag.withoutSourcesList tags' →
      close.content = close'.content → EqUpToSources next next' →
      EqUpToSources (.closed tags source close next) (.closed tags' source' close' next')
  | faulty {fault fault' : Fault} : EqUpToSources (.faulty fault) (.faulty fault')

variable {o o' p p' : Outline} {r r' x : Text} {add add' : List Tag → List Tag} {i : Item}
  {s s' : Scan} {tags : List Tag} {source : Text}

theorem EqUpToSources.refl (o : Outline) : EqUpToSources o o := by
  induction o with
  | ended => exact .ended rfl
  | closed _ _ _ _ ih => exact .closed rfl rfl ih
  | faulty => exact .faulty

/-- The texts in front of close tags do not count. -/
theorem EqUpToSources.of_eqUpToCloses (h : EqUpToSources o o') (ho : EqUpToCloses p o)
    (ho' : EqUpToCloses p' o') : EqUpToSources p p' := by
  induction h generalizing p p' with
  | ended htags =>
    cases ho
    cases ho'
    exact .ended htags
  | closed htags hkey _ ih =>
    cases ho with
    | closed hclose _ _ hnext =>
      cases ho' with
      | closed hclose' _ _ hnext' =>
        exact .closed htags ((hclose.trans hkey).trans hclose'.symm) (ih hnext hnext')
  | faulty =>
    cases ho
    cases ho'
    exact .faulty

/-- Text that is read and says nothing does not count. -/
theorem EqUpToSources.behind_text (o : Outline) (r : Text) :
    EqUpToSources o (o.push r (Tag.consLiteral [])) := by
  rw [show Tag.consLiteral [] = id from funext Tag.consLiteral_nil]
  cases o with
  | ended => exact .ended rfl
  | closed => exact .closed rfl rfl (.refl _)
  | faulty => exact .faulty

/-- Outlines stay the same up to sources behind tags that are. -/
theorem EqUpToSources.push (h : EqUpToSources o o') (hadd : ∀ ts us,
      Tag.withoutSourcesList ts = Tag.withoutSourcesList us →
      Tag.withoutSourcesList (add ts) = Tag.withoutSourcesList (add' us)) :
    EqUpToSources (o.push r add) (o'.push r' add') := by
  cases h with
  | ended htags => exact .ended (hadd _ _ htags)
  | closed htags hkey hnext => exact .closed (hadd _ _ htags) hkey hnext
  | faulty => exact .faulty

/-- Outlines stay the same up to sources behind an open tag, whose section gets its source from each
of them. -/
theorem EqUpToSources.consSection (h : EqUpToSources o o') :
    EqUpToSources (o.consSection i) (o'.consSection i) := by
  cases h with
  | ended => exact .faulty
  | faulty => exact .faulty
  | @closed tags tags' source source' _ _ _ _ htags hkey hnext =>
    have hsection : Tag.withoutSources (sectionTag i (i.tail ++ source) tags) =
        Tag.withoutSources (sectionTag i (i.tail ++ source') tags') :=
      Tag.withoutSources_sectionTag htags
    rw [Outline.consSection, Outline.consSection, hkey]
    split
    · refine hnext.push fun ts us hrest => ?_
      simp only [Tag.withoutSourcesList_consLiteral, Tag.withoutSourcesList, hrest, hsection]
    · exact .faulty

/-- Outlines stay the same up to sources behind an item. -/
theorem EqUpToSources.cons (h : EqUpToSources o o') : EqUpToSources (cons i o) (cons i o') := by
  have hvalue : ∀ t : Tag, EqUpToSources
      (o.push i.text fun tags => Tag.consLiteral i.literal (t :: tags))
      (o'.push i.text fun tags => Tag.consLiteral i.literal (t :: tags)) := fun t =>
    h.push fun ts us hrest => by
      simp only [Tag.withoutSourcesList_consLiteral, Tag.withoutSourcesList, hrest]
  have hnothing : EqUpToSources (o.push i.text (Tag.consLiteral i.literal))
      (o'.push i.text (Tag.consLiteral i.literal)) := h.push fun ts us hrest => by
    simp only [Tag.withoutSourcesList_consLiteral, hrest]
  unfold Outline.cons
  cases i.kind with
  | escaped | raw | inclusion => exact hvalue _
  | comment | change => exact hnothing
  | closing => exact .closed rfl rfl h
  | opening | inverted => exact h.consSection

/-- Outlines of scans stay the same up to sources behind a text. -/
theorem EqUpToSources.behind (h : EqUpToSources (ofScan s) (ofScan s')) :
    EqUpToSources (ofScan (s.behind x)) (ofScan (s'.behind x)) := by
  have hpush : EqUpToSources ((ofScan s).push x (Tag.consLiteral x))
      ((ofScan s').push x (Tag.consLiteral x)) := h.push fun ts us hrest => by
    simp only [Tag.withoutSourcesList_consLiteral, hrest]
  exact hpush.of_eqUpToCloses (EqUpToCloses.refl _).behind (EqUpToCloses.refl _).behind

/-- **Scans stay the same up to sources behind a scan,** also where sections of it are still
open. -/
theorem EqUpToSources.followedBy {next next' : Scan}
    (h : EqUpToSources (ofScan next) (ofScan next')) (s : Scan) :
    EqUpToSources (ofScan (s.followedBy next)) (ofScan (s.followedBy next')) := by
  induction s with
  | tag i rest ih => exact ih.cons
  | done t => exact h.behind
  | faulty => exact .faulty

/-- An outline that is one part up to sources is one part. -/
theorem EqUpToSources.eq_ended (h : EqUpToSources (.ended tags source) o) : ∃ tags' source',
    o = .ended tags' source' ∧
      Tag.withoutSourcesList tags = Tag.withoutSourcesList tags' := by
  cases h with
  | ended htags => exact ⟨_, _, rfl, htags⟩

end Outline

end Mustache
