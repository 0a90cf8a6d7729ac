import Mustache.Render
import Mustache.Proofs.Agree

/-!
# The source of a section is a template

A section keeps the text between its tags. That text was scanned in the middle of a larger one;
here it is parsed by itself. In flat scans nothing depends on what follows: cut in front of a close
tag that nothing in front of it opens, a text has the outline that its part had
(`Outline.ofScan_flat_of_initial`). So the flat scan of a source gives back the very children of its
section, for every section of a tree (`reparses_of_parseFlat`), and with lines trimmed the children
come back up to spaces, tabs and line ends (`parse_section_source`).
-/

namespace Mustache

namespace Tag

mutual

/-- The sections in a tag, inside any number of sections of either sort. -/
def sections : Tag → List Tag
  | .literal _ | .escaped _ | .raw _ | .inclusion _ => []
  | .block key source d children => .block key source d children :: sectionsList children
  | .inverted _ children => sectionsList children

/-- The sections in a list of tags, inside any number of sections of either sort. -/
def sectionsList : List Tag → List Tag
  | [] => []
  | t :: ts => sections t ++ sectionsList ts

end

variable {f : Text → Text} {key source x : Text} {d : Delimiters} {children : List Tag}
  {t : Tag} {ts us : List Tag}

@[simp] theorem sectionsList_append :
    sectionsList (ts ++ us) = sectionsList ts ++ sectionsList us := by
  induction ts with
  | nil => rfl
  | cons t ts ih => simp only [List.cons_append, sectionsList, ih, List.append_assoc]

@[simp] theorem mapLiteralsList_append :
    mapLiteralsList f (ts ++ us) = mapLiteralsList f ts ++ mapLiteralsList f us := by
  induction ts with
  | nil => rfl
  | cons t ts ih => simp only [List.cons_append, mapLiteralsList, ih, List.append_assoc]

/-- Text is no section. -/
theorem sectionsList_consLiteral : sectionsList (consLiteral x ts) = sectionsList ts := by
  rcases literal_or_head ts with ⟨t, us, rfl⟩ | hhead
  · rfl
  · rw [consLiteral_of_head hhead]
    split <;> rfl

mutual

/-- The sections in a rewritten tag are the sections in the tag, rewritten. -/
theorem sections_mapLiterals : ∀ t : Tag,
    sectionsList (mapLiterals f t) = mapLiteralsList f (sections t)
  | .literal t => by
    rw [mapLiterals]
    split <;> rfl
  | .escaped _ | .raw _ | .inclusion _ => rfl
  | .block key source d children => by
    simp only [mapLiterals, sections, sectionsList, mapLiteralsList, List.append_nil,
      sectionsList_mapLiterals children, List.singleton_append]
  | .inverted key children => by
    simp only [mapLiterals, sections, sectionsList, List.append_nil,
      sectionsList_mapLiterals children]

/-- The sections in rewritten tags are the sections in the tags, rewritten. -/
theorem sectionsList_mapLiterals : ∀ ts : List Tag,
    sectionsList (mapLiteralsList f ts) = mapLiteralsList f (sectionsList ts)
  | [] => rfl
  | t :: ts => by
    rw [mapLiteralsList, sectionsList_append, sections_mapLiterals t, sectionsList_mapLiterals ts,
      sectionsList, mapLiteralsList_append]

end

/-- A section among tags is one among the rewritten tags, with its children rewritten. -/
theorem block_mem_mapLiterals (h : .block key source d children ∈ ts) :
    .block key source d (mapLiteralsList f children) ∈ mapLiteralsList f ts := by
  obtain ⟨us, vs, rfl⟩ := List.append_of_mem h
  simp [mapLiteralsList, mapLiterals]

/-- A section among rewritten tags comes from one among the tags. -/
theorem exists_of_block_mem_mapLiterals (h : .block key source d children ∈ mapLiteralsList f ts) :
    ∃ cs, .block key source d cs ∈ ts ∧ mapLiteralsList f cs = children := by
  induction ts with
  | nil => cases h
  | cons t ts ih =>
    rcases List.mem_append.1 h with ht | hts
    · cases t with
      | literal t =>
        rw [mapLiterals] at ht
        split at ht <;> simp at ht
      | block k s d' cs =>
        obtain ⟨rfl, rfl, rfl, rfl⟩ := Tag.block.inj (List.mem_singleton.1 ht)
        exact ⟨cs, .head _, rfl⟩
      | _ => cases List.mem_singleton.1 ht
    · obtain ⟨cs, hcs, hmap⟩ := ih hts
      exact ⟨cs, .tail _ hcs, hmap⟩

end Tag

/-! ## Beginnings of an outline -/

namespace Outline

variable {d : Delimiters} {text t r : Text} {o o₁ : Outline} {add : List Tag → List Tag} {i : Item}

/-- The beginning of an outline, and of the text that it is read from: a number of whole parts, the
close tag behind the last of them left out. -/
inductive Initial : Outline → Outline → Text → Prop
  | ended {tags : List Tag} {source : Text} :
      Initial (.ended tags source) (.ended tags source) source
  | cut {tags : List Tag} {source : Text} {close : Item} {next : Outline} :
      Initial (.ended tags source) (.closed tags source close next) source
  | closed {tags : List Tag} {source text : Text} {close : Item} {o next : Outline} :
      Initial o next text → Initial (.closed tags source close o) (.closed tags source close next)
        (source ++ close.mark ++ close.tail ++ text)

/-- A beginning of an outline behind texts and tags has them in front too. -/
theorem Initial.of_push (h : Initial o₁ (o.push r add) text) :
    ∃ o₂ t, Initial o₂ o t ∧ o₁ = o₂.push r add ∧ text = r ++ t := by
  cases o with
  | ended tags source =>
    cases h
    exact ⟨_, _, .ended, rfl, rfl⟩
  | closed tags source close next =>
    cases h with
    | cut => exact ⟨_, _, .cut, rfl, rfl⟩
    | closed hnext => exact ⟨_, _, .closed hnext, rfl, by simp⟩
  | faulty => cases h

/-- A beginning of an outline behind an item ends in front of the item, which is a close tag then,
or has the item in front too. -/
theorem Initial.of_cons (h : Initial o₁ (cons i o) text) :
    (i.kind = .closing ∧ o₁ = .ended (Tag.consLiteral i.literal []) i.before ∧ text = i.before) ∨
      ∃ o₂ t, Initial o₂ o t ∧ o₁ = cons i o₂ ∧ text = i.text ++ t := by
  have hsection : ∀ {o : Outline}, Initial o₁ (o.consSection i) text →
      ∃ o₂ t, Initial o₂ o t ∧ o₁ = o₂.consSection i ∧ text = i.text ++ t := by
    intro o h
    cases o with
    | ended => cases h
    | faulty => cases h
    | closed children source close next =>
      simp only [consSection] at h ⊢
      split at h
      next hkey =>
        obtain ⟨o₂, t, ho₂, rfl, rfl⟩ := h.of_push
        refine ⟨_, _, .closed ho₂, ?_, ?_⟩
        · simp [hkey]
        · simp [Item.text, Item.before]
      next => cases h
  unfold cons at h ⊢
  cases hkind : i.kind with
  | closing =>
    rw [hkind] at h
    cases h with
    | cut => exact .inl ⟨rfl, rfl, rfl⟩
    | closed hnext => exact .inr ⟨_, _, hnext, rfl, by simp [Item.text, Item.before]⟩
  | opening | inverted => rw [hkind] at h; exact .inr (hsection h)
  | escaped | raw | inclusion | comment | change => rw [hkind] at h; exact .inr h.of_push

/-- A beginning of the outline of a flat scan is the outline of the flat scan of the text that it
is read from: no tag is found, lost or cut where the text ends. -/
theorem ofScan_flat_of_initial (hd : d.Solid) (h : Initial o₁ (ofScan (Scan.flat d text)) t) :
    ofScan (Scan.flat d t) = o₁ := by
  revert o₁ t
  fun_induction Scan.flat d text with
  | case1 d text fault => intro o₁ t h; cases h
  | case2 d text hnext =>
    intro o₁ t h
    cases h
    rw [Scan.flat_of_none hnext]
    rfl
  | case3 d text e hnext hafter => intro o₁ t h; cases h
  | case4 d text e hnext d' hafter ih =>
    intro o₁ t h
    have hd' : d'.Solid := Item.solid_of_after? hd hafter
    rcases h.of_cons with ⟨-, rfl, rfl⟩ | ⟨o₂, t, ho₂, rfl, rfl⟩
    · have hlead : Expression.next? d e.lead = .ok none := Expression.next?_lead hd.1.1 hnext
      simp only [Item.before, Item.ofFlat, List.append_nil]
      rw [Scan.flat_of_none hlead]
      rfl
    · have htext : (Item.ofFlat d e).text ++ t = e.lead ++ e.mark ++ t := by
        simp [Item.text, Item.ofFlat]
      have hitem : Item.ofFlat d { e with rest := t } = Item.ofFlat d e := rfl
      rw [htext, Scan.flat_of_some (Expression.next?_rest hnext t), hitem, hafter]
      show cons _ (ofScan (Scan.flat d' t)) = _
      rw [ih hd' ho₂]

/-! ## Sections -/

/-- Every section among tags comes back from its source, under delimiters that are solid again. -/
def Reparses (tags : List Tag) : Prop :=
  ∀ key source d children, .block key source d children ∈ Tag.sectionsList tags →
    d.Solid ∧ parseFlat d source = .ok children

/-- Text in front of tags is no section of its own. -/
theorem Reparses.consLiteral {tags : List Tag} {x : Text} (h : Reparses tags) :
    Reparses (Tag.consLiteral x tags) := by
  intro key source d children hin
  rw [Tag.sectionsList_consLiteral] at hin
  exact h key source d children hin

/-- A tag in front of tags adds the sections in it. -/
theorem Reparses.cons {tags : List Tag} {t : Tag} (ht : Reparses [t]) (h : Reparses tags) :
    Reparses (t :: tags) := by
  intro key source d children hin
  rcases List.mem_append.1 hin with hin | hin
  · exact ht key source d children (by simpa [Tag.sectionsList] using hin)
  · exact h key source d children hin

/-- A section comes back if its children do, and the sections in them. -/
theorem Reparses.sectionTag {source : Text} {children : List Tag} (h : Reparses children)
    (hsource : i.kind ≠ .inverted → i.delimiters.Solid ∧
      parseFlat i.delimiters source = .ok children) :
    Reparses [Outline.sectionTag i source children] := by
  intro key source' d' children' hin
  unfold Outline.sectionTag at hin
  split at hin
  next =>
    simp only [Tag.sectionsList, Tag.sections, List.append_nil] at hin
    exact h key source' d' children' hin
  next hkind =>
    simp only [Tag.sectionsList, Tag.sections, List.append_nil] at hin
    rcases List.mem_cons.1 hin with heq | hin
    · obtain ⟨-, rfl, rfl, rfl⟩ := Tag.block.inj heq
      exact hsource hkind
    · exact h key source' d' children' hin

/-- Sections still come back behind an item, if the part that the item opens a section for is what
its source is parsed to. -/
theorem forall_reparses_cons (htail : i.tail = []) (ho : o.Forall Reparses)
    (hpart : ∀ children source close next, o = .closed children source close next →
      i.kind = .opening → i.delimiters.Solid ∧ parseFlat i.delimiters source = .ok children) :
    (cons i o).Forall Reparses := by
  have hvalue : ∀ t : Tag, Tag.sections t = [] → ∀ tags, Reparses tags →
      Reparses (Tag.consLiteral i.literal (t :: tags)) := fun t ht tags htags =>
    .consLiteral (.cons (fun key source d children hin => by simp [Tag.sectionsList, ht] at hin)
      htags)
  have hsection : i.kind = .opening ∨ i.kind = .inverted → (o.consSection i).Forall Reparses := by
    intro hkind
    cases o with
    | ended => trivial
    | faulty => trivial
    | closed children source close next =>
      obtain ⟨hchildren, hnext⟩ := ho
      simp only [consSection, htail, List.nil_append]
      split
      next =>
        have htag : Reparses [sectionTag i source children] :=
          hchildren.sectionTag fun hne => hpart _ _ _ _ rfl (hkind.resolve_right hne)
        exact Forall.push hnext fun tags htags => .consLiteral (.cons htag htags)
      next => trivial
  unfold cons
  cases hkind : i.kind with
  | escaped => exact Forall.push ho (hvalue _ rfl)
  | raw => exact Forall.push ho (hvalue _ rfl)
  | inclusion => exact Forall.push ho (hvalue _ rfl)
  | comment => exact Forall.push ho fun _ => .consLiteral
  | change => exact Forall.push ho fun _ => .consLiteral
  | closing => exact ⟨.consLiteral fun _ _ _ _ hin => absurd hin List.not_mem_nil, ho⟩
  | opening => exact hsection (.inl hkind)
  | inverted => exact hsection (.inr hkind)

/-- The sections of a flat scan come back from their sources. -/
theorem forall_reparses (hd : d.Solid) : (ofScan (Scan.flat d text)).Forall Reparses := by
  fun_induction Scan.flat d text with
  | case1 d text fault => trivial
  | case2 d text hnext =>
    show Reparses (Tag.consLiteral text [])
    exact .consLiteral fun _ _ _ _ hin => absurd hin List.not_mem_nil
  | case3 d text e hnext hafter => trivial
  | case4 d text e hnext d' hafter ih =>
    refine forall_reparses_cons rfl (ih (Item.solid_of_after? hd hafter)) ?_
    intro children source close next hpart hkind
    -- An open tag leaves the delimiters as they are, so its source is scanned under its own pair.
    have hsame : d' = d := by
      have : (Item.ofFlat d e).kind ≠ .change := by simp [hkind]
      rw [Item.after?, if_neg this] at hafter
      exact (Option.some.inj hafter).symm
    have hinitial : Initial (.ended children source) (ofScan (Scan.flat d e.rest)) source := by
      rw [← hsame, hpart]
      exact .cut
    refine ⟨hd, ?_⟩
    show (ofScan (Scan.flat d source)).complete = .ok children
    rw [ofScan_flat_of_initial hd hinitial]
    rfl

end Outline

/-- The tree of a text without trimmed lines gives back the children of each of its sections. -/
theorem reparses_of_parseFlat {d : Delimiters} (hd : d.Solid) {src : Text} {tags : List Tag}
    (h : parseFlat d src = .ok tags) : Outline.Reparses tags := by
  have hall : (Outline.ofScan (Scan.flat d src)).Forall Outline.Reparses :=
    Outline.forall_reparses hd
  obtain ⟨source, hended⟩ := Outline.complete_eq_ok_iff.1 h
  rw [hended] at hall
  exact hall

/-! ## With lines trimmed -/

variable {state final : ParseState} {d : Delimiters} {src key source : Text}
  {tags children : List Tag}

/-- **The source of a section is a template.** Parsed by itself, under the delimiters that its
section keeps, it gives the children of the section up to the spaces, tabs and line ends of their
literals. So a text that a lambda is given and hands back is rendered. -/
theorem parse_section_source (hd : state.delimiters.Solid)
    (h : parse state src = .ok (tags, final))
    (hin : .block key source d children ∈ Tag.sectionsList tags) :
    ∃ again left, parse { delimiters := d } source = .ok (again, left) ∧
      Tag.squeezeList again = Tag.squeezeList children ∧
      ∀ {V : Type} (block : BlockRenderer V) (context : Context V),
        renderText block d context source = block context again := by
  obtain ⟨htags, -⟩ := parse_eq_ok_iff.1 h
  -- The section stands in the flat tree too, with children that differ in padding only.
  obtain ⟨flatTags, hflat, hsame⟩ := exists_parseFlat Text.forgets_squeeze hd htags
  have hmapped := Tag.block_mem_mapLiterals (f := Text.squeeze) hin
  rw [← Tag.sectionsList_mapLiterals, hsame, Tag.sectionsList_mapLiterals] at hmapped
  obtain ⟨flatChildren, hflatIn, hchildren⟩ := Tag.exists_of_block_mem_mapLiterals hmapped
  obtain ⟨hsolid, hsource⟩ := reparses_of_parseFlat hd hflat _ _ _ _ hflatIn
  -- There it comes back as it is, and what comes back here differs in padding only.
  obtain ⟨again, hagain, hsqueeze⟩ := exists_parseTags Text.forgets_squeeze hsolid hsource
  refine ⟨again, _, parse_eq_ok_iff.2 ⟨hagain, rfl⟩, ?_, fun {V} block context => ?_⟩
  · exact hsqueeze.trans hchildren
  · simp only [renderText, hagain]

/-- A section inside a section, behind a change of the delimiters: its source has an end of line in
front that is trimmed in the whole text only. -/
theorem parse_section_source_inside :
    ∃ again left, parse { delimiters := ⟨"<%".toList, "%>".toList⟩ } "\n  b\n ".toList =
        .ok (again, left) ∧
      Tag.squeezeList again = Tag.squeezeList [.literal "  b\n".toList] ∧
      ∀ {V : Type} (block : BlockRenderer V) (context : Context V),
        renderText block ⟨"<%".toList, "%>".toList⟩ context "\n  b\n ".toList =
          block context again := by
  have hparse : parse {} "{{#x}}\n {{=<% %>=}}\n <%#y%>\n  b\n <%/y%>\n<%/x%>".toList =
      .ok ([.block "x".toList "\n {{=<% %>=}}\n <%#y%>\n  b\n <%/y%>\n".toList {}
        [.block "y".toList "\n  b\n ".toList ⟨"<%".toList, "%>".toList⟩
          [.literal "  b\n".toList]]], {}) := by decide +kernel
  exact parse_section_source (by decide) hparse (.tail _ (.head _))

end Mustache
