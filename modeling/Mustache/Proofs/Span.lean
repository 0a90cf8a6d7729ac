import Mustache.Proofs.Sources

/-!
# The spans of sections

The source of a section is the text between its tags. Which tags these are is told by the sites of
all tags: a close tag belongs to the last open tag in front of it that no close tag in between
belongs to. `Brackets` pairs them from the back of a text, where the close tags that still want an
open tag are a stack. So the sections of a text have spans, in the order of their open tags
(`Scan.spans`), and the sources in its tag tree are the texts of these spans
(`sources_of_parseTags`).
-/

namespace Mustache

/-! ## Spans -/

/-- Where a section stands in a text. -/
structure Span where
  /-- The offset just past its open tag. -/
  opened : Nat
  /-- The offset of its close tag. -/
  closed : Nat
  deriving DecidableEq

namespace Span

/-- The text of a span. -/
def text (src : Text) (p : Span) : Text :=
  Text.slice p.opened p.closed src

/-- A span is where a part of a text is. -/
def Holds (src : Text) (p : Span) (x : Text) : Prop :=
  ∃ front back, src = front ++ x ++ back ∧ p.opened = Text.size front ∧
    p.closed = Text.size front + Text.size x

variable {src x : Text} {p : Span}

/-- The part of the text is the text of the span. -/
theorem Holds.text_eq (h : p.Holds src x) : p.text src = x := by
  obtain ⟨front, back, rfl, hopened, hclosed⟩ := h
  rw [text, hopened, hclosed, Text.slice_size]

end Span

/-- The sections among sites. -/
structure Brackets where
  /-- The offsets of the close tags that no open tag among the sites belongs to. -/
  closes : List Nat := []
  /-- The spans of the sections that keep their source, in the order of their open tags. -/
  spans : List Span := []
  deriving DecidableEq

namespace Brackets

/-- Puts a site in front of others. An open tag takes the first close tag that wants one. -/
def cons (p : Site) (b : Brackets) : Brackets :=
  match p.kind, b.closes with
  | .opening, closed :: closes => ⟨closes, ⟨p.stop, closed⟩ :: b.spans⟩
  | .inverted, _ :: closes => ⟨closes, b.spans⟩
  | .closing, closes => ⟨p.start :: closes, b.spans⟩
  | _, _ => b

/-- The sections among sites that are in order. -/
def ofSites (sites : List Site) : Brackets :=
  sites.foldr cons {}

variable {p : Site} {b : Brackets} {closed : Nat} {closes : List Nat}

/-- An open tag takes the first close tag that wants one. -/
theorem cons_opening (hkind : p.kind = .opening) (h : b.closes = closed :: closes) :
    b.cons p = ⟨closes, ⟨p.stop, closed⟩ :: b.spans⟩ := by
  simp only [cons, hkind, h]

/-- So does the open tag of an inverted section, which has no span. -/
theorem cons_inverted (hkind : p.kind = .inverted) (h : b.closes = closed :: closes) :
    b.cons p = ⟨closes, b.spans⟩ := by
  simp only [cons, hkind, h]

/-- A close tag wants an open tag. -/
theorem cons_closing (hkind : p.kind = .closing) :
    b.cons p = ⟨p.start :: b.closes, b.spans⟩ := by
  simp only [cons, hkind]

/-- Any other tag has no part in sections. -/
theorem cons_other (h : p.kind ≠ .opening ∧ p.kind ≠ .inverted ∧ p.kind ≠ .closing) :
    b.cons p = b := by
  unfold cons
  split
  next hkind _ => exact absurd hkind h.1
  next hkind _ => exact absurd hkind h.2.1
  next hkind => exact absurd hkind h.2.2
  next => rfl

end Brackets

/-- The spans of the sections of a scan that begins with the text. -/
def Scan.spans (s : Scan) : List Span :=
  (Brackets.ofSites (s.sites 0)).spans

/-! ## Brackets and outlines -/

namespace Outline

/-- The sources of the sections in all parts of an outline. -/
def sources : Outline → List Text
  | .ended tags _ => Tag.sourcesList tags
  | .closed tags _ _ next => Tag.sourcesList tags ++ next.sources
  | .faulty _ => []

/-- The offsets of the close tags between the parts of an outline that begins at `first`. -/
def closes (first : Nat) : Outline → List Nat
  | .ended .. | .faulty _ => []
  | .closed _ source close next =>
    (first + Text.size source) ::
      next.closes (first + Text.size source + Text.size (close.mark ++ close.tail))

/-- Brackets say where the close tags of an outline are, and the sources in it. -/
structure Told (src : Text) (first : Nat) (o : Outline) (b : Brackets) : Prop where
  closes : b.closes = o.closes first
  sources : List.Forall₂ (Span.Holds src) b.spans o.sources

variable {src read r : Text} {first : Nat} {o : Outline} {b : Brackets} {i : Item} {s : Scan}
  {add : List Tag → List Tag} {more : List Text}

/-- Text in front of an outline moves its close tags. -/
theorem closes_push : (o.push r add).closes first = o.closes (first + Text.size r) := by
  cases o <;> simp only [push, closes, Text.size_append, Nat.add_assoc]

/-- Tags in front of an outline have their sources in front. -/
theorem sources_push (h : o.Sound)
    (hadd : ∀ tags, Tag.sourcesList (add tags) = more ++ Tag.sourcesList tags) :
    (o.push r add).sources = more ++ o.sources := by
  cases o with
  | ended => exact hadd _
  | closed => simp only [push, sources, hadd, List.append_assoc]
  | faulty => cases h

/-- What an outline is told by tells it behind a tag without a source too. -/
theorem Told.push (h : o.Told src (first + Text.size r) b) (hsound : o.Sound)
    (hadd : ∀ tags, Tag.sourcesList (add tags) = Tag.sourcesList tags) :
    (o.push r add).Told src first b := by
  refine ⟨h.closes.trans closes_push.symm, ?_⟩
  have hsame : (o.push r add).sources = [] ++ o.sources := sources_push hsound hadd
  rw [hsame]
  exact h.sources

/-- An open tag takes the first close tag, and the text between them is the source. -/
theorem Told.consSection (hsound : (o.consSection i).Sound)
    (hkind : i.kind = .opening ∨ i.kind = .inverted) (hsrc : src = read ++ (i.text ++ o.text))
    (h : o.Told src (i.next (Text.size read)) b) :
    (o.consSection i).Told src (Text.size read) (b.cons (i.site (Text.size read))) := by
  cases o with
  | ended => cases hsound
  | faulty => cases hsound
  | closed children source close next =>
    rw [Outline.consSection] at hsound ⊢
    split at hsound
    next hkey =>
      obtain ⟨hcloses, hsources⟩ := h
      have hafter : Text.size read + Text.size (i.before ++ i.mark ++ (i.tail ++ source) ++
          close.mark ++ close.tail) =
          i.next (Text.size read) + Text.size source + Text.size (close.mark ++ close.tail) := by
        simp only [Item.next, Item.text, Item.before, Text.size_append, Nat.add_assoc]
      have hadd : ∀ tags, Tag.sourcesList (Tag.consLiteral i.literal
          (sectionTag i (i.tail ++ source) children :: tags)) =
            (if i.kind = .inverted then [] else [i.tail ++ source]) ++ Tag.sourcesList children ++
              Tag.sourcesList tags := fun tags => by
        rw [Tag.sourcesList_consLiteral, Tag.sourcesList, Tag.sources_sectionTag]
      have hspan : Span.Holds src
          ⟨(i.site (Text.size read)).stop, i.next (Text.size read) + Text.size source⟩
          (i.tail ++ source) := by
        refine ⟨read ++ (i.before ++ i.mark), close.mark ++ close.tail ++ next.text, ?_, ?_, ?_⟩
        · simp only [hsrc, text, Item.text, Item.before, List.append_assoc]
        · exact (Text.size_append ..).symm
        · simp only [Item.next, Item.text, Item.before, Text.size_append, Nat.add_assoc]
      rw [if_pos hkey]
      rcases hkind with hkind | hkind
      · rw [Brackets.cons_opening hkind hcloses]
        refine ⟨by rw [closes_push, hafter], ?_⟩
        rw [sources_push (sound_push.1 hsound) hadd, hkind, if_neg (by decide), List.append_assoc]
        exact .cons hspan hsources
      · rw [Brackets.cons_inverted hkind hcloses]
        refine ⟨by rw [closes_push, hafter], ?_⟩
        rw [sources_push (sound_push.1 hsound) hadd, hkind, if_pos rfl, List.append_assoc]
        exact hsources
    next => cases hsound

/-- What an outline is told by, and the site of an item, tell it behind the item. -/
theorem Told.cons (hsound : (cons i o).Sound) (hsrc : src = read ++ (i.text ++ o.text))
    (h : o.Told src (i.next (Text.size read)) b) :
    (cons i o).Told src (Text.size read) (b.cons (i.site (Text.size read))) := by
  have ho : o.Sound := hsound.of_cons
  have hother : i.kind ≠ .opening ∧ i.kind ≠ .inverted ∧ i.kind ≠ .closing →
      b.cons (i.site (Text.size read)) = b := fun hkind => Brackets.cons_other hkind
  unfold Outline.cons at hsound ⊢
  cases hkind : i.kind with
  | escaped | raw | inclusion | comment | change =>
    rw [hother (by simp [hkind])]
    exact h.push ho fun tags => Tag.sourcesList_consLiteral
  | closing =>
    have hnext : Text.size read + Text.size i.before + Text.size (i.mark ++ i.tail) =
        i.next (Text.size read) := by
      simp only [Item.next, Item.text, Item.before, Text.size_append, Nat.add_assoc]
    rw [Brackets.cons_closing hkind]
    constructor
    · show _ = _ :: o.closes _
      rw [hnext, h.closes]
      rfl
    · show List.Forall₂ _ _ (Tag.sourcesList (Tag.consLiteral i.literal []) ++ o.sources)
      rw [Tag.sourcesList_consLiteral]
      exact h.sources
  | opening => rw [hkind] at hsound; exact h.consSection hsound (.inl hkind) hsrc
  | inverted => rw [hkind] at hsound; exact h.consSection hsound (.inr hkind) hsrc

/-- **Brackets tell of sections.** The sites of a scan say where the sections of its outline are. -/
theorem told_ofScan (hsound : (ofScan s).Sound) (hsrc : src = read ++ s.text) :
    (ofScan s).Told src (Text.size read) (Brackets.ofSites (s.sites (Text.size read))) := by
  induction s generalizing read with
  | tag i next ih =>
    have hnext : (ofScan next).Sound := hsound.of_cons
    have hoffset : i.next (Text.size read) = Text.size (read ++ i.text) := by
      rw [Item.next, Text.size_append]
    have hrest : src = read ++ i.text ++ next.text := by
      rw [hsrc, Scan.text, List.append_assoc]
    have htold := ih hnext hrest
    rw [← hoffset] at htold
    exact htold.cons hsound (by rw [hnext.text_eq]; exact hsrc)
  | done text =>
    refine ⟨rfl, ?_⟩
    rw [ofScan, sources, Tag.sourcesList_consLiteral]
    exact .nil
  | faulty => cases hsound

end Outline

/-- What vanishes with a tag does not move it: the scan of a text and its flat scan have the same
sites. -/
theorem Scan.sites_ofText {fresh : Bool} {d : Delimiters} (hd : d.Solid) (text : Text) (n : Nat) :
    (ofText fresh d text).sites n = (flat d text).sites n := by
  have huntrim : (ofText fresh d text).untrim [] = flat d text := untrim_ofText hd Text.white_nil
  rw [← huntrim, sites_untrim, Text.size_nil, Nat.add_zero]

variable {d : Delimiters} {src : Text} {tags : List Tag}

/-- The sources in the tree of a text stand in the text where the spans of its sections are. -/
theorem holds_of_parseTags (hd : d.Solid) (h : parseTags d src = .ok tags) :
    List.Forall₂ (Span.Holds src) (Scan.flat d src).spans (Tag.sourcesList tags) := by
  obtain ⟨hsound, hended⟩ := ended_of_parseTags h
  have hsrc : src = [] ++ (Scan.ofText true d src).text :=
    (Scan.text_ofText hsound.fault?_eq_none).symm
  have htold := Outline.told_ofScan hsound hsrc
  rw [hended, Text.size_nil, Scan.sites_ofText hd] at htold
  exact htold.sources

/-- **The sources of sections.** The sources in the tree of a text are the texts of the spans of its
sections. -/
theorem sources_of_parseTags (hd : d.Solid) (h : parseTags d src = .ok tags) :
    Tag.sourcesList tags = (Scan.flat d src).spans.map (Span.text src) := by
  have htexts : List.Forall₂ (· = ·) ((Scan.flat d src).spans.map (Span.text src))
      (Tag.sourcesList tags) :=
    List.forall₂_map_left_iff.2 ((holds_of_parseTags hd h).imp fun _ _ hspan => hspan.text_eq)
  rw [List.forall₂_eq_eq_eq] at htexts
  exact htexts.symm

/-- Every span of the sections of a text holds its text. -/
theorem span_holds_of_parseTags (hd : d.Solid) (h : parseTags d src = .ok tags) :
    ∀ p ∈ (Scan.flat d src).spans, p.Holds src (p.text src) := by
  have hholds := holds_of_parseTags hd h
  rw [sources_of_parseTags hd h] at hholds
  exact List.forall₂_same.1 (List.forall₂_map_right_iff.1 hholds)

end Mustache
