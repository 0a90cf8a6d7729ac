import Mustache.Proofs.Span

/-!
# Comments on lines of their own

A comment can be put on a line of its own anywhere between the lines of a text, in any open sections
and under any delimiters, as long as no tag reaches across: the text says the same tags
(`parse_commentLine`). The scan takes the same tags in front of the line and behind it
(`Scan.flat_of_not_across`), so that all sites behind the line move by its size, and with them the
spans of the sections (`Brackets.ofSites_moved`). Only the sections that are open at the line have
it in their sources.
-/

namespace Mustache

/-! ## Putting a text in -/

section Moved

variable (n k : Nat)

/-- Where something that begins at an offset does so once a text of `k` bytes is put in at `n`. -/
def movedStart (m : Nat) : Nat :=
  if m < n then m else m + k

/-- Where something that ends at an offset does so once a text of `k` bytes is put in at `n`. -/
def movedStop (m : Nat) : Nat :=
  if m ≤ n then m else m + k

/-- Where a tag stands once a text of `k` bytes is put in at `n`. -/
def Site.moved (p : Site) : Site :=
  { p with start := movedStart n k p.start, stop := movedStop n k p.stop }

/-- Where a section stands once a text of `k` bytes is put in at `n`. -/
def Span.moved (p : Span) : Span :=
  ⟨movedStop n k p.opened, movedStart n k p.closed⟩

/-- Where the sections among sites stand once a text of `k` bytes is put in at `n`. -/
def Brackets.moved (b : Brackets) : Brackets :=
  ⟨b.closes.map (movedStart n k), b.spans.map (Span.moved n k)⟩

variable {n k : Nat} {first : Nat} {p : Site} {b : Brackets} {ps qs : List Site} {s next : Scan}

/-- Tags that move are paired as before. -/
theorem Brackets.cons_moved : (b.moved n k).cons (p.moved n k) = (b.cons p).moved n k := by
  obtain ⟨closes, spans⟩ := b
  obtain ⟨kind, content, start, stop⟩ := p
  cases kind <;> cases closes <;> rfl

/-- **Sections move with their tags.** -/
theorem Brackets.ofSites_moved : ofSites (ps.map (Site.moved n k)) = (ofSites ps).moved n k := by
  induction ps with
  | nil => rfl
  | cons p ps ih =>
    show (ofSites (ps.map (Site.moved n k))).cons (p.moved n k) = _
    rw [ih, cons_moved]
    rfl

/-- A tag that is neither an open nor a close tag has no part in sections. -/
theorem Brackets.ofSites_other
    (h : p.kind ≠ .opening ∧ p.kind ≠ .inverted ∧ p.kind ≠ .closing) :
    ofSites (ps ++ p :: qs) = ofSites (ps ++ qs) := by
  have hback : ofSites (p :: qs) = ofSites qs := cons_other h
  unfold ofSites at hback ⊢
  rw [List.foldr_append, List.foldr_append, hback]

namespace Scan

/-- The sites of a scan and of the scan of what follows its text. -/
theorem sites_followedBy (h : s.fault? = none) :
    (s.followedBy next).sites first = s.sites first ++ next.sites (first + Text.size s.text) := by
  induction s generalizing first with
  | tag i rest ih =>
    have hrest : (rest.followedBy next).sites (i.next first) = _ := ih h
    rw [followedBy, sites, hrest, sites, text, Text.size_append, Item.next, List.cons_append,
      Nat.add_assoc]
  | done t => exact sites_behind
  | faulty => cases h

/-- Every tag of a scan is written. -/
theorem mark_ne_nil_of_mem_items {fresh : Bool} {d : Delimiters} {t : Text} :
    ∀ i ∈ (ofText fresh d t).items, i.mark ≠ [] := by
  fun_induction ofText fresh d t with
  | case1 | case2 | case3 => exact fun i hi => absurd hi List.not_mem_nil
  | case4 fresh d t e hnext item d' hafter ih =>
    obtain ⟨literal, indent, tail, rest, hitem, -⟩ := Item.ofExpression_spec fresh d e
    refine List.forall_mem_cons.2 ⟨?_, ih⟩
    simp only [item, hitem]
    exact Expression.mark_ne_nil hnext

/-- What is in front of the text that is put in does not move. -/
theorem sites_moved_front (hmark : ∀ i ∈ s.items, i.mark ≠ [])
    (hn : first + Text.size s.text ≤ n) : (s.sites first).map (Site.moved n k) = s.sites first := by
  induction s generalizing first with
  | tag i next ih =>
    obtain ⟨hi, hnext⟩ := List.forall_mem_cons.1 hmark
    have hsize := Text.size_pos hi
    have hrest : i.next first + Text.size next.text ≤ n := by
      rwa [Item.next, Nat.add_assoc, ← Text.size_append]
    have hfirst : (i.site first).moved n k = i.site first := by
      have hle : i.next first ≤ n := Nat.le_trans (Nat.le_add_right ..) hrest
      simp only [Item.next, Item.text, Text.size_append] at hle
      have hstart : i.start first < n := by
        simp only [Item.start, Item.before, Text.size_append]
        omega
      have hstop : i.stop first ≤ n := by
        simp only [Item.stop, Item.before, Text.size_append]
        omega
      simp only [Site.moved, Item.site, movedStart, movedStop, hstart, hstop, if_true]
    rw [sites, List.map_cons, hfirst, ih hnext hrest]
  | done | faulty => rfl

/-- What is behind it moves by its size. -/
theorem sites_moved_back (hmark : ∀ i ∈ s.items, i.mark ≠ []) (hn : n ≤ first) :
    (s.sites first).map (Site.moved n k) = s.sites (first + k) := by
  induction s generalizing first with
  | tag i next ih =>
    obtain ⟨hi, hnext⟩ := List.forall_mem_cons.1 hmark
    have hsize := Text.size_pos hi
    have hrest : n ≤ i.next first := Nat.le_trans hn (Nat.le_add_right ..)
    have hfirst : (i.site first).moved n k = i.site (first + k) := by
      have hstart : ¬ first + Text.size i.before < n := by omega
      have hstop : ¬ first + Text.size (i.before ++ i.mark) ≤ n := by
        rw [Text.size_append]
        omega
      simp only [Site.moved, Item.site, Item.start, Item.stop, movedStart, movedStop, hstart, hstop,
        if_false, Nat.add_right_comm]
    have hoffset : i.next first + k = i.next (first + k) := Nat.add_right_comm ..
    rw [sites, List.map_cons, hfirst, ih hnext hrest, hoffset, sites]
  | done | faulty => rfl

/-- A comment between two scans moves the sections of the second one by its size, and those around
it. -/
theorem spans_comment {i : Item} (hs : s.fault? = none) (hfront : ∀ j ∈ s.items, j.mark ≠ [])
    (hback : ∀ j ∈ next.items, j.mark ≠ []) (hi : i.kind = .comment) :
    (s.followedBy (.tag i next)).spans =
      (s.followedBy next).spans.map (Span.moved (Text.size s.text) (Text.size i.text)) := by
  have hother : (i.site (Text.size s.text)).kind ≠ .opening ∧
      (i.site (Text.size s.text)).kind ≠ .inverted ∧
      (i.site (Text.size s.text)).kind ≠ .closing := by simp [Item.site, hi]
  have hmoved : s.sites 0 ++ next.sites (Text.size s.text + Text.size i.text) =
      (s.sites 0 ++ next.sites (Text.size s.text)).map
        (Site.moved (Text.size s.text) (Text.size i.text)) := by
    rw [List.map_append, sites_moved_front hfront (Nat.le_of_eq (Nat.zero_add _)),
      sites_moved_back hback Nat.le.refl]
  rw [spans, spans, sites_followedBy hs, sites_followedBy hs, Nat.zero_add, sites,
    Brackets.ofSites_other hother, Item.next, hmoved, Brackets.ofSites_moved]
  rfl

end Scan

end Moved

/-! ## Sources with a line in them -/

namespace Span

/-- A section is open at an offset between its tags. -/
def OpenAt (n : Nat) (p : Span) : Prop :=
  p.opened ≤ n ∧ n ≤ p.closed

instance (n : Nat) (p : Span) : Decidable (p.OpenAt n) :=
  inferInstanceAs (Decidable (_ ∧ _))

/-- The text of a span, with a line put in at an offset if the span is open there. -/
def textWith (n : Nat) (line src : Text) (p : Span) : Text :=
  if p.OpenAt n then Text.slice p.opened n src ++ line ++ Text.slice n p.closed src
  else p.text src

variable {a b line x : Text} {p : Span}

/-- **What a span holds once a line is put in.** The line is in it if it is open there. -/
theorem Holds.moved (h : p.Holds (a ++ b) x) :
    (p.moved (Text.size a) (Text.size line)).Holds (a ++ line ++ b)
      (p.textWith (Text.size a) line (a ++ b)) := by
  have htext : p.text (a ++ b) = x := h.text_eq
  obtain ⟨front, back, hsrc, hopened, hclosed⟩ := h
  rw [List.append_assoc] at hsrc
  by_cases hopen : p.OpenAt (Text.size a)
  · -- The line divides what the span holds into `y` and `z`.
    obtain ⟨hle, hge⟩ := id hopen
    rw [hopened] at hle
    obtain ⟨y, rfl, hx⟩ := Text.exists_append_of_size_le hsrc.symm hle
    have hsize : Text.size y ≤ Text.size x := by
      rw [hclosed, Text.size_append] at hge
      omega
    obtain ⟨z, rfl, rfl⟩ := Text.exists_append_of_size_le hx.symm hsize
    have hy : Text.slice p.opened (Text.size (front ++ y)) (front ++ y ++ (z ++ back)) = y := by
      rw [hopened, Text.size_append, Text.slice_size]
    have hz : Text.slice (Text.size (front ++ y)) p.closed (front ++ y ++ (z ++ back)) = z := by
      rw [hclosed, Text.size_append y, ← Nat.add_assoc, ← Text.size_append,
        ← List.append_assoc (front ++ y), Text.slice_size]
    rw [textWith, if_pos hopen, hy, hz]
    refine ⟨front, back, by simp only [List.append_assoc], ?_, ?_⟩
    · rw [← hopened]
      exact if_pos hopen.1
    · have hclosed' : (p.moved (Text.size (front ++ y)) (Text.size line)).closed =
          p.closed + Text.size line := if_neg (Nat.not_lt.2 hge)
      rw [hclosed', hclosed]
      simp only [Text.size_append]
      omega
  · rw [textWith, if_neg hopen, htext]
    by_cases hfront : Text.size a < p.opened
    · -- The line stands in front of the span.
      obtain ⟨e, rfl, rfl⟩ := Text.exists_append_of_size_le hsrc (hopened ▸ Nat.le_of_lt hfront)
      refine ⟨a ++ line ++ e, back, by simp only [List.append_assoc], ?_, ?_⟩
      · have hmoved : (p.moved (Text.size a) (Text.size line)).opened =
            p.opened + Text.size line := if_neg (Nat.not_le.2 hfront)
        rw [hmoved, hopened]
        simp only [Text.size_append]
        omega
      · have hmoved : (p.moved (Text.size a) (Text.size line)).closed =
            p.closed + Text.size line := if_neg (by omega)
        rw [hmoved, hclosed]
        simp only [Text.size_append]
        omega
    · -- The line stands behind the span.
      have hback : p.closed < Text.size a :=
        Nat.lt_of_not_le fun hge => hopen ⟨Nat.le_of_not_lt hfront, hge⟩
      have hsize : Text.size (front ++ x) ≤ Text.size a := by
        rw [Text.size_append]
        omega
      obtain ⟨e, rfl, rfl⟩ := Text.exists_append_of_size_le
        ((List.append_assoc ..).trans hsrc.symm) hsize
      refine ⟨front, e ++ line ++ b, by simp only [List.append_assoc], ?_, ?_⟩
      · rw [← hopened]
        exact if_pos (Nat.le_of_not_lt hfront)
      · rw [← hclosed]
        exact if_pos hback

end Span

/-! ## What is in front of a place -/

namespace Scan

/-- The delimiters in effect at an offset of the text of a scan that begins under `d`. -/
def delimitersAt (n first : Nat) (d : Delimiters) : Scan → Delimiters
  | .tag i next =>
    if i.stop first ≤ n then next.delimitersAt n (i.next first) (i.after?.getD d) else d
  | .done _ | .faulty _ => d

variable {d : Delimiters} {a b text : Text} {first : Nat}

/-- If no tag reaches across a place, then what is in front of it is scanned by itself, up to the
delimiters that are in effect there. -/
theorem flat_of_not_across (hd : d.Solid) (hfault : (flat d (a ++ b)).fault? = none)
    (hacross : ∀ p ∈ (flat d (a ++ b)).sites first,
      p.stop ≤ first + Text.size a ∨ first + Text.size a ≤ p.start) :
    (flat d a).fault? = none ∧ (flat d a).final d =
      (flat d (a ++ b)).delimitersAt (first + Text.size a) first d := by
  generalize htext : a ++ b = text at hfault hacross ⊢
  fun_induction flat d text generalizing a first with
  | case1 => cases hfault
  | case2 d text hnext =>
    have hnone : Expression.next? d a = .ok none := by
      refine Expression.next?_eq_none_iff.2 fun hin => Expression.next?_eq_none_iff.1 hnext ?_
      rw [← htext]
      exact hin.trans (List.prefix_append ..).isInfix
    rw [flat_of_none hnone]
    exact ⟨rfl, rfl⟩
  | case3 => cases hfault
  | case4 d text e hnext d' hafter ih =>
    obtain ⟨hlead, -, hsplit⟩ := Expression.next?_eq_some_iff.1 hnext
    have hoffset : (Item.ofFlat d e).next first = first + Text.size (e.lead ++ e.mark) := by
      simp only [Item.next, Item.text, Item.ofFlat, List.append_nil]
    have hstop : (Item.ofFlat d e).stop first = first + Text.size (e.lead ++ e.mark) := by
      simp only [Item.stop, Item.before, Item.ofFlat, List.append_nil]
    rw [delimitersAt, hstop, hoffset, hafter, Option.getD_some]
    by_cases hin : first + Text.size (e.lead ++ e.mark) ≤ first + Text.size a
    · -- The tag stands in front of the place.
      obtain ⟨t, rfl, hrest⟩ := Text.exists_append_of_size_le
        (hsplit.symm.trans htext.symm) (Nat.le_of_add_le_add_left hin)
      have hflat : flat d (e.lead ++ e.mark ++ t) = .tag (Item.ofFlat d e) (flat d' t) := by
        have hsame : Item.ofFlat d { e with rest := t } = Item.ofFlat d e := rfl
        rw [flat_of_some (Expression.next?_rest hnext t), hsame, hafter]
      have hplace : first + Text.size (e.lead ++ e.mark ++ t) =
          first + Text.size (e.lead ++ e.mark) + Text.size t := by
        rw [Text.size_append, Nat.add_assoc]
      rw [if_pos hin, hflat, final, hafter, Option.getD_some, hplace]
      refine ih (Item.solid_of_after? hd hafter) hrest.symm hfault fun p hp => ?_
      rw [← hplace]
      exact hacross p (.tail _ (hoffset ▸ hp))
    · -- The tag stands behind it, and so do all others.
      have hstart : (Item.ofFlat d e).start first = first + Text.size e.lead := by
        simp only [Item.start, Item.before, Item.ofFlat, List.append_nil]
      have hbehind : first + Text.size a ≤ first + Text.size e.lead :=
        hstart ▸ (hacross _ (.head _)).resolve_left fun hle => hin (hstop ▸ hle)
      obtain ⟨t, ht, -⟩ := Text.exists_append_of_size_le
        (htext.trans (hsplit.trans (List.append_assoc ..))) (Nat.le_of_add_le_add_left hbehind)
      have hnone : Expression.next? d a = .ok none := by
        refine Expression.next?_eq_none_iff.2 fun hin => hlead.not_occurs hd.1.1 ?_
        rw [ht]
        exact hin.trans (List.prefix_append ..).isInfix
      rw [if_neg hin, flat_of_none hnone]
      exact ⟨rfl, rfl⟩

/-- Solid delimiters are in effect at the end of a text if it begins under such. -/
theorem solid_final (hd : d.Solid) : ((flat d text).final d).Solid := by
  fun_induction flat d text with
  | case1 | case2 | case3 => exact hd
  | case4 d text e hnext d' hafter ih =>
    rw [final, hafter]
    exact ih (Item.solid_of_after? hd hafter)

end Scan

/-! ## A line with a comment -/

/-- The tag of a comment, written with the delimiters `d`. -/
def commentMark (d : Delimiters) (comment : Text) : Text :=
  d.start ++ ['!'] ++ comment ++ d.stop

/-- A line with a comment between blanks. The comment may have lines of its own. -/
def commentLine (d : Delimiters) (front comment back : Text) : Text :=
  front ++ commentMark d comment ++ back ++ ['\n']

section Line

variable {d : Delimiters} {front comment back rest : Text}

/-- The item that a line with a comment is. -/
def commentItem (d : Delimiters) (front comment back : Text) : Item :=
  ⟨[], front, commentMark d comment, back ++ ['\n'], .comment, Text.trim comment, d⟩

/-- A line with a comment is scanned to the comment, with which all of it vanishes. -/
theorem ofText_commentLine (hd : d.Solid) (hfront : front.all Text.isBlank = true)
    (hback : back.all Text.isBlank = true) (hcomment : Text.Clear d.stop comment) :
    Scan.ofText true d (commentLine d front comment back ++ rest) =
      .tag (commentItem d front comment back) (Scan.ofText true d rest) := by
  have hsigil : Kind.ofSigil? '!' = some (.comment, []) := rfl
  have hmark : Mark d (commentMark d comment) .comment (Text.trim comment) :=
    .sigil hsigil hcomment fun _ => rfl
  have hline : commentLine d front comment back ++ rest =
      front ++ commentMark d comment ++ back ++ '\n' :: rest := by simp [commentLine]
  rw [hline]
  exact Scan.ofText_line hd hfront hback hmark rfl rfl

theorem text_commentItem :
    (commentItem d front comment back).text = commentLine d front comment back := by
  simp only [Item.text, commentItem, commentLine, List.nil_append, List.append_assoc]

/-- A comment says nothing. -/
theorem eqUpToSources_comment (d : Delimiters) (front comment back : Text) (next : Scan) :
    Outline.EqUpToSources (Outline.ofScan next)
      (Outline.ofScan (.tag (commentItem d front comment back) next)) :=
  .behind_text _ _

end Line

section Results

variable {state final : ParseState} {before front comment back after : Text} {tags tags' : List Tag}
  {d d' : Delimiters}

/-- Lines that no tag reaches out of are scanned by themselves, and what follows them is scanned
under the delimiters that are in effect behind them. -/
theorem ofText_of_not_across (hd : d.Solid) (hbefore : Line.endsLine before = true)
    (hfault : (Scan.flat d (before ++ after)).fault? = none)
    (hacross : ∀ p ∈ (Scan.flat d (before ++ after)).sites 0,
      p.stop ≤ Text.size before ∨ Text.size before ≤ p.start)
    (hplace : (Scan.flat d (before ++ after)).delimitersAt (Text.size before) 0 d = d') :
    d'.Solid ∧ (Scan.ofText true d before).fault? = none ∧
      ∀ rest, Scan.ofText true d (before ++ rest) =
        (Scan.ofText true d before).followedBy (Scan.ofText true d' rest) := by
  rw [← Nat.zero_add (Text.size before)] at hacross hplace
  obtain ⟨hflat, hfinal⟩ := Scan.flat_of_not_across hd hfault hacross
  rw [hplace] at hfinal
  have hfault' : (Scan.ofText true d before).fault? = none := (Scan.fault?_ofText hd).2 hflat
  refine ⟨hfinal ▸ Scan.solid_final hd, hfault', fun rest => ?_⟩
  rw [Scan.ofText_append hd hbefore (fun _ => rfl) hfault', Scan.final_ofText hd, hfinal]

/-- The sources of the sections that a text has with a line in it and without it, if the sections
only move. -/
theorem sources_of_moved {line : Text} (hd : d.Solid)
    (h : parseTags d (before ++ after) = .ok tags)
    (h' : parseTags d (before ++ line ++ after) = .ok tags')
    (hspans : (Scan.flat d (before ++ line ++ after)).spans =
      (Scan.flat d (before ++ after)).spans.map (Span.moved (Text.size before) (Text.size line))) :
    Tag.sourcesList tags' = (Scan.flat d (before ++ after)).spans.map
      (Span.textWith (Text.size before) line (before ++ after)) := by
  rw [sources_of_parseTags hd h', hspans, List.map_map]
  exact List.map_congr_left fun p hp => (span_holds_of_parseTags hd h p hp).moved.text_eq

/-- **A comment on a line of its own is invisible.** A text is parsed, and no tag reaches across a
place between two of its lines. With a comment on a line of its own at that place, written with the
delimiters in effect there, it is parsed to the same tree and leaves the same names, but the sources
of the sections that are open at the place, and of no others, have the line in them. So if none is
open then the tree is the same, and in any case it is rendered to the same without lambdas. -/
theorem parse_commentLine (hd : state.delimiters.Solid) (hbefore : Line.endsLine before = true)
    (hfront : front.all Text.isBlank = true) (hback : back.all Text.isBlank = true)
    (h : parse state (before ++ after) = .ok (tags, final))
    (hacross : ∀ p ∈ (Scan.flat state.delimiters (before ++ after)).sites 0,
      p.stop ≤ Text.size before ∨ Text.size before ≤ p.start)
    (hplace : (Scan.flat state.delimiters (before ++ after)).delimitersAt (Text.size before) 0
      state.delimiters = d)
    (hcomment : Text.Clear d.stop comment) :
    let line := commentLine d front comment back
    let spans := (Scan.flat state.delimiters (before ++ after)).spans
    ∃ tags', parse state (before ++ line ++ after) = .ok (tags', final) ∧
      Tag.withoutSourcesList tags' = Tag.withoutSourcesList tags ∧
      Tag.sourcesList tags = spans.map (Span.text (before ++ after)) ∧
      Tag.sourcesList tags' =
        spans.map (Span.textWith (Text.size before) line (before ++ after)) ∧
      ((∀ p ∈ spans, ¬ p.OpenAt (Text.size before)) → tags' = tags) ∧
      ∀ scope : Scope, scope.SameRendering tags tags' := by
  intro line spans
  obtain ⟨htags, rfl⟩ := parse_eq_ok_iff.1 h
  obtain ⟨hsound, hended⟩ := ended_of_parseTags htags
  have hflat : (Scan.flat state.delimiters (before ++ after)).fault? = none :=
    (Scan.fault?_ofText hd).1 hsound.fault?_eq_none
  obtain ⟨hsolid, hfault, hscan⟩ := ofText_of_not_across hd hbefore hflat hacross hplace
  have hline : Scan.ofText true state.delimiters (before ++ line ++ after) =
      (Scan.ofText true state.delimiters before).followedBy
        (.tag (commentItem d front comment back) (Scan.ofText true d after)) := by
    rw [List.append_assoc, hscan, ofText_commentLine hsolid hfront hback hcomment]
  -- The comment says nothing, so the tags are the same up to sources.
  have hnothing := eqUpToSources_comment d front comment back (Scan.ofText true d after)
  have houtlines := hnothing.followedBy (Scan.ofText true state.delimiters before)
  rw [← hscan, ← hline, hended] at houtlines
  obtain ⟨tags', source', hended', hsame⟩ := houtlines.eq_ended
  have htags' : parseTags state.delimiters (before ++ line ++ after) = .ok tags' :=
    Outline.complete_eq_ok_iff.2 ⟨source', hended'⟩
  have hnames : Tag.inclusionsList tags' = Tag.inclusionsList tags := by
    rw [← Tag.inclusionsList_withoutSources, ← hsame, Tag.inclusionsList_withoutSources]
  -- It takes no part in sections, so these only move.
  have hmarks : ∀ i ∈ (Scan.ofText true d after).items, i.mark ≠ [] :=
    Scan.mark_ne_nil_of_mem_items
  have hspans := Scan.spans_comment (i := commentItem d front comment back) hfault
    Scan.mark_ne_nil_of_mem_items hmarks rfl
  rw [← hline, ← hscan, text_commentItem, Scan.text_ofText hfault, Scan.spans, Scan.spans,
    Scan.sites_ofText hd, Scan.sites_ofText hd] at hspans
  have hsources := sources_of_parseTags hd htags
  have hsources' := sources_of_moved hd htags htags' hspans
  refine ⟨tags', parse_eq_ok_iff.2 ⟨htags', by rw [hnames]⟩, hsame.symm, hsources, hsources',
    fun hclosed => ?_, fun scope => Scope.sameRendering_of_withoutSources hsame⟩
  refine Tag.eq_of_sourcesList hsame.symm ?_
  rw [hsources', hsources]
  exact List.map_congr_left fun p hp => if_neg (hclosed p hp)

/-- A comment of two lines at the end of a section, in an inverted section in a section, behind a
change of the delimiters and in front of a section that is not open there. -/
theorem parse_commentLine_open :
    let before := "{{#a}}\n{{=<% %>=}}\n<%^b%>\nx\n<%#c%>\n".toList
    let after := "<%/c%>\ny<%/b%>\n<%#d%><%e%>\n<%/d%>\n<%/a%>\n".toList
    let d : Delimiters := ⟨"<%".toList, "%>".toList⟩
    let line := commentLine d ['\t'] "a\n<%#b%".toList [' ']
    ∃ tags tags', parse {} (before ++ after) = .ok (tags, {}) ∧
      parse {} (before ++ line ++ after) = .ok (tags', {}) ∧
      Tag.withoutSourcesList tags' = Tag.withoutSourcesList tags ∧
      Tag.sourcesList tags =
        ["\n{{=<% %>=}}\n<%^b%>\nx\n<%#c%>\n<%/c%>\ny<%/b%>\n<%#d%><%e%>\n<%/d%>\n".toList,
          "\n".toList, "<%e%>\n".toList] ∧
      Tag.sourcesList tags' =
        ["\n{{=<% %>=}}\n<%^b%>\nx\n<%#c%>\n".toList ++ line ++
            "<%/c%>\ny<%/b%>\n<%#d%><%e%>\n<%/d%>\n".toList,
          "\n".toList ++ line, "<%e%>\n".toList] := by
  intro before after d line
  let tags : List Tag := [.block ['a']
      "\n{{=<% %>=}}\n<%^b%>\nx\n<%#c%>\n<%/c%>\ny<%/b%>\n<%#d%><%e%>\n<%/d%>\n".toList {}
      [.inverted ['b'] [.literal "x\n".toList, .block ['c'] ['\n'] d [], .literal ['y']],
        .literal ['\n'], .block ['d'] "<%e%>\n".toList d [.escaped ['e'], .literal ['\n']]]]
  have hparse : parse {} (before ++ after) = .ok (tags, {}) := by decide +kernel
  have hfront : List.all ['\t'] Text.isBlank = true := by decide
  have hback : List.all [' '] Text.isBlank = true := by decide
  have hcomment : Text.Clear d.stop "a\n<%#b%".toList := by decide
  obtain ⟨tags', hparse', hsame, hsources, hsources', -⟩ :=
    parse_commentLine (by decide) (by decide) hfront hback hparse (by decide +kernel)
      (by decide +kernel : _ = d) hcomment
  exact ⟨tags, tags', hparse, hparse', hsame, hsources.trans (by decide +kernel),
    hsources'.trans (by decide +kernel)⟩

end Results

end Mustache
