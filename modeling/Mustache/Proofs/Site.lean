import Mustache.Proofs.WholeLine

/-!
# The sites of tags

A `Site` is where a tag stands in a text, and it owns a part of the text: its tag, and the rest of
its lines if it stands alone on them (`Site.first`, `Site.last`). The scanner cuts the text at
just these offsets (`Scan.exact_ofText`). Since it goes on from one to the next, the parts are in
order and do not meet (`Scan.sorted_sites`), although each is told from whole lines of the text,
without regard to the other tags.
-/

namespace Mustache

/-- Where a tag stands in a text. -/
structure Site where
  kind : Kind
  content : Text
  /-- The offset of the tag. -/
  start : Nat
  /-- The offset just past the tag. -/
  stop : Nat
  deriving DecidableEq

namespace Site

/-- There is nothing but blanks beside a tag on its line or lines, and its kind may vanish. -/
def Alone (src : Text) (p : Site) : Prop :=
  p.kind.Alone (Text.takeBytes p.start src) (Text.dropBytes p.stop src)

instance (src : Text) (p : Site) : Decidable (p.Alone src) :=
  inferInstanceAs (Decidable (Kind.Alone ..))

/-- The offset from which on text vanishes with a tag: the beginning of its line if it stands
alone. -/
def first (src : Text) (p : Site) : Nat :=
  if p.Alone src then p.start - Text.size (Text.lastLine (Text.takeBytes p.start src)) else p.start

/-- The offset up to which text vanishes with a tag: the beginning of the next line if it stands
alone. -/
def last (src : Text) (p : Site) : Nat :=
  if p.Alone src then p.stop + Text.size (Text.lineEnd (Text.dropBytes p.stop src)) else p.stop

variable {src : Text} {p : Site}

theorem first_le_start : p.first src ≤ p.start := by
  unfold first
  split <;> omega

theorem stop_le_last : p.stop ≤ p.last src := by
  unfold last
  split <;> omega

end Site

/-- The site of the tag of an item that begins at `first`. -/
def Item.site (i : Item) (first : Nat) : Site :=
  ⟨i.kind, i.content, i.start first, i.stop first⟩

namespace Item

variable {fresh : Bool} {d : Delimiters} {e : Expression} {read src : Text}

/-- What vanishes around a tag does not move it. -/
theorem site_ofExpression (n : Nat) :
    (ofExpression fresh d e).1.site n = (ofFlat d e).site n := by
  obtain ⟨literal, indent, tail, rest, hitem, hlead, -⟩ := ofExpression_spec fresh d e
  rw [hitem]
  simp only [site, start, stop, before, ofFlat, hlead, List.append_nil]

/-- The text in front of a tag and the text behind it. -/
theorem cut_site (hsrc : src = read ++ (e.lead ++ e.mark ++ e.rest)) :
    Text.takeBytes ((ofFlat d e).site (Text.size read)).start src = read ++ e.lead ∧
      Text.dropBytes ((ofFlat d e).site (Text.size read)).stop src = e.rest := by
  have hstart : ((ofFlat d e).site (Text.size read)).start = Text.size (read ++ e.lead) := by
    simp only [site, start, before, ofFlat, List.append_nil, Text.size_append]
  have hstop : ((ofFlat d e).site (Text.size read)).stop =
      Text.size (read ++ (e.lead ++ e.mark)) := by
    simp only [site, stop, before, ofFlat, List.append_nil, Text.size_append]
  constructor
  · rw [hstart, hsrc, List.append_assoc e.lead, ← List.append_assoc read, Text.takeBytes_size]
  · rw [hstop, hsrc, ← List.append_assoc read (e.lead ++ e.mark), Text.dropBytes_size]

/-- A tag stands alone in the whole text if it stands alone between these two. -/
theorem alone_site_iff (hsrc : src = read ++ (e.lead ++ e.mark ++ e.rest)) :
    ((ofFlat d e).site (Text.size read)).Alone src ↔ e.kind.Alone (read ++ e.lead) e.rest := by
  obtain ⟨hfront, hback⟩ := cut_site (d := d) hsrc
  rw [Site.Alone, hfront, hback]
  rfl

/-- The tag of an expression owns what the scanner takes for it: the text from the end of its
literal to the end of its item. -/
theorem owns_ofExpression (h : Line.Begins fresh read)
    (hsrc : src = read ++ (e.lead ++ e.mark ++ e.rest)) :
    ((ofExpression fresh d e).1.site (Text.size read)).first src =
        Text.size read + Text.size (ofExpression fresh d e).1.literal ∧
      ((ofExpression fresh d e).1.site (Text.size read)).last src =
        (ofExpression fresh d e).1.next (Text.size read) := by
  obtain ⟨hfront, hback⟩ := cut_site (d := d) hsrc
  have hiff := alone_site_iff (d := d) hsrc
  rw [site_ofExpression]
  by_cases halone : e.kind.Alone (read ++ e.lead) e.rest
  · obtain ⟨hindent, htail⟩ := ofExpression_of_alone (d := d) h halone
    obtain ⟨literal, indent, tail, rest, hitem, hlead, -⟩ := ofExpression_spec fresh d e
    rw [Site.first, Site.last, if_pos (hiff.2 halone), if_pos (hiff.2 halone), hfront, hback,
      ← hindent, ← htail, hitem]
    simp only [site, start, stop, next, text, before, ofFlat, hlead, Text.size_append,
      Text.size_nil]
    omega
  · rw [Site.first, Site.last, if_neg (mt hiff.1 halone), if_neg (mt hiff.1 halone),
      ofExpression_of_not_alone h halone]
    simp only [site, start, stop, next, text, before, ofFlat, List.append_nil, and_self]

end Item

namespace Scan

/-- The sites of the tags of a scan that begins at an offset. -/
def sites (first : Nat) : Scan → List Site
  | .tag i next => i.site first :: next.sites (i.next first)
  | .done _ | .faulty _ => []

/-- Every item of a scan of a text ends where the part of the text does that its tag owns, and
its literal where that part begins. -/
def Exact (src : Text) (first : Nat) : Scan → Prop
  | .tag i next =>
    (i.site first).first src = first + Text.size i.literal ∧
      (i.site first).last src = i.next first ∧ i.mark ≠ [] ∧ next.Exact src (i.next first)
  | .done _ | .faulty _ => True

variable {src read text w : Text} {fresh : Bool} {d : Delimiters} {s : Scan} {n : Nat}

/-- What vanishes is given back without moving a tag. -/
theorem sites_untrim (s : Scan) (w : Text) (n : Nat) :
    (s.untrim w).sites n = s.sites (n + Text.size w) := by
  induction s generalizing w n with
  | tag i next ih =>
    have hsite : (i.untrim w).site n = i.site (n + Text.size w) := by
      simp only [Item.site, Item.untrim, Item.start, Item.stop, Item.before, Text.size_append,
        List.append_nil, Nat.add_assoc]
    have hnext : (i.untrim w).next n + Text.size i.tail = i.next (n + Text.size w) := by
      simp only [Item.untrim, Item.next, Item.text, Item.before, Text.size_append, Text.size_nil]
      omega
    rw [untrim, sites, sites, ih, hsite, hnext]
  | done | faulty => rfl

/-- The scanner knows at every item whether a line begins there. -/
theorem begins_step {d' : Delimiters} {e : Expression} (hd : d.Solid)
    (hnext : Expression.next? d text = .ok (some e))
    (hafter : (Item.ofExpression fresh d e).1.after? = some d')
    (h : text = [] ∨ Line.Begins fresh read) :
    Line.Begins fresh read ∧ d'.Solid ∧ ((Item.ofExpression fresh d e).2 = [] ∨
      Line.Begins
        (Line.endsLine ((Item.ofExpression fresh d e).1.mark ++
          (Item.ofExpression fresh d e).1.tail))
        (read ++ (Item.ofExpression fresh d e).1.text)) := by
  obtain ⟨-, hmark, htext⟩ := Expression.next?_eq_some_iff.1 hnext
  have hbegins : Line.Begins fresh read := by
    refine h.resolve_left fun hnil => Expression.mark_ne_nil hnext ?_
    rw [hnil] at htext
    exact (List.append_eq_nil_iff.1 (List.append_eq_nil_iff.1 htext.symm).1).2
  have hsolid : (Item.ofExpression fresh d e).1.delimiters.Solid := by
    rw [Item.delimiters_ofExpression]
    exact hd
  exact ⟨hbegins, Item.solid_of_after? hsolid hafter,
    Item.begins_ofExpression hd hmark.ends hbegins⟩

/-- The text behind an item follows it in the whole text. -/
theorem src_step {e : Expression} (hnext : Expression.next? d text = .ok (some e))
    (hsrc : src = read ++ text) : src = read ++ (Item.ofExpression fresh d e).1.text ++
      (Item.ofExpression fresh d e).2 := by
  rw [hsrc, List.append_assoc, Item.text_ofExpression, ← Expression.eq_of_next? hnext]

/-- The scanner lets vanish what whole lines of the text say. -/
theorem exact_ofText (hd : d.Solid) (h : text = [] ∨ Line.Begins fresh read)
    (hsrc : src = read ++ text) : (ofText fresh d text).Exact src (Text.size read) := by
  revert read
  fun_induction ofText fresh d text with
  | case1 | case2 | case3 => intros; trivial
  | case4 fresh d text e hnext item d' hafter =>
    rename_i ih
    intro read h hsrc
    obtain ⟨hbegins, hd', hbegins'⟩ := begins_step hd hnext hafter h
    have hfull : src = read ++ (e.lead ++ e.mark ++ e.rest) := by
      rw [hsrc, ← Expression.eq_of_next? hnext]
    obtain ⟨hfirst, hlast⟩ := Item.owns_ofExpression (d := d) hbegins hfull
    have hmark : item.mark ≠ [] := by
      obtain ⟨literal, indent, tail, rest, hspec, -⟩ := Item.ofExpression_spec fresh d e
      simpa only [item, hspec] using Expression.mark_ne_nil hnext
    have hoffset : item.next (Text.size read) = Text.size (read ++ item.text) := by
      rw [Item.next, Text.size_append]
    refine ⟨hfirst, hlast, hmark, ?_⟩
    rw [hoffset]
    exact ih hd' hbegins' (src_step hnext hsrc)

/-- If no tag stands alone, no line vanishes. -/
theorem ofText_eq_flat (hd : d.Solid) (h : text = [] ∨ Line.Begins fresh read)
    (hsrc : src = read ++ text)
    (hnot : ∀ p ∈ (flat d text).sites (Text.size read), ¬ p.Alone src) :
    ofText fresh d text = flat d text := by
  revert read
  fun_induction ofText fresh d text with
  | case1 fresh d text fault hnext => intros; exact (flat_of_error hnext).symm
  | case2 fresh d text hnext => intros; exact (flat_of_none hnext).symm
  | case3 fresh d text e hnext item =>
    rename_i hafter
    intro read h hsrc hnot
    obtain ⟨literal, indent, tail, rest, hspec, hlead, -⟩ := Item.ofExpression_spec fresh d e
    rw [flat_of_some hnext, ← Item.after?_ofExpression fresh, hafter]
    simp only [item, hspec, Item.before, hlead]
  | case4 fresh d text e hnext item d' hafter =>
    rename_i ih
    intro read h hsrc hnot
    obtain ⟨hbegins, hd', hbegins'⟩ := begins_step hd hnext hafter h
    have hfull : src = read ++ (e.lead ++ e.mark ++ e.rest) := by
      rw [hsrc, ← Expression.eq_of_next? hnext]
    have hflat : flat d text = .tag (Item.ofFlat d e) (flat d' e.rest) := by
      rw [flat_of_some hnext, ← Item.after?_ofExpression fresh, hafter]
    rw [hflat] at hnot ⊢
    have hsame : Item.ofExpression fresh d e = (Item.ofFlat d e, e.rest) :=
      Item.ofExpression_of_not_alone hbegins
        (mt (Item.alone_site_iff hfull).2 (hnot _ (.head _)))
    have hitem : item = Item.ofFlat d e := congrArg Prod.fst hsame
    have hrest : (Item.ofExpression fresh d e).2 = e.rest := congrArg Prod.snd hsame
    have hnot' : ∀ p ∈ (flat d' (Item.ofExpression fresh d e).2).sites
        (Text.size (read ++ item.text)), ¬ p.Alone src := by
      rw [hrest, hitem, Text.size_append]
      exact fun p hp => hnot p (.tail _ hp)
    rw [ih hd' hbegins' (src_step hnext hsrc) hnot', hrest, hitem]

/-- The tags of a scan own text behind its beginning. -/
theorem le_first_of_exact (h : s.Exact src n) : ∀ p ∈ s.sites n, n ≤ p.first src := by
  induction s generalizing n with
  | tag i next ih =>
    obtain ⟨hfirst, hlast, -, hnext⟩ := h
    intro p hp
    rcases List.mem_cons.1 hp with rfl | hp
    · omega
    · have := ih hnext p hp
      have : n ≤ i.next n := Nat.le_add_right ..
      omega
  | done | faulty => exact fun p hp => absurd hp List.not_mem_nil

/-- The tags of a scan own parts of the text that are in order and do not meet. -/
theorem sorted_sites (h : s.Exact src n) :
    (s.sites n).Pairwise fun p q => p.last src ≤ q.first src := by
  induction s generalizing n with
  | tag i next ih =>
    obtain ⟨-, hlast, -, hnext⟩ := h
    refine .cons (fun q hq => ?_) (ih hnext)
    rw [hlast]
    exact le_first_of_exact hnext q hq
  | done | faulty => exact .nil

/-- No tag reaches into what another tag owns. -/
theorem apart_of_exact (h : s.Exact src n) {p q : Site} (hp : p ∈ s.sites n)
    (hq : q ∈ s.sites n) (hne : q ≠ p) : q.stop ≤ p.first src ∨ p.last src ≤ q.start := by
  -- Of two sites in a list one comes first.
  have hor : p.last src ≤ q.first src ∨ q.last src ≤ p.first src := by
    have hsorted := sorted_sites h
    refine List.Pairwise.forall_of_forall_of_flip
      (R := fun p q => q ≠ p → p.last src ≤ q.first src ∨ q.last src ≤ p.first src)
      (fun r _ hr => absurd rfl hr) ?_ ?_ hp hq hne
    · exact hsorted.imp fun hle _ => .inl hle
    · exact hsorted.imp fun hle _ => .inr hle
  have hfirst : q.first src ≤ q.start := q.first_le_start
  have hlast : q.stop ≤ q.last src := q.stop_le_last
  rcases hor with hor | hor
  · exact .inr (Nat.le_trans hor hfirst)
  · exact .inl (Nat.le_trans hlast hor)

end Scan

end Mustache
