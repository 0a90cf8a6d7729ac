import Mustache.Proofs.Agree
import Mustache.Proofs.Site

/-!
# What is left of a text

A tag tree is read in document order as a list of `Atom`s, the characters of its literals and the
tags between them. `Text.reading` takes the same list off the text itself, offset by offset: the
tag that begins there, and the character there unless some tag owns it. The two agree
(`parse_eq_reading`): the literals of a tree are all of the text but the tags and the lines that
tags stand alone on, and every literal has kept its place.

The tree is compared with the scan it is made from, item by item (`Outline.atoms?_ofScan`), and the
scan with the text (`Scan.reading_eq_atoms`), for which it is enough that the items end where the
parts do that the tags own.
-/

namespace Mustache

/-- A part of a template in document order. -/
inductive Atom
  /-- A character that stands for itself. -/
  | char (c : Char)
  /-- A tag; the end of a section counts as one. -/
  | tag (kind : Kind) (content : Text)
  deriving DecidableEq

/-- What is left of a tag in a tree: nothing of a comment or a delimiter change. -/
def Kind.atoms : Kind → Text → List Atom
  | .comment, _ | .change, _ => []
  | kind, content => [.tag kind content]

namespace Tag

mutual

/-- A tag in document order. -/
def atoms : Tag → List Atom
  | .literal t => t.map .char
  | .escaped key => [.tag .escaped key]
  | .raw key => [.tag .raw key]
  | .block key _ _ children => .tag .opening key :: (atomsList children ++ [.tag .closing key])
  | .inverted key children => .tag .inverted key :: (atomsList children ++ [.tag .closing key])
  | .inclusion name => [.tag .inclusion name]

/-- A list of tags in document order. -/
def atomsList : List Tag → List Atom
  | [] => []
  | t :: ts => atoms t ++ atomsList ts

end

/-- Text in front of tags comes first. -/
theorem atomsList_consLiteral {x : Text} {ts : List Tag} :
    atomsList (consLiteral x ts) = x.map .char ++ atomsList ts := by
  rcases literal_or_head ts with ⟨t, us, rfl⟩ | hhead
  · have hfront : consLiteral x (.literal t :: us) = .literal (x ++ t) :: us := rfl
    rw [hfront]
    simp only [atomsList, atoms, List.map_append, List.append_assoc]
  · rw [consLiteral_of_head hhead]
    split
    next hx => rw [hx]; rfl
    next => rfl

end Tag

/-! ## The tree and the scan -/

/-- An item in document order. -/
def Item.atoms (i : Item) : List Atom :=
  i.literal.map .char ++ i.kind.atoms i.content

/-- A scan in document order. -/
def Scan.atoms : Scan → List Atom
  | .tag i next => i.atoms ++ next.atoms
  | .done t => t.map .char
  | .faulty _ => []

namespace Outline

variable {o : Outline} {r : Text} {i : Item} {add : List Tag → List Tag} {as bs : List Atom}

/-- An outline in document order, if there is no fault in it. -/
def atoms? : Outline → Option (List Atom)
  | .ended tags _ => some (Tag.atomsList tags)
  | .closed tags _ close next =>
    next.atoms?.map fun as => Tag.atomsList tags ++ .tag .closing close.content :: as
  | .faulty _ => none

/-- Tags in front of an outline come first. -/
theorem atoms?_push (hadd : ∀ tags, Tag.atomsList (add tags) = as ++ Tag.atomsList tags) :
    (o.push r add).atoms? = o.atoms?.map (as ++ ·) := by
  cases o with
  | ended tags source => simp only [push, atoms?, hadd, Option.map_some]
  | closed tags source close next =>
    simp only [push, atoms?, hadd, Option.map_map]
    congr 1
    funext bs
    simp only [Function.comp_apply, List.append_assoc]
  | faulty => rfl

/-- An open tag in front of an outline, the children of its section and the close tag come in this
order. -/
theorem atoms?_consSection (hkind : i.kind = .opening ∨ i.kind = .inverted)
    (h : (o.consSection i).atoms? = some bs) : ∃ as, o.atoms? = some as ∧ bs = i.atoms ++ as := by
  cases o with
  | ended => cases h
  | faulty => cases h
  | closed children source close next =>
    simp only [consSection] at h
    split at h
    next hkey =>
      have hsection : Tag.atoms (sectionTag i (i.tail ++ source) children) =
          i.kind.atoms i.content ++ (Tag.atomsList children ++ [.tag .closing i.content]) := by
        rcases hkind with hkind | hkind
        · rw [sectionTag, if_neg (by simp [hkind]), hkind]
          rfl
        · rw [sectionTag, if_pos hkind, hkind]
          rfl
      have hadd : ∀ tags, Tag.atomsList (Tag.consLiteral i.literal
          (sectionTag i (i.tail ++ source) children :: tags)) =
            i.atoms ++ (Tag.atomsList children ++ [.tag .closing i.content]) ++
              Tag.atomsList tags := fun tags => by
        simp only [Tag.atomsList_consLiteral, Tag.atomsList, hsection, Item.atoms,
          List.append_assoc]
      rw [atoms?_push hadd] at h
      cases hnext : next.atoms? with
      | none => rw [hnext] at h; cases h
      | some as =>
        rw [hnext] at h
        cases h
        refine ⟨_, by rw [atoms?, hnext]; rfl, ?_⟩
        simp only [hkey, List.append_assoc, List.singleton_append]
    next => cases h

/-- An item in front of an outline comes first. -/
theorem atoms?_cons (h : (cons i o).atoms? = some bs) :
    ∃ as, o.atoms? = some as ∧ bs = i.atoms ++ as := by
  have hpush : ∀ add, (∀ tags, Tag.atomsList (add tags) = i.atoms ++ Tag.atomsList tags) →
      (o.push i.text add).atoms? = some bs → ∃ as, o.atoms? = some as ∧ bs = i.atoms ++ as := by
    intro add hadd h
    rw [atoms?_push hadd] at h
    obtain ⟨as, has, hbs⟩ := Option.map_eq_some_iff.1 h
    exact ⟨as, has, hbs.symm⟩
  unfold cons at h
  cases hkind : i.kind with
  | escaped | raw | inclusion =>
    rw [hkind] at h
    refine hpush _ (fun tags => ?_) h
    simp only [Tag.atomsList_consLiteral, Tag.atomsList, Tag.atoms, Item.atoms, hkind, Kind.atoms,
      List.append_assoc]
  | comment | change =>
    rw [hkind] at h
    refine hpush _ (fun tags => ?_) h
    simp only [Tag.atomsList_consLiteral, Item.atoms, hkind, Kind.atoms, List.append_nil]
  | closing =>
    rw [hkind] at h
    obtain ⟨as, has, hbs⟩ := Option.map_eq_some_iff.1 h
    refine ⟨as, has, ?_⟩
    rw [← hbs]
    simp only [Tag.atomsList_consLiteral, Tag.atomsList, Item.atoms, hkind, Kind.atoms,
      List.append_assoc, List.append_nil, List.singleton_append]
  | opening => rw [hkind] at h; exact atoms?_consSection (.inl hkind) h
  | inverted => rw [hkind] at h; exact atoms?_consSection (.inr hkind) h

/-- The outline of a scan has the atoms of the scan. -/
theorem atoms?_ofScan {s : Scan} (h : (ofScan s).atoms? = some as) :
    s.fault? = none ∧ as = s.atoms := by
  induction s generalizing as with
  | tag i next ih =>
    obtain ⟨bs, hbs, rfl⟩ := atoms?_cons h
    obtain ⟨hfault, rfl⟩ := ih hbs
    exact ⟨hfault, rfl⟩
  | done t =>
    have hatoms : some (Tag.atomsList (Tag.consLiteral t [])) = some as := h
    rw [Tag.atomsList_consLiteral, Option.some.injEq] at hatoms
    rw [Tag.atomsList, List.append_nil] at hatoms
    exact ⟨rfl, hatoms.symm⟩
  | faulty => cases h

end Outline

/-! ## The scan and the text -/

namespace Site

/-- The character at an offset vanishes with a tag. -/
def Gone (src : Text) (ps : List Site) (n : Nat) : Prop :=
  ∃ p ∈ ps, p.first src ≤ n ∧ n < p.last src

instance (src : Text) (ps : List Site) (n : Nat) : Decidable (Gone src ps n) :=
  List.decidableBEx _ ps

/-- What is left of the tags that begin at an offset. -/
def atomsAt (ps : List Site) (n : Nat) : List Atom :=
  (ps.filter fun p => p.start = n).flatMap fun p => p.kind.atoms p.content

variable {front back ps : List Site} {n : Nat}

theorem atomsAt_append : atomsAt (front ++ back) n = atomsAt front n ++ atomsAt back n := by
  rw [atomsAt, List.filter_append, List.flatMap_append, atomsAt, atomsAt]

theorem atomsAt_eq_nil (h : ∀ p ∈ ps, p.start ≠ n) : atomsAt ps n = [] := by
  have hfilter : ps.filter (fun p => p.start = n) = [] :=
    List.filter_eq_nil_iff.2 fun p hp => by simpa using h p hp
  rw [atomsAt, hfilter]
  rfl

end Site

namespace Text

/-- A part of the text `src` that begins at the offset `n`, read character by character: what is
left of the tags that begin there, and the character if it does not vanish. -/
def reading (src : Text) (ps : List Site) (n : Nat) : Text → List Atom
  | [] => []
  | c :: t =>
    Site.atomsAt ps n ++ (if Site.Gone src ps n then [] else [.char c]) ++
      reading src ps (n + c.utf8Size) t

variable {src a b t : Text} {ps : List Site} {n : Nat}

theorem reading_append : reading src ps n (a ++ b) =
    reading src ps n a ++ reading src ps (n + size a) b := by
  induction a generalizing n with
  | nil => rfl
  | cons c a ih =>
    rw [List.cons_append, reading, reading, ih, size_cons, Nat.add_assoc]
    simp only [List.append_assoc]

/-- A part in which no tag begins and nothing vanishes is left as it is. -/
theorem reading_kept (h : ∀ k, n ≤ k → k < n + size t →
    Site.atomsAt ps k = [] ∧ ¬ Site.Gone src ps k) : reading src ps n t = t.map .char := by
  induction t generalizing n with
  | nil => rfl
  | cons c t ih =>
    have hc : 0 < c.utf8Size := c.utf8Size_pos
    rw [size_cons] at h
    obtain ⟨hatoms, hgone⟩ := h n (by omega) (by omega)
    have hrest : reading src ps (n + c.utf8Size) t = t.map .char :=
      ih fun k hn hk => h k (by omega) (by omega)
    rw [reading, hatoms, if_neg hgone, hrest]
    rfl

/-- Nothing is left of a part in which no tag begins and everything vanishes. -/
theorem reading_gone (h : ∀ k, n ≤ k → k < n + size t →
    Site.atomsAt ps k = [] ∧ Site.Gone src ps k) : reading src ps n t = [] := by
  induction t generalizing n with
  | nil => rfl
  | cons c t ih =>
    have hc : 0 < c.utf8Size := c.utf8Size_pos
    rw [size_cons] at h
    obtain ⟨hatoms, hgone⟩ := h n (by omega) (by omega)
    have hrest : reading src ps (n + c.utf8Size) t = [] :=
      ih fun k hn hk => h k (by omega) (by omega)
    rw [reading, hatoms, if_pos hgone, hrest]
    rfl

end Text

namespace Scan

variable {src : Text} {s : Scan} {i : Item} {n k : Nat} {front back : List Site}

/-- The sites in front of an item, and those behind it, do not reach into it. -/
structure Around (src : Text) (i : Item) (n : Nat) (front back : List Site) : Prop where
  front : ∀ p ∈ front, p.start < n ∧ p.last src ≤ n
  back : ∀ p ∈ back, i.next n ≤ p.first src

/-- No tag begins inside an item but its own. -/
theorem Around.atomsAt (h : Around src i n front back) (hn : n ≤ k) (hk : k < i.next n) :
    Site.atomsAt (front ++ i.site n :: back) k =
      if i.start n = k then i.kind.atoms i.content else [] := by
  have hfront : Site.atomsAt front k = [] := Site.atomsAt_eq_nil fun p hp => by
    have := (h.front p hp).1
    omega
  have hback : Site.atomsAt back k = [] := Site.atomsAt_eq_nil fun p hp => by
    have hnext := h.back p hp
    have hstart : p.first src ≤ p.start := p.first_le_start
    omega
  have hcons : i.site n :: back = [i.site n] ++ back := rfl
  rw [hcons, Site.atomsAt_append, Site.atomsAt_append, hfront, hback, List.append_nil,
    List.nil_append]
  split
  next hstart => simp [Site.atomsAt, Item.site, hstart]
  next hstart =>
    refine Site.atomsAt_eq_nil fun p hp => ?_
    rw [List.mem_singleton.1 hp]
    exact hstart

/-- Nothing vanishes inside an item but what its tag owns. -/
theorem Around.gone_iff (h : Around src i n front back)
    (hfirst : (i.site n).first src = n + Text.size i.literal)
    (hlast : (i.site n).last src = i.next n) (hn : n ≤ k) (hk : k < i.next n) :
    Site.Gone src (front ++ i.site n :: back) k ↔ n + Text.size i.literal ≤ k := by
  constructor
  · rintro ⟨p, hp, hle, hlt⟩
    rcases List.mem_append.1 hp with hp | hp
    · have := (h.front p hp).2
      omega
    · rcases List.mem_cons.1 hp with rfl | hp
      · omega
      · have := h.back p hp
        omega
  · intro hle
    exact ⟨i.site n, List.mem_append_right _ (.head _), by omega, by omega⟩

/-- What is left of an item, among sites in front of it and sites behind it. -/
theorem reading_item (h : Around src i n front back)
    (hfirst : (i.site n).first src = n + Text.size i.literal)
    (hlast : (i.site n).last src = i.next n) (hmark : i.mark ≠ []) :
    Text.reading src (front ++ i.site n :: back) n i.text = i.atoms := by
  obtain ⟨c, m, hm⟩ : ∃ c m, i.mark = c :: m := List.exists_cons_of_ne_nil hmark
  have hc : 0 < c.utf8Size := c.utf8Size_pos
  have htext : i.text = i.literal ++ (i.indent ++ (c :: (m ++ i.tail))) := by
    simp only [Item.text, hm, List.append_assoc, List.cons_append]
  have hstart : i.start n = n + Text.size i.literal + Text.size i.indent := by
    simp only [Item.start, Item.before, Text.size_append, Nat.add_assoc]
  have hnext : i.next n = n + Text.size i.literal + Text.size i.indent + c.utf8Size +
      Text.size (m ++ i.tail) := by
    rw [Item.next, htext]
    simp only [Text.size_append, Text.size_cons, Nat.add_assoc]
  have hatoms : ∀ {k}, n ≤ k → k < i.next n → i.start n ≠ k →
      Site.atomsAt (front ++ i.site n :: back) k = [] := fun hn hk hne => by
    rw [h.atomsAt hn hk, if_neg hne]
  have hgone : ∀ {k}, n ≤ k → k < i.next n →
      (Site.Gone src (front ++ i.site n :: back) k ↔ n + Text.size i.literal ≤ k) :=
    fun hn hk => h.gone_iff hfirst hlast hn hk
  -- The literal is kept; from there on all vanishes, and the tag is met at its offset.
  have hliteral : Text.reading src (front ++ i.site n :: back) n i.literal =
      i.literal.map .char := by
    refine Text.reading_kept fun k hn hk => ⟨hatoms hn (by omega) (by omega), ?_⟩
    rw [hgone hn (by omega)]
    omega
  have hindent : Text.reading src (front ++ i.site n :: back) (n + Text.size i.literal)
      i.indent = [] := by
    refine Text.reading_gone fun k hn hk => ⟨hatoms (by omega) (by omega) (by omega), ?_⟩
    rw [hgone (by omega) (by omega)]
    omega
  have hrest : Text.reading src (front ++ i.site n :: back) (i.start n + c.utf8Size)
      (m ++ i.tail) = [] := by
    refine Text.reading_gone fun k hn hk => ⟨hatoms (by omega) (by omega) (by omega), ?_⟩
    rw [hgone (by omega) (by omega)]
    omega
  have hbegin : Site.atomsAt (front ++ i.site n :: back) (i.start n) =
      i.kind.atoms i.content := by
    rw [h.atomsAt (by omega) (by omega), if_pos rfl]
  have hgone' : Site.Gone src (front ++ i.site n :: back) (i.start n) :=
    (hgone (by omega) (by omega)).2 (by omega)
  rw [htext, Text.reading_append, Text.reading_append, hliteral, hindent, ← hstart, Text.reading,
    hbegin, if_pos hgone', hrest]
  simp only [Item.atoms, List.nil_append, List.append_nil]

/-- **A scan is what is left of its text,** if its items end where the parts of the text do that the
tags own. -/
theorem reading_eq_atoms (h : s.Exact src n) (hfault : s.fault? = none)
    (hfront : ∀ p ∈ front, p.start < n ∧ p.last src ≤ n) :
    Text.reading src (front ++ s.sites n) n s.text = s.atoms := by
  induction s generalizing n front with
  | tag i next ih =>
    obtain ⟨hfirst, hlast, hmark, hnext⟩ := h
    have hitem : Text.reading src (front ++ i.site n :: next.sites (i.next n)) n i.text =
        i.atoms := reading_item ⟨hfront, le_first_of_exact hnext⟩ hfirst hlast hmark
    have hfront' : ∀ p ∈ front ++ [i.site n], p.start < i.next n ∧ p.last src ≤ i.next n := by
      intro p hp
      rcases List.mem_append.1 hp with hp | hp
      · have hle : n ≤ i.next n := Nat.le_add_right ..
        obtain ⟨hstart, hend⟩ := hfront p hp
        exact ⟨Nat.lt_of_lt_of_le hstart hle, Nat.le_trans hend hle⟩
      · obtain rfl := List.mem_singleton.1 hp
        exact ⟨Item.start_lt_next hmark, Nat.le_of_eq hlast⟩
    have hrest := ih hnext hfault hfront'
    rw [List.append_assoc, List.singleton_append] at hrest
    rw [text, Text.reading_append, sites, hitem]
    exact congrArg _ hrest
  | done t =>
    refine Text.reading_kept fun k hn _ => ⟨Site.atomsAt_eq_nil fun p hp => ?_, ?_⟩
    · have := (hfront p (by simpa [sites] using hp)).1
      omega
    · rintro ⟨p, hp, -, hlt⟩
      have := (hfront p (by simpa [sites] using hp)).2
      omega
  | faulty => cases hfault

end Scan

section Results

variable {state final : ParseState} {src : Text} {tags : List Tag}

/-- **What is left of a text.** In document order a tag tree is its text without the tags of the
flat scan and the lines on which one of them stands alone, each tag at its place. No literal in it
is empty or next to another. No tag reaches into a line on which another stands alone, so that a
line with two tags on it is left as it is. -/
theorem parse_eq_reading (hd : state.delimiters.Solid) (h : parse state src = .ok (tags, final)) :
    Tag.atomsList tags =
        Text.reading src ((Scan.flat state.delimiters src).sites 0) 0 src ∧
      Tag.NormalList tags ∧
      ∀ p ∈ (Scan.flat state.delimiters src).sites 0,
        ∀ q ∈ (Scan.flat state.delimiters src).sites 0, p.Alone src → q ≠ p →
          q.stop ≤ p.first src ∨ p.last src ≤ q.start := by
  obtain ⟨htags, -⟩ := parse_eq_ok_iff.1 h
  obtain ⟨source, hended⟩ := Outline.complete_eq_ok_iff.1 htags
  have hatoms : (Outline.ofScan (Scan.ofText true state.delimiters src)).atoms? =
      some (Tag.atomsList tags) := by
    rw [hended]
    rfl
  obtain ⟨hfault, hscan⟩ := Outline.atoms?_ofScan hatoms
  have hexact : (Scan.ofText true state.delimiters src).Exact src 0 :=
    Scan.exact_ofText hd (.inr Line.begins_nil) (List.nil_append src).symm
  have hsites : (Scan.flat state.delimiters src).sites 0 =
      (Scan.ofText true state.delimiters src).sites 0 := by
    have huntrim : (Scan.ofText true state.delimiters src).untrim [] =
        Scan.flat state.delimiters src := Scan.untrim_ofText hd Text.white_nil
    rw [← huntrim, Scan.sites_untrim]
    rfl
  have hfront : ∀ p ∈ ([] : List Site), p.start < 0 ∧ p.last src ≤ 0 :=
    fun p hp => absurd hp List.not_mem_nil
  have hreading := Scan.reading_eq_atoms hexact hfault hfront
  rw [Scan.text_ofText hfault, List.nil_append] at hreading
  rw [hsites]
  refine ⟨hscan.trans hreading.symm, ?_, fun p hp q hq _ hne => ?_⟩
  · have hnormal := Outline.normal_ofScan (Scan.ofText true state.delimiters src)
    rw [hended] at hnormal
    exact hnormal
  · exact Scan.apart_of_exact hexact hp hq hne

/-- A comment over two lines that does not stand alone, in a section whose tags do. -/
theorem parse_eq_reading_lines :
    Text.reading " <%#a%>\r\n b <%! c\n %>\n  <%/a%> \n<%d%>".toList
        ((Scan.flat ⟨"<%".toList, "%>".toList⟩
          " <%#a%>\r\n b <%! c\n %>\n  <%/a%> \n<%d%>".toList).sites 0) 0
        " <%#a%>\r\n b <%! c\n %>\n  <%/a%> \n<%d%>".toList =
      [.tag .opening "a".toList, .char ' ', .char 'b', .char ' ', .char '\n',
        .tag .closing "a".toList, .tag .escaped "d".toList] := by
  have hparse : parse { delimiters := ⟨"<%".toList, "%>".toList⟩ }
        " <%#a%>\r\n b <%! c\n %>\n  <%/a%> \n<%d%>".toList =
      .ok ([.block "a".toList "\r\n b <%! c\n %>\n  ".toList ⟨"<%".toList, "%>".toList⟩
        [.literal " b \n".toList], .escaped "d".toList], {}) := by decide +kernel
  exact (parse_eq_reading (by decide) hparse).1.symm

end Results

end Mustache
