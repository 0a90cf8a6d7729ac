import Mustache.Proofs.Literal
import Mustache.Proofs.Site

/-!
# Printing

Tags are printed between the delimiters of a pair, their keys with a space on either side. For
solid delimiters a printed tag is a mark (`Delimiters.mark_write`), whatever the delimiters look
like: no stop delimiter begins in a padded key, because it would have to end in it. So the flat scan
of a printed tree can be read off the tree (`Scan.flat_printList`), as long as no start delimiter
begins in a literal, and so can the sites of its tags (`Scan.sites_scanList`).
-/

namespace Mustache

namespace Text

variable {p x t : Text} {c : Char}

/-- A text does not begin or end with white space. -/
def Trimmed (t : Text) : Prop :=
  (∀ c ∈ t.head?, isSpace c = false) ∧ ∀ c ∈ t.getLast?, isSpace c = false

instance (t : Text) : Decidable (Trimmed t) :=
  decidable_of_iff (t.head?.all (!isSpace ·) = true ∧ t.getLast?.all (!isSpace ·) = true)
    (by simp [Trimmed, Option.all_eq_true])

/-- White space at the end is trimmed. -/
theorem trimEnd_append_space (hc : isSpace c = true) : trimEnd (t ++ [c]) = trimEnd t := by
  induction t with
  | nil => simp [trimEnd, hc]
  | cons a t ih => rw [List.cons_append, trimEnd, trimEnd, ih]

/-- Nothing else is. -/
theorem trimEnd_append_of_not_space (hc : isSpace c = false) :
    trimEnd (t ++ [c]) = t ++ [c] := by
  induction t with
  | nil => simp [trimEnd, hc]
  | cons a t ih =>
    rw [List.cons_append, trimEnd, ih]
    cases t <;> rfl

/-- A text that is trimmed already is not trimmed further. -/
theorem trim_of_trimmed (hne : t ≠ []) (h : Trimmed t) : trim t = t := by
  obtain ⟨a, r, rfl⟩ : ∃ a r, t = a :: r := List.exists_cons_of_ne_nil hne
  have ha : isSpace a = false := h.1 a rfl
  obtain ⟨s, c, hs⟩ : ∃ s c, a :: r = s ++ [c] :=
    ⟨_, _, (List.dropLast_concat_getLast hne).symm⟩
  have hc : isSpace c = false := h.2 c (by rw [hs, List.getLast?_concat]; rfl)
  rw [trim, List.dropWhile_cons_of_neg (by rw [ha]; exact Bool.false_ne_true), hs,
    trimEnd_append_of_not_space hc]

/-- What is left of a text without the white space at its end is its front. -/
theorem isPrefix_trimEnd (t : Text) : trimEnd t <+: t := by
  induction t with
  | nil => exact List.prefix_rfl
  | cons c t ih =>
    rw [trimEnd_cons]
    split
    · exact List.nil_prefix
    · exact (List.prefix_cons_inj c).2 ih

/-- Trimming makes no text longer. -/
theorem length_trim_le (t : Text) : (trim t).length ≤ t.length :=
  Nat.le_trans (isPrefix_trimEnd _).length_le (List.dropWhile_suffix _).length_le

/-- White space at the end of a text is not left. -/
theorem isSpace_getLast?_trimEnd (t : Text) : ∀ c ∈ (trimEnd t).getLast?, isSpace c = false := by
  induction t with
  | nil => exact nofun
  | cons a t ih =>
    rw [trimEnd_cons]
    split
    next => exact nofun
    next hnot =>
      by_cases ht : trimEnd t = []
      · rw [ht]
        rintro _ ⟨⟩
        exact Bool.eq_false_iff.2 fun ha => hnot ⟨ht, ha⟩
      · rwa [List.getLast?_cons_of_ne_nil ht]

/-- What is trimmed does not begin or end with white space. -/
theorem trimmed_trim (t : Text) : Trimmed (trim t) := by
  refine ⟨fun c hc => ?_, isSpace_getLast?_trimEnd _⟩
  obtain ⟨r, hr⟩ := isPrefix_trimEnd (t.dropWhile isSpace)
  have hhead : (t.dropWhile isSpace).head? = some c := by
    have hfront : (trimEnd (t.dropWhile isSpace)).head? = some c := hc
    rw [← hr, List.head?_append, hfront, Option.some_or]
  have hnot := List.head?_dropWhile_not isSpace t
  rw [hhead] at hnot
  simpa using hnot

/-- Such a text comes back from between two spaces. -/
theorem trim_padded (hne : t ≠ []) (h : Trimmed t) : trim (' ' :: (t ++ [' '])) = t := by
  obtain ⟨a, r, rfl⟩ : ∃ a r, t = a :: r := List.exists_cons_of_ne_nil hne
  have ha : isSpace a = false := h.1 a rfl
  have hspace : isSpace ' ' = true := by decide
  have hstays : ∀ s : Text, (a :: s).dropWhile isSpace = a :: s := fun s =>
    List.dropWhile_cons_of_neg (by rw [ha]; exact Bool.false_ne_true)
  calc trim (' ' :: (a :: r ++ [' ']))
    _ = trimEnd (a :: r ++ [' ']) := by
      rw [trim, List.dropWhile_cons_of_pos hspace, List.cons_append, hstays]
    _ = trim (a :: r) := by rw [trimEnd_append_space hspace, trim, hstays]
    _ = a :: r := trim_of_trimmed hne h

end Text

namespace Delimiters

/-- A tag in print: a sigil or none, and a key between spaces. -/
def write (d : Delimiters) (sigil key : Text) : Text :=
  d.start ++ sigil ++ [' '] ++ key ++ [' '] ++ d.stop

/-- A text that can be the key of a printed tag. -/
structure Key (d : Delimiters) (key : Text) : Prop where
  ne_nil : key ≠ []
  trimmed : key.Trimmed
  free : ¬ d.stop <:+: key

variable {d : Delimiters} {key : Text}

instance : Decidable (d.Key key) :=
  decidable_of_iff (key ≠ [] ∧ key.Trimmed ∧ Text.cut? d.stop key = none)
    ⟨fun ⟨hne, htrim, hcut⟩ => ⟨hne, htrim, Text.cut?_eq_none_iff.1 hcut⟩,
      fun h => ⟨h.ne_nil, h.trimmed, Text.cut?_eq_none_iff.2 h.free⟩⟩

/-- The stop delimiter does not begin in a padded key. -/
theorem Key.clear (hd : d.Solid) (h : d.Key key) : Text.Clear d.stop (' ' :: (key ++ [' '])) := by
  have hwhite : Text.White [' '] := by decide
  have hkey : Text.Clear d.stop (key ++ [' ']) := Text.clear_of_not_infix hd.2 (by decide) h.free
  exact (Text.clear_append_iff hd.2 hwhite).2 hkey

/-- A tag that is printed without a sigil is the mark of an escaped value. -/
theorem mark_write_key (hd : d.Solid) (h : d.Key key) : Mark d (d.write [] key) .escaped key := by
  have htrim : Text.trim (' ' :: (key ++ [' '])) = key := Text.trim_padded h.ne_nil h.trimmed
  have hhead : ∀ c ∈ (' ' :: (key ++ [' '])).head?, Kind.ofSigil? c = none := by
    rintro c ⟨⟩
    rfl
  have hmark : Mark d _ .escaped _ := .key hhead (h.clear hd) (by rw [htrim]; exact h.ne_nil)
  rw [htrim] at hmark
  simpa [write] using hmark

/-- A tag that is printed with a sigil is a mark of the kind that the sigil announces. -/
theorem mark_write_sigil (hd : d.Solid) (h : d.Key key) {c : Char} {kind : Kind}
    (hc : Kind.ofSigil? c = some (kind, [])) : Mark d (d.write [c] key) kind key := by
  have htrim : Text.trim (' ' :: (key ++ [' '])) = key := Text.trim_padded h.ne_nil h.trimmed
  have hmark : Mark d _ kind _ := .sigil hc (h.clear hd) (by
    rw [htrim]
    exact fun hnil => absurd hnil h.ne_nil)
  rw [htrim] at hmark
  simpa [write] using hmark

end Delimiters

namespace Tag

variable (d : Delimiters)

mutual

/-- A tag in print. -/
def print : Tag → Text
  | .literal t => t
  | .escaped key => d.write [] key
  | .raw key => d.write ['&'] key
  | .block key _ _ children => d.write ['#'] key ++ printList children ++ d.write ['/'] key
  | .inverted key children => d.write ['^'] key ++ printList children ++ d.write ['/'] key
  | .inclusion name => d.write ['>'] name

/-- Tags in print. -/
def printList : List Tag → Text
  | [] => []
  | t :: ts => print t ++ printList ts

end

mutual

/-- A tag can be told from its print: no start delimiter begins in a literal, the keys can be
printed, and the sections keep what is printed for their children. -/
def Printable : Tag → Prop
  | .literal t => Text.Clear d.start t
  | .escaped key | .raw key | .inclusion key => d.Key key
  | .block key source d' children =>
    d.Key key ∧ d' = d ∧ source = printList d children ∧ PrintableList children
  | .inverted key children => d.Key key ∧ PrintableList children

/-- Tags can be told from their print. -/
def PrintableList : List Tag → Prop
  | [] => True
  | t :: ts => Printable t ∧ PrintableList ts

end

mutual

/-- The sites of the tags in a tag that is printed at an offset. -/
def sites (n : Nat) : Tag → List Site
  | .literal _ => []
  | .escaped key => [⟨.escaped, key, n, n + Text.size (d.write [] key)⟩]
  | .raw key => [⟨.raw, key, n, n + Text.size (d.write ['&'] key)⟩]
  | .inclusion name => [⟨.inclusion, name, n, n + Text.size (d.write ['>'] name)⟩]
  | .block key _ _ children =>
    let inner := n + Text.size (d.write ['#'] key)
    let close := inner + Text.size (printList d children)
    ⟨.opening, key, n, inner⟩ :: (sitesList inner children ++
      [⟨.closing, key, close, close + Text.size (d.write ['/'] key)⟩])
  | .inverted key children =>
    let inner := n + Text.size (d.write ['^'] key)
    let close := inner + Text.size (printList d children)
    ⟨.inverted, key, n, inner⟩ :: (sitesList inner children ++
      [⟨.closing, key, close, close + Text.size (d.write ['/'] key)⟩])

/-- The sites of the tags in tags that are printed at an offset. -/
def sitesList (n : Nat) : List Tag → List Site
  | [] => []
  | t :: ts => sites n t ++ sitesList (n + Text.size (print d t)) ts

end

end Tag

/-- The item of a printed tag. -/
def Item.written (d : Delimiters) (sigil : Text) (kind : Kind) (key : Text) : Item :=
  ⟨[], [], d.write sigil key, [], kind, key, d⟩

namespace Scan

/-- Moves a scan behind a text. -/
def behind (x : Text) : Scan → Scan
  | .tag i next => .tag { i with literal := x ++ i.literal } next
  | .done t => .done (x ++ t)
  | .faulty fault => .faulty (fault.behind x)

variable (d : Delimiters)

mutual

/-- The scan of a tag in print, in front of a scan. -/
def ofTag (s : Scan) : Tag → Scan
  | .literal t => s.behind t
  | .escaped key => .tag (.written d [] .escaped key) s
  | .raw key => .tag (.written d ['&'] .raw key) s
  | .inclusion name => .tag (.written d ['>'] .inclusion name) s
  | .block key _ _ children =>
    .tag (.written d ['#'] .opening key)
      (ofTags (.tag (.written d ['/'] .closing key) s) children)
  | .inverted key children =>
    .tag (.written d ['^'] .inverted key)
      (ofTags (.tag (.written d ['/'] .closing key) s) children)

/-- The scan of tags in print, in front of a scan. -/
def ofTags (s : Scan) : List Tag → Scan
  | [] => s
  | t :: ts => ofTag (ofTags s ts) t

end

variable {d} {x rest : Text} {s : Scan} {n : Nat} {t : Tag} {ts : List Tag}

/-- A mark at the beginning of a text is its first item. -/
theorem flat_write {sigil key : Text} {kind : Kind}
    (h : Mark d (d.write sigil key) kind key) (hkind : kind ≠ .change) :
    flat d (d.write sigil key ++ rest) = .tag (.written d sigil kind key) (flat d rest) := by
  have hnext : Expression.next? d (d.write sigil key ++ rest) =
      .ok (some ⟨[], d.write sigil key, kind, key, rest⟩) :=
    Expression.next?_eq_some_iff.2 ⟨Text.clear_nil _, h, rfl⟩
  have hafter : (Item.ofFlat d ⟨[], d.write sigil key, kind, key, rest⟩).after? = some d :=
    if_neg hkind
  rw [flat_of_some hnext, hafter]
  rfl

/-- Text that no start delimiter begins in stands in front of the first item. -/
theorem flat_clear (hd : d.Solid) (hx : Text.Clear d.start x)
    (hrest : rest = [] ∨ d.start <+: rest) : flat d (x ++ rest) = (flat d rest).behind x := by
  have happ := Expression.next?_append (Text.passes_clear hd.1.1 hx hrest)
  cases hnext : Expression.next? d rest with
  | error fault =>
    rw [hnext] at happ
    rw [flat_of_error hnext, flat_of_error happ]
    rfl
  | ok found =>
    rw [hnext] at happ
    cases found with
    | none =>
      rw [flat_of_none hnext, flat_of_none happ]
      rfl
    | some e =>
      have hafter : (Item.ofFlat d (e.behind x)).after? = (Item.ofFlat d e).after? := rfl
      rw [flat_of_some hnext, flat_of_some happ, hafter]
      cases (Item.ofFlat d e).after? with
      | none =>
        simp only [Expression.behind, behind, Fault.behind, List.append_assoc]
      | some d' => rfl

/-- A printed tag begins with a start delimiter. -/
theorem begins_write {sigil key : Text} : d.start <+: d.write sigil key ++ rest := by
  simp only [Delimiters.write, List.append_assoc]
  exact List.prefix_append _ _

/-- Tags that do not begin with a literal begin with a start delimiter in print. -/
theorem begins_printList (hhead : ∀ u ∈ ts.head?, u.isLiteral = false)
    (hrest : rest = [] ∨ d.start <+: rest) :
    Tag.printList d ts ++ rest = [] ∨ d.start <+: Tag.printList d ts ++ rest := by
  cases ts with
  | nil => exact hrest
  | cons t ts =>
    right
    have ht : t.isLiteral = false := hhead t rfl
    cases t with
    | literal => cases ht
    | _ => simp only [Tag.printList, Tag.print, List.append_assoc]; exact begins_write

/-- A delimiter change is announced by a sigil that stands at the end of the tag too. -/
theorem ne_change_of_ofSigil? {c : Char} {kind : Kind} (h : Kind.ofSigil? c = some (kind, [])) :
    kind ≠ .change := by
  rintro rfl
  unfold Kind.ofSigil? at h
  split at h <;> cases h

/-- An open tag, what stands behind it, and the close tag. -/
theorem flat_section (hd : d.Solid) {key inner : Text} (hkey : d.Key key) {c : Char} {kind : Kind}
    (hc : Kind.ofSigil? c = some (kind, [])) {f : Scan → Scan}
    (hinner : ∀ rest, d.start <+: rest → flat d (inner ++ rest) = f (flat d rest)) :
    flat d (d.write [c] key ++ inner ++ d.write ['/'] key ++ rest) =
      .tag (.written d [c] kind key) (f (.tag (.written d ['/'] .closing key) (flat d rest))) := by
  have hopen : Mark d (d.write [c] key) kind key := d.mark_write_sigil hd hkey hc
  have hclose : Mark d (d.write ['/'] key) .closing key := d.mark_write_sigil hd hkey rfl
  rw [List.append_assoc, List.append_assoc, flat_write hopen (ne_change_of_ofSigil? hc),
    hinner _ begins_write, flat_write hclose nofun]

mutual

/-- The flat scan of a printed tag and what follows it. -/
theorem flat_print (hd : d.Solid) : ∀ (t : Tag) (rest : Text), t.Normal → t.Printable d →
    (t.isLiteral = true → rest = [] ∨ d.start <+: rest) →
    flat d (t.print d ++ rest) = ofTag d (flat d rest) t
  | .literal _, _, _, h, hrest => flat_clear hd h (hrest rfl)
  | .escaped _, _, _, h, _ => flat_write (d.mark_write_key hd h) nofun
  | .raw _, _, _, h, _ => flat_write (d.mark_write_sigil hd h rfl) nofun
  | .inclusion _, _, _, h, _ => flat_write (d.mark_write_sigil hd h rfl) nofun
  | .block _ _ _ children, _, hn, ⟨hkey, _, _, hchildren⟩, _ =>
    flat_section (f := fun s => ofTags d s children) hd hkey rfl fun rest hrest =>
      flat_printList hd children rest hn hchildren (.inr hrest)
  | .inverted _ children, _, hn, ⟨hkey, hchildren⟩, _ =>
    flat_section (f := fun s => ofTags d s children) hd hkey rfl fun rest hrest =>
      flat_printList hd children rest hn hchildren (.inr hrest)

/-- The flat scan of printed tags and what follows them. -/
theorem flat_printList (hd : d.Solid) : ∀ (ts : List Tag) (rest : Text), Tag.NormalList ts →
    Tag.PrintableList d ts → (rest = [] ∨ d.start <+: rest) →
    flat d (Tag.printList d ts ++ rest) = ofTags d (flat d rest) ts
  | [], _, _, _, _ => rfl
  | t :: ts, rest, ⟨ht, hhead, hts⟩, ⟨hprint, hprints⟩, hrest => by
    have hnext : t.isLiteral = true →
        Tag.printList d ts ++ rest = [] ∨ d.start <+: Tag.printList d ts ++ rest := fun hlit =>
      begins_printList (hhead hlit) hrest
    rw [Tag.printList, List.append_assoc, flat_print hd t _ ht hprint hnext,
      flat_printList hd ts rest hts hprints hrest, ofTags]

end

/-! ## Sites in print -/

/-- The sites of a scan move with it. -/
theorem sites_behind : (s.behind x).sites n = s.sites (n + Text.size x) := by
  cases s with
  | tag i next =>
    simp only [behind, sites, Item.site, Item.start, Item.stop, Item.next, Item.text,
      Item.before, Text.size_append, Nat.add_assoc]
  | done | faulty => rfl

/-- The site of a printed tag. -/
theorem sites_written {sigil key : Text} {kind : Kind} :
    sites n (.tag (.written d sigil kind key) s) =
      ⟨kind, key, n, n + Text.size (d.write sigil key)⟩ ::
        s.sites (n + Text.size (d.write sigil key)) := by
  simp only [sites, Item.site, Item.start, Item.stop, Item.next, Item.text, Item.before,
    Item.written, List.append_nil, List.nil_append, Text.size_nil, Nat.add_zero]

mutual

/-- The scan of a tag in print has the sites of the printed tag. -/
theorem sites_ofTag : ∀ (t : Tag) (s : Scan) (n : Nat), (ofTag d s t).sites n =
    t.sites d n ++ s.sites (n + Text.size (t.print d))
  | .literal _, _, _ => sites_behind
  | .escaped _, _, _ => sites_written
  | .raw _, _, _ => sites_written
  | .inclusion _, _, _ => sites_written
  | .block _ _ _ children, _, _ => by
    simp only [ofTag, sites_written, sites_ofTags children, Tag.sites, Tag.print,
      Text.size_append, List.cons_append, List.append_assoc, List.nil_append, Nat.add_assoc]
  | .inverted _ children, _, _ => by
    simp only [ofTag, sites_written, sites_ofTags children, Tag.sites, Tag.print,
      Text.size_append, List.cons_append, List.append_assoc, List.nil_append, Nat.add_assoc]

/-- The scan of tags in print has the sites of the printed tags. -/
theorem sites_ofTags : ∀ (ts : List Tag) (s : Scan) (n : Nat), (ofTags d s ts).sites n =
    Tag.sitesList d n ts ++ s.sites (n + Text.size (Tag.printList d ts))
  | [], _, _ => rfl
  | t :: ts, _, _ => by
    rw [ofTags, sites_ofTag t, sites_ofTags ts, Tag.sitesList, Tag.printList, Text.size_append,
      List.append_assoc, Nat.add_assoc]

end

end Scan

end Mustache
