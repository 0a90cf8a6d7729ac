import Mustache.Proofs.Agree
import Mustache.Proofs.Printing

/-!
# Parsing undoes printing

The outline of the scan of printed tags is the outline of what follows, with the tags put in front
(`Outline.eqUpToCloses_ofTags`); only the text in front of a close tag is told twice in an outline,
and not always the same (`Outline.EqUpToCloses`). Literals that are not empty and not neighbours
come back as they are (`Tag.joinList_nil`), and if no tag of the printed text stands alone on its
line, its scan is the flat one. So a printed tree is parsed to itself (`parse_print`).
-/

namespace Mustache

namespace Tag

/-- Puts a tag in front of tags; text becomes part of a literal in front. -/
def join : Tag → List Tag → List Tag
  | .literal t, ts => consLiteral t ts
  | t, ts => t :: ts

/-- Puts tags in front of tags. -/
def joinList (ts us : List Tag) : List Tag :=
  ts.foldr join us

variable {t : Tag} {ts us : List Tag} {x y : Text}

/-- Text is put in front of tags piece by piece or at once. -/
theorem consLiteral_append : consLiteral (x ++ y) ts = consLiteral x (consLiteral y ts) := by
  rcases literal_or_head ts with ⟨t, us, rfl⟩ | hhead
  · simp only [consLiteral, List.append_assoc]
  · rw [consLiteral_of_head hhead, consLiteral_of_head hhead]
    by_cases hy : y = []
    · rw [hy, List.append_nil, if_pos rfl, consLiteral_of_head hhead]
    · have hxy : x ++ y ≠ [] := fun h => hy (List.append_eq_nil_iff.1 h).2
      rw [if_neg hxy, if_neg hy]
      rfl

/-- No text in front of tags leaves them as they are. -/
theorem consLiteral_nil (ts : List Tag) : consLiteral [] ts = ts := by
  rcases ts with _ | ⟨_ | _, _⟩ <;> rfl

/-- Normal tags come back as they are. -/
theorem joinList_nil (h : NormalList ts) : joinList ts [] = ts := by
  induction ts with
  | nil => rfl
  | cons t ts ih =>
    obtain ⟨ht, hnext, hts⟩ := h
    have hrest : joinList (t :: ts) [] = join t (joinList ts []) := rfl
    rw [hrest, ih hts]
    cases t with
    | literal x => rw [join, consLiteral_of_head (hnext rfl), if_neg ht]
    | _ => rfl

end Tag

namespace Outline

variable {o o' : Outline} {d : Delimiters} {r r' x key : Text} {add add' : List Tag → List Tag}
  {kind : Kind} {s : Scan} {i : Item}

/-- Texts and tags are put in front one after another or at once. -/
theorem push_push : (o.push r add).push r' add' = o.push (r' ++ r) (add' ∘ add) := by
  cases o <;> simp only [push, List.append_assoc, Function.comp_apply]

/-- Two outlines are the same but for the texts in front of the close tags, which belong to the
parts that end there. -/
inductive EqUpToCloses : Outline → Outline → Prop
  | ended {tags : List Tag} {source : Text} : EqUpToCloses (.ended tags source) (.ended tags source)
  | faulty {fault : Fault} : EqUpToCloses (.faulty fault) (.faulty fault)
  | closed {tags : List Tag} {source : Text} {close close' : Item} {next next' : Outline} :
      close.content = close'.content → close.mark = close'.mark → close.tail = close'.tail →
      EqUpToCloses next next' →
      EqUpToCloses (.closed tags source close next) (.closed tags source close' next')

/-- Outlines are still the same up to close tags behind the same tags. -/
theorem EqUpToCloses.push (h : EqUpToCloses o o') :
    EqUpToCloses (o.push r add) (o'.push r add) := by
  cases h with
  | ended => exact .ended
  | faulty => exact .faulty
  | closed hcontent hmark htail hnext => exact .closed hcontent hmark htail hnext

/-- An outline of one part has no close tags, so that nothing else is the same up to these. -/
theorem EqUpToCloses.eq_ended {tags : List Tag} {source : Text}
    (h : EqUpToCloses o (.ended tags source)) : o = .ended tags source := by
  cases h
  rfl

/-- Text in front of the literal of an item is text in front of the outline, unless the item ends a
part. -/
theorem cons_literal (hkind : i.kind ≠ .closing) : cons { i with literal := x ++ i.literal } o =
    (cons i o).push x (Tag.consLiteral x) := by
  obtain ⟨literal, indent, mark, tail, kind, content, d⟩ := i
  have hpush : ∀ (text : Text) (a : List Tag → List Tag),
      (o.push text fun tags => Tag.consLiteral literal (a tags)).push x (Tag.consLiteral x) =
        o.push (x ++ text) fun tags => Tag.consLiteral (x ++ literal) (a tags) := by
    intro text a
    rw [push_push]
    congr 1
    funext tags
    exact Tag.consLiteral_append.symm
  have hsection : ∀ kind : Kind,
      o.consSection ⟨x ++ literal, indent, mark, tail, kind, content, d⟩ =
        (o.consSection ⟨literal, indent, mark, tail, kind, content, d⟩).push x
          (Tag.consLiteral x) := by
    intro kind
    cases o with
    | ended => simp only [consSection, Item.before, push, List.append_assoc]
    | faulty => simp only [consSection, Item.text, push, List.append_assoc]
    | closed children source close next =>
      simp only [consSection, Item.before, Item.text]
      split
      · rw [push_push]
        simp only [List.append_assoc]
        congr 1
        funext tags
        exact Tag.consLiteral_append
      · simp only [push, List.append_assoc]
  cases kind with
  | closing => exact absurd rfl hkind
  | opening => exact hsection _
  | inverted => exact hsection _
  | escaped | raw | inclusion =>
    simp only [cons, hpush, Item.text, List.append_assoc]
  | comment | change =>
    have htext : x ++ literal ++ indent ++ mark ++ tail =
        x ++ (literal ++ indent ++ mark ++ tail) := by simp only [List.append_assoc]
    simp only [cons, Item.text, htext]
    exact (hpush _ fun tags => tags).symm

/-- A scan behind a text has its outline with the text in front. -/
theorem EqUpToCloses.behind (h : EqUpToCloses (ofScan s) o) :
    EqUpToCloses (ofScan (s.behind x)) (o.push x (Tag.consLiteral x)) := by
  cases s with
  | tag i next =>
    by_cases hkind : i.kind = .closing
    · -- The text belongs to the part that the tag ends.
      have hclose : ∀ j : Item, j.kind = .closing → ofScan (.tag j next) =
          .closed (Tag.consLiteral j.literal []) j.before j (ofScan next) := fun j hj => by
        rw [ofScan, cons, hj]
      have hkind' : Item.kind { i with literal := x ++ i.literal } = .closing := hkind
      rw [hclose i hkind] at h
      rw [Scan.behind, hclose _ hkind', Tag.consLiteral_append]
      cases h with
      | closed hcontent hmark htail hnext =>
        have hbefore : Item.before { i with literal := x ++ i.literal } = x ++ i.before := by
          simp only [Item.before, List.append_assoc]
        rw [hbefore]
        exact .closed hcontent hmark htail hnext
    · have hfront : ofScan (Scan.behind x (.tag i next)) =
          (ofScan (.tag i next)).push x (Tag.consLiteral x) := cons_literal hkind
      rw [hfront]
      exact h.push
  | done t =>
    cases h
    rw [Scan.behind, ofScan, Tag.consLiteral_append]
    exact .ended
  | faulty =>
    cases h
    exact .faulty

/-- A printed tag comes first, if it is no part of a section. -/
theorem EqUpToCloses.value {sigil : Text} {t : Tag} (h : EqUpToCloses (ofScan s) o)
    (hcons : cons (.written d sigil kind key) (ofScan s) =
      (ofScan s).push (Item.written d sigil kind key).text fun tags =>
        Tag.consLiteral [] (t :: tags)) :
    EqUpToCloses (ofScan (.tag (.written d sigil kind key) s))
      (o.push (d.write sigil key) (t :: ·)) := by
  have htext : (Item.written d sigil kind key).text = d.write sigil key :=
    (List.append_nil _).trans (List.nil_append _)
  have hadd : (fun tags => Tag.consLiteral [] (t :: tags)) = (t :: ·) :=
    funext fun tags => Tag.consLiteral_nil _
  rw [ofScan, hcons, htext, hadd]
  exact h.push

/-- A printed section comes first, if its children come first in what stands behind the open
tag. -/
theorem EqUpToCloses.enclose {source : Text} {children : List Tag} {close : Item} (sigil : Text)
    (hkind : kind = .opening ∨ kind = .inverted) (hcontent : close.content = key)
    (h : EqUpToCloses (ofScan s) (.closed children source close o)) :
    EqUpToCloses (ofScan (.tag (.written d sigil kind key) s))
      (o.push (d.write sigil key ++ source ++ close.mark ++ close.tail)
        (sectionTag (.written d sigil kind key) source children :: ·)) := by
  have hcons : ofScan (.tag (.written d sigil kind key) s) =
      (ofScan s).consSection (.written d sigil kind key) := by
    rcases hkind with rfl | rfl <;> rfl
  rw [hcons]
  cases hs : ofScan s with
  | ended => rw [hs] at h; cases h
  | faulty => rw [hs] at h; cases h
  | closed tags text close' next =>
    rw [hs] at h
    cases h with
    | closed hcontent' hmark htail hnext =>
      have hkey : close'.content = (Item.written d sigil kind key).content :=
        hcontent'.trans hcontent
      have hadd : (fun tags => Tag.consLiteral (Item.written d sigil kind key).literal
          (sectionTag (.written d sigil kind key) source children :: tags)) =
            (sectionTag (.written d sigil kind key) source children :: ·) :=
        funext fun tags => Tag.consLiteral_nil _
      rw [consSection, if_pos hkey, hmark, htail]
      show EqUpToCloses (next.push _ fun tags =>
        Tag.consLiteral (Item.written d sigil kind key).literal
        (sectionTag (.written d sigil kind key) source children :: tags)) _
      rw [hadd]
      exact hnext.push

/-- A section with printed children comes first, if its children do in front of the close tag. -/
theorem EqUpToCloses.printed {sigil : Text} {children : List Tag}
    (hkind : kind = .opening ∨ kind = .inverted) (hn : Tag.NormalList children)
    (hchildren : ∀ {s : Scan} {o : Outline}, EqUpToCloses (ofScan s) o →
      EqUpToCloses (ofScan (.ofTags d s children))
        (o.push (Tag.printList d children) (Tag.joinList children)))
    (h : EqUpToCloses (ofScan s) o) :
    EqUpToCloses (ofScan (.tag (.written d sigil kind key)
        (.ofTags d (.tag (.written d ['/'] .closing key) s) children)))
      (o.push (d.write sigil key ++ Tag.printList d children ++ d.write ['/'] key)
        (sectionTag (.written d sigil kind key) (Tag.printList d children) children :: ·)) := by
  have hclose : EqUpToCloses (ofScan (.tag (.written d ['/'] .closing key) s))
      (.closed [] [] (.written d ['/'] .closing key) o) := .closed rfl rfl rfl h
  have hinner : EqUpToCloses (ofScan (.ofTags d (.tag (.written d ['/'] .closing key) s) children))
      (.closed children (Tag.printList d children) (.written d ['/'] .closing key) o) := by
    have hpush := hchildren hclose
    rw [Outline.push, Tag.joinList_nil hn, List.append_nil] at hpush
    exact hpush
  have hsection := hinner.enclose (d := d) sigil hkind rfl
  rw [show (Item.written d ['/'] .closing key).tail = [] from rfl, List.append_nil] at hsection
  exact hsection

mutual

/-- The outline of a printed tag and what follows it. -/
theorem eqUpToCloses_ofTag : ∀ (t : Tag) {s : Scan} {o : Outline}, t.Normal → t.Printable d →
    EqUpToCloses (ofScan s) o → EqUpToCloses (ofScan (.ofTag d s t)) (o.push (t.print d) t.join)
  | .literal _, _, _, _, _, h => h.behind
  | .escaped _, _, _, _, _, h => h.value rfl
  | .raw _, _, _, _, _, h => h.value rfl
  | .inclusion _, _, _, _, _, h => h.value rfl
  | .block key source d' children, s, o, hn, ⟨_, hd', hsource, hprint⟩, h => by
    rw [hd', hsource]
    exact h.printed (.inl rfl) hn (eqUpToCloses_ofTags children hn hprint)
  | .inverted key children, s, o, hn, ⟨_, hprint⟩, h =>
    h.printed (.inr rfl) hn (eqUpToCloses_ofTags children hn hprint)

/-- The outline of printed tags and what follows them. -/
theorem eqUpToCloses_ofTags : ∀ (ts : List Tag) {s : Scan} {o : Outline}, Tag.NormalList ts →
    Tag.PrintableList d ts → EqUpToCloses (ofScan s) o →
    EqUpToCloses (ofScan (.ofTags d s ts)) (o.push (Tag.printList d ts) (Tag.joinList ts))
  | [], _, o, _, _, h => by
    have hpush : o.push [] (Tag.joinList []) = o := by cases o <;> rfl
    rw [Tag.printList, hpush]
    exact h
  | t :: ts, _, o, ⟨ht, _, hts⟩, ⟨hprint, hprints⟩, h => by
    have hrest := eqUpToCloses_ofTag t ht hprint (eqUpToCloses_ofTags ts hts hprints h)
    rw [push_push] at hrest
    exact hrest

end

end Outline

section Results

variable {d : Delimiters} {tags : List Tag}

/-- **Parsing undoes printing.** A tree that can be told from its print is parsed back, with the
names of its partials in the order of first use, if no tag of the printed text stands alone on its
line. -/
theorem parse_print (hd : d.Solid) (hnormal : Tag.NormalList tags)
    (hprint : Tag.PrintableList d tags)
    (halone : ∀ p ∈ Tag.sitesList d 0 tags, ¬ p.Alone (Tag.printList d tags)) :
    parse { delimiters := d } (Tag.printList d tags) =
      .ok (tags, ⟨{}, (Tag.inclusionsList tags).eraseDups⟩) := by
  have hnone : Expression.next? d [] = .ok none :=
    Expression.next?_eq_none_iff.2 fun h => hd.1.1 (List.infix_nil.1 h)
  have hflat : Scan.flat d (Tag.printList d tags) = .ofTags d (.done []) tags := by
    have hall := Scan.flat_printList hd tags [] hnormal hprint (.inl rfl)
    rwa [List.append_nil, Scan.flat_of_none hnone] at hall
  have hsites : (Scan.flat d (Tag.printList d tags)).sites 0 = Tag.sitesList d 0 tags := by
    rw [hflat, Scan.sites_ofTags]
    exact List.append_nil _
  have hscan : Scan.ofText true d (Tag.printList d tags) = Scan.flat d (Tag.printList d tags) := by
    refine Scan.ofText_eq_flat hd (.inr Line.begins_nil) (List.nil_append _).symm ?_
    rw [Text.size_nil, hsites]
    exact halone
  have hended : Outline.EqUpToCloses (Outline.ofScan (.ofTags d (.done []) tags))
      (.ended tags (Tag.printList d tags)) := by
    have hdone : Outline.EqUpToCloses (Outline.ofScan (.done [])) (.ended [] []) := .ended
    have hpush := Outline.eqUpToCloses_ofTags tags hnormal hprint hdone
    rw [Outline.push, Tag.joinList_nil hnormal, List.append_nil] at hpush
    exact hpush
  have htags : parseTags d (Tag.printList d tags) = .ok tags := by
    rw [parseTags, hscan, hflat]
    exact Outline.complete_eq_ok_iff.2 ⟨_, hended.eq_ended⟩
  have hnames : addNames [] (Tag.inclusionsList tags) = (Tag.inclusionsList tags).eraseDups := by
    have hfilter : (Tag.inclusionsList tags).filter (fun name => !([] : List Text).contains name) =
        Tag.inclusionsList tags := List.filter_eq_self.2 fun _ _ => rfl
    rw [addNames_eq, List.nil_append, hfilter]
  exact parse_eq_ok_iff.2 ⟨htags, by rw [hnames]⟩

/-- Delimiters that are equal and look like a part of the text and of a key. -/
theorem parse_print_bars :
    parse { delimiters := ⟨['|', '|'], ['|', '|']⟩ }
        "x | y||# k|k ||||> p ||\n||^ q ||||& v ||||> p ||||/ q ||||/ k|k ||||> r ||".toList =
      .ok ([.literal "x | y".toList,
        .block "k|k".toList "||> p ||\n||^ q ||||& v ||||> p ||||/ q ||".toList
          ⟨['|', '|'], ['|', '|']⟩
          [.inclusion ['p'], .literal ['\n'], .inverted ['q'] [.raw ['v'], .inclusion ['p']]],
        .inclusion ['r']], ⟨{}, [['p'], ['r']]⟩) := by
  have hprint : Tag.printList ⟨['|', '|'], ['|', '|']⟩ [.literal "x | y".toList,
      .block "k|k".toList "||> p ||\n||^ q ||||& v ||||> p ||||/ q ||".toList
        ⟨['|', '|'], ['|', '|']⟩
        [.inclusion ['p'], .literal ['\n'], .inverted ['q'] [.raw ['v'], .inclusion ['p']]],
      .inclusion ['r']] =
        "x | y||# k|k ||||> p ||\n||^ q ||||& v ||||> p ||||/ q ||||/ k|k ||||> r ||".toList := by
    decide +kernel
  rw [← hprint]
  refine parse_print (by decide) ?_ ?_ (by decide)
  · simp [Tag.NormalList, Tag.Normal, Tag.isLiteral]
  · simp only [Tag.PrintableList, Tag.Printable]
    decide

end Results

end Mustache
