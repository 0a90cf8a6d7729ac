import Mathlib.Control.Monad.Basic
import Mustache.Proofs.Literal
import Mustache.Proofs.Names

/-!
# Outlines up to their literals

Trimmed lines show in the literals of a tree and nowhere else. `Outline.Agree` relates the outline
of a scan to the outline of the same scan with everything given back that vanished: the same parts,
sources and faults, and tags that are the same once their literals are rewritten by a function that
forgets padding. Giving back moves text only from one item to the next, so that outlines agree item
by item (`Outline.agree_untrim`), and for solid delimiters a text is parsed to the tree of its flat
scan up to padding (`parseTags_eq_parseFlat`).
-/

namespace Mustache

namespace Outline

variable {f : Text → Text} {o o' : Outline} {r r' w v : Text} {add add' : List Tag → List Tag}

/-! ## The parts of an outline -/

/-- The tags of every part of an outline have a property. -/
def Forall (p : List Tag → Prop) : Outline → Prop
  | .ended tags _ => p tags
  | .closed tags _ _ next => p tags ∧ next.Forall p
  | .faulty _ => True

/-- Tags in front of an outline keep a property of its parts if they keep it of tags. -/
theorem Forall.push {p : List Tag → Prop} (h : o.Forall p) (hadd : ∀ tags, p tags → p (add tags)) :
    (o.push r add).Forall p := by
  cases o with
  | ended => exact hadd _ h
  | closed => exact ⟨hadd _ h.1, h.2⟩
  | faulty => trivial

/-- The tags of every part of an outline are normal. -/
def Normal (o : Outline) : Prop :=
  o.Forall Tag.NormalList

/-- A section with normal children is normal and no literal. -/
theorem normal_sectionTag {i : Item} {source : Text} {children : List Tag}
    (h : Tag.NormalList children) : (sectionTag i source children).Normal ∧
      (sectionTag i source children).isLiteral = false := by
  unfold sectionTag
  split <;> exact ⟨h, rfl⟩

/-- An item in front of an outline leaves it normal. -/
theorem Normal.cons (i : Item) (h : o.Normal) : (cons i o).Normal := by
  have hvalue : ∀ t : Tag, t.Normal → t.isLiteral = false → ∀ tags, Tag.NormalList tags →
      Tag.NormalList (Tag.consLiteral i.literal (t :: tags)) := fun t ht hlit tags htags =>
    Tag.normalList_consLiteral ⟨ht, fun hlit' => by simp [hlit] at hlit', htags⟩
  have hsection : (o.consSection i).Normal := by
    cases o with
    | ended => trivial
    | faulty => trivial
    | closed children source close next =>
      obtain ⟨hchildren, hnext⟩ := h
      have hsection : (sectionTag i (i.tail ++ source) children).Normal ∧
          (sectionTag i (i.tail ++ source) children).isLiteral = false :=
        normal_sectionTag hchildren
      simp only [consSection]
      split
      · exact Forall.push hnext (hvalue _ hsection.1 hsection.2)
      · trivial
  unfold Outline.cons
  cases i.kind with
  | escaped => exact Forall.push h (hvalue _ trivial rfl)
  | raw => exact Forall.push h (hvalue _ trivial rfl)
  | inclusion => exact Forall.push h (hvalue _ trivial rfl)
  | comment => exact Forall.push h fun _ => Tag.normalList_consLiteral
  | change => exact Forall.push h fun _ => Tag.normalList_consLiteral
  | closing => exact ⟨Tag.normalList_consLiteral trivial, h⟩
  | opening => exact hsection
  | inverted => exact hsection

/-- The outline of a scan is normal. -/
theorem normal_ofScan (s : Scan) : (ofScan s).Normal := by
  induction s with
  | tag i next ih => exact ih.cons i
  | done t => exact Tag.normalList_consLiteral trivial
  | faulty => trivial

/-! ## Agreement -/

/-- Two ways of putting tags in front keep up the agreement of tags. -/
def Parallel (f : Text → Text) (add add' : List Tag → List Tag) : Prop :=
  ∀ tags tags', Tag.NormalList tags → Tag.NormalList tags' →
    Tag.mapLiteralsList f tags = Tag.mapLiteralsList f tags' →
    Tag.mapLiteralsList f (add tags) = Tag.mapLiteralsList f (add' tags')

/-- Texts that become the same are put in front of tags in parallel. -/
theorem parallel_consLiteral (hf : Text.Forgets f) {x x' : Text} (hx : f x = f x') :
    Parallel f (Tag.consLiteral x) (Tag.consLiteral x') := by
  intro tags tags' hn hn' htags
  rw [Tag.mapLiterals_consLiteral hf hn, Tag.mapLiterals_consLiteral hf hn', htags, hx]

/-- So are texts with a tag after them that becomes the same. -/
theorem parallel_cons (hf : Text.Forgets f) {x x' : Text} (hx : f x = f x') {t t' : Tag}
    (hnt : t.Normal ∧ t.isLiteral = false) (hnt' : t'.Normal ∧ t'.isLiteral = false)
    (ht : Tag.mapLiterals f t = Tag.mapLiterals f t') :
    Parallel f (fun tags => Tag.consLiteral x (t :: tags))
      (fun tags => Tag.consLiteral x' (t' :: tags)) := by
  intro tags tags' hn hn' htags
  refine parallel_consLiteral hf hx _ _ ⟨hnt.1, ?_, hn⟩ ⟨hnt'.1, ?_, hn'⟩ ?_
  · simp [hnt.2]
  · simp [hnt'.2]
  · rw [Tag.mapLiteralsList, Tag.mapLiteralsList, ht, htags]

/-- Two outlines agree, one of a text and one of the same text with `w` in front. -/
inductive Agree (f : Text → Text) : Text → Outline → Outline → Prop
  | ended {w source source' : Text} {tags tags' : List Tag} :
      Tag.mapLiteralsList f tags = Tag.mapLiteralsList f tags' → source' = w ++ source →
      Agree f w (.ended tags source) (.ended tags' source')
  | closed {w source source' : Text} {tags tags' : List Tag} {close close' : Item}
      {next next' : Outline} :
      Tag.mapLiteralsList f tags = Tag.mapLiteralsList f tags' → source' = w ++ source →
      close'.content = close.content → close'.mark = close.mark → close'.tail = [] →
      Agree f close.tail next next' →
      Agree f w (.closed tags source close next) (.closed tags' source' close' next')
  | faulty {w : Text} {fault fault' : Fault} :
      fault' = fault.behind w → Agree f w (.faulty fault) (.faulty fault')

/-- Outlines that agree still do behind texts and tags that do. -/
theorem Agree.push (h : Agree f v o o') (ho : o.Normal) (ho' : o'.Normal) (hr : w ++ r = r' ++ v)
    (hadd : Parallel f add add') : Agree f w (o.push r add) (o'.push r' add') := by
  have hread : ∀ x : Text, r' ++ (v ++ x) = w ++ (r ++ x) := fun x => by
    rw [← List.append_assoc, ← hr, List.append_assoc]
  cases h with
  | ended htags hsource =>
    exact .ended (hadd _ _ ho ho' htags) (by rw [hsource, hread])
  | closed htags hsource hcontent hmark htail hnext =>
    exact .closed (hadd _ _ ho.1 ho'.1 htags) (by rw [hsource, hread]) hcontent hmark htail hnext
  | faulty hfault =>
    exact .faulty (by rw [hfault, Fault.behind, Fault.behind, hread])

variable {i : Item}

/-- Sections agree if their children do. -/
theorem mapLiterals_sectionTag {source : Text} {children children' : List Tag}
    (h : Tag.mapLiteralsList f children = Tag.mapLiteralsList f children') :
    Tag.mapLiterals f (sectionTag i source children) =
      Tag.mapLiterals f (sectionTag (i.untrim w) source children') := by
  by_cases hkind : i.kind = .inverted <;>
    simp [sectionTag, Item.untrim, hkind, Tag.mapLiterals, h]

/-- Outlines agree behind the open tag of a section, whatever vanishes around the tag. -/
theorem Agree.consSection (hf : Text.Forgets f) (hliteral : f i.literal = f (i.untrim w).literal)
    (ho : o.Normal) (ho' : o'.Normal) (h : Agree f i.tail o o') :
    Agree f w (o.consSection i) (o'.consSection (i.untrim w)) := by
  cases h with
  | ended => exact .faulty (by simp [Item.untrim, Item.before, Fault.behind])
  | faulty hfault =>
    rw [hfault]
    exact .faulty (by simp [Item.untrim, Item.before, Item.text, Fault.behind])
  | @closed _ source _ _ _ close close' _ _ htags hsource hcontent hmark htail hnext =>
    have hkey : (i.untrim w).content = i.content := rfl
    have hnil : (i.untrim w).tail = [] := rfl
    simp only [Outline.consSection, hcontent, hkey, hnil, List.nil_append, hsource]
    split
    · refine hnext.push ho.2 ho'.2 ?_ ?_
      · simp [Item.untrim, Item.before, hmark, htail]
      · exact parallel_cons hf hliteral (normal_sectionTag ho.1) (normal_sectionTag ho'.1)
          (mapLiterals_sectionTag htags)
    · exact .faulty (by simp [Item.untrim, Item.before, Item.text, Fault.behind])

/-- Outlines agree behind an item, whatever vanishes around its tag. -/
theorem Agree.cons (hf : Text.Forgets f) (hw : Text.Padding w)
    (hindent : Text.Padding i.indent) (ho : o.Normal) (ho' : o'.Normal)
    (h : Agree f i.tail o o') : Agree f w (cons i o) (cons (i.untrim w) o') := by
  have hliteral : f i.literal = f (i.untrim w).literal := by
    simp [Item.untrim, Item.before, hf.append, hf.padding w hw, hf.padding _ hindent]
  have hread : w ++ i.text = (i.untrim w).text ++ i.tail := by
    simp [Item.untrim, Item.text, Item.before]
  have hkind : (i.untrim w).kind = i.kind := rfl
  have hvalue : ∀ t : Tag, t.Normal → t.isLiteral = false →
      Agree f w (o.push i.text fun tags => Tag.consLiteral i.literal (t :: tags))
        (o'.push (i.untrim w).text fun tags => Tag.consLiteral (i.untrim w).literal (t :: tags)) :=
    fun t ht hlit => h.push ho ho' hread (parallel_cons hf hliteral ⟨ht, hlit⟩ ⟨ht, hlit⟩ rfl)
  unfold Outline.cons
  rw [hkind]
  cases i.kind with
  | escaped => exact hvalue _ trivial rfl
  | raw => exact hvalue _ trivial rfl
  | inclusion => exact hvalue _ trivial rfl
  | comment => exact h.push ho ho' hread (parallel_consLiteral hf hliteral)
  | change => exact h.push ho ho' hread (parallel_consLiteral hf hliteral)
  | closing =>
    refine .closed ?_ (by simp [Item.untrim, Item.before]) rfl rfl rfl h
    exact parallel_consLiteral hf hliteral _ _ trivial trivial rfl
  | opening => exact h.consSection hf hliteral ho ho'
  | inverted => exact h.consSection hf hliteral ho ho'

/-- **Trimmed lines show in literals only.** The outline of a scan agrees with that of the scan in
which nothing vanishes. -/
theorem agree_untrim (hf : Text.Forgets f) {s : Scan} (hs : s.Padded) (hw : Text.Padding w) :
    Agree f w (ofScan s) (ofScan (s.untrim w)) := by
  induction s generalizing w with
  | tag i next ih =>
    obtain ⟨hindent, htail⟩ := hs i (.head _)
    have hnext : next.Padded := fun j hj => hs j (.tail _ hj)
    exact (ih hnext htail).cons hf hw hindent (normal_ofScan _) (normal_ofScan _)
  | done t =>
    refine .ended ?_ rfl
    exact parallel_consLiteral hf (by rw [hf.append, hf.padding w hw]; rfl) _ _ trivial trivial rfl
  | faulty fault => exact .faulty rfl

end Outline

/-- An outline is complete if it is one part. -/
theorem Outline.complete_eq_ok_iff {o : Outline} {tags : List Tag} :
    o.complete = .ok tags ↔ ∃ source, o = .ended tags source := by
  constructor
  · intro h
    cases o with
    | ended ts source => cases h; exact ⟨source, rfl⟩
    | closed => cases h
    | faulty => cases h
  · rintro ⟨source, rfl⟩
    rfl

/-- The tag tree of a text in which no line vanishes. -/
def parseFlat (d : Delimiters) (src : Text) : Except Error (List Tag) :=
  (Outline.ofScan (Scan.flat d src)).complete

/-- **Parsing a text is parsing its flat scan,** up to what vanishes in its literals. -/
theorem parseTags_eq_parseFlat {f : Text → Text} (hf : Text.Forgets f) {d : Delimiters}
    (hd : d.Solid) (src : Text) : (parseTags d src).map (Tag.mapLiteralsList f) =
      (parseFlat d src).map (Tag.mapLiteralsList f) := by
  have huntrim : (Scan.ofText true d src).untrim [] = Scan.flat d src :=
    Scan.untrim_ofText hd Text.white_nil
  have hagree := Outline.agree_untrim hf (Scan.padded_ofText true d src) Text.padding_nil
  rw [huntrim] at hagree
  unfold parseTags parseFlat
  generalize Outline.ofScan (Scan.ofText true d src) = o at hagree
  generalize Outline.ofScan (Scan.flat d src) = o' at hagree
  cases hagree with
  | ended htags => simp [Outline.complete, Except.map, htags]
  | closed htags hsource hcontent => simp [Outline.complete, Except.map, hsource, hcontent]
  | faulty hfault => simp [Outline.complete, Except.map, hfault, Fault.behind]

section Results

variable {f : Text → Text} {d : Delimiters} {src : Text} {tags : List Tag}

/-- Two results that are mapped to the same are both successes or both not. -/
theorem exists_of_map_eq {ε α β : Type} {g : α → β} {x y : Except ε α} {a : α}
    (hmap : x.map g = y.map g) (hx : x = .ok a) : ∃ b, y = .ok b ∧ g a = g b := by
  subst hx
  cases y with
  | ok b => exact ⟨b, rfl, Except.ok.inj hmap⟩
  | error => cases hmap

/-- A text that is parsed has a flat tree, which is the same up to what vanishes. -/
theorem exists_parseFlat (hf : Text.Forgets f) (hd : d.Solid) (h : parseTags d src = .ok tags) :
    ∃ flatTags, parseFlat d src = .ok flatTags ∧
      Tag.mapLiteralsList f tags = Tag.mapLiteralsList f flatTags :=
  exists_of_map_eq (parseTags_eq_parseFlat hf hd src) h

/-- A text that has a flat tree is parsed, and to the same up to what vanishes. -/
theorem exists_parseTags (hf : Text.Forgets f) (hd : d.Solid) (h : parseFlat d src = .ok tags) :
    ∃ trimmed, parseTags d src = .ok trimmed ∧
      Tag.mapLiteralsList f trimmed = Tag.mapLiteralsList f tags := by
  obtain ⟨trimmed, htrimmed, hmap⟩ := exists_of_map_eq (parseTags_eq_parseFlat hf hd src).symm h
  exact ⟨trimmed, htrimmed, hmap.symm⟩

end Results

end Mustache
