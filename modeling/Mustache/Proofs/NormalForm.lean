import Mustache.Proofs.Reparse
import Mustache.Proofs.Seam

/-!
# The form of parsed tags

What a parse yields is in one form, whatever it begins with (`parse_normalForm`). Literals are kept
apart by other tags and are not empty. Keys are not empty and hold no white space at their ends. The
delimiters that a section keeps are those that the text begins with or a pair that a tag has named.
And sections are nested in the text as they are in the tree: the source of a section is a part of
the text, and of the source of every section around it.

The first of these is known of every outline (`Outline.normal_ofScan`). The others are told of a
part of an outline together with the text that it is read from (`Tag.Proper`), since an open tag in
front of the outline makes this text the source of a section.
-/

namespace Mustache

/-- A pair that a delimiter change can name: two texts without white space and equals signs. -/
structure Delimiters.Nameable (d : Delimiters) : Prop where
  solid : d.Solid
  start_free : '=' ∉ d.start
  stop_free : '=' ∉ d.stop

/-- A delimiter change names such a pair. -/
theorem Delimiters.nameable_of_ofContent? {content : Text} {d : Delimiters}
    (h : ofContent? content = some d) : d.Nameable := by
  have hsolid := solid_of_ofContent? h
  unfold ofContent? at h
  split at h
  next start stop hwords =>
    split at h
    next => cases h
    next hfree =>
      cases h
      exact ⟨hsolid, fun hin => hfree (.inl hin), fun hin => hfree (.inr hin)⟩
  next => cases h

/-! ## The items of a scan -/

/-- What a tag holds is trimmed, and only a comment holds nothing. -/
theorem Mark.trimmed {d : Delimiters} {mark content : Text} {kind : Kind}
    (h : Mark d mark kind content) :
    content.Trimmed ∧ (kind ≠ .comment → content ≠ []) := by
  cases h with
  | sigil _ _ hempty => exact ⟨Text.trimmed_trim _, fun hkind hnil => hkind (hempty hnil)⟩
  | key _ _ hne => exact ⟨Text.trimmed_trim _, fun _ => hne⟩

/-- A text that is the key of a tag. -/
structure Text.IsKey (key : Text) : Prop where
  ne_nil : key ≠ []
  trimmed : key.Trimmed

/-- An item of a scan that begins under the delimiters `d`. -/
structure Item.Proper (d : Delimiters) (i : Item) : Prop where
  key : i.kind ≠ .comment → i.content.IsKey
  delimiters : i.delimiters = d ∨ i.delimiters.Nameable

/-- A tag leaves the delimiters as they are or names other ones. -/
theorem Item.eq_or_nameable_of_after? {i : Item} {d : Delimiters} (h : i.after? = some d) :
    d = i.delimiters ∨ d.Nameable := by
  unfold after? at h
  split at h
  · exact .inr (Delimiters.nameable_of_ofContent? h)
  · exact .inl (Option.some.inj h).symm

/-- The items of a scan hold keys, and are written with the first delimiters or with such as a tag
has named. -/
theorem Scan.proper_ofText (fresh : Bool) (d : Delimiters) (text : Text) :
    ∀ i ∈ (ofText fresh d text).items, i.Proper d := by
  fun_induction ofText fresh d text with
  | case1 | case2 | case3 => exact fun i hi => absurd hi List.not_mem_nil
  | case4 fresh d text e hnext item d' hafter ih =>
    obtain ⟨-, hmark, -⟩ := Expression.next?_eq_some_iff.1 hnext
    obtain ⟨literal, indent, tail, rest, hitem, -⟩ := Item.ofExpression_spec fresh d e
    have hdelimiters : item.delimiters = d := Item.delimiters_ofExpression fresh d e
    intro i hi
    rcases List.mem_cons.1 hi with rfl | hi
    · refine ⟨fun hkind => ?_, .inl hdelimiters⟩
      simp only [item, hitem] at hkind ⊢
      exact ⟨hmark.trimmed.2 hkind, hmark.trimmed.1⟩
    · obtain ⟨hkey, hsame⟩ := ih i hi
      refine ⟨hkey, ?_⟩
      rcases hsame with hsame | hnamed
      · rw [hsame, ← hdelimiters]
        exact Item.eq_or_nameable_of_after? hafter
      · exact .inr hnamed

/-! ## Tags -/

namespace Tag

mutual

/-- The keys in a tag: its own, and those of the tags inside it. -/
def keys : Tag → List Text
  | .literal _ => []
  | .escaped key | .raw key | .inclusion key => [key]
  | .block key _ _ children | .inverted key children => key :: keysList children

/-- The keys in a list of tags. -/
def keysList : List Tag → List Text
  | [] => []
  | t :: ts => keys t ++ keysList ts

end

/-- Tags with keys, read from a text that begins under the delimiters `d`, and sections among them
at any depth. -/
structure Proper (d : Delimiters) (text : Text) (tags : List Tag) : Prop where
  /-- Every key is one. -/
  keys : ∀ key ∈ keysList tags, key.IsKey
  /-- Every section keeps the first delimiters or a pair that a tag can name. -/
  delimiters : ∀ key source e children, .block key source e children ∈ sectionsList tags →
    e = d ∨ e.Nameable
  /-- The source of every section is a part of the text. -/
  sources : ∀ key source e children, .block key source e children ∈ sectionsList tags →
    source <:+: text
  /-- The source of every section inside a section is a part of the source of that. -/
  nested : ∀ key source e children, .block key source e children ∈ sectionsList tags →
    ∀ key' source' e' children', .block key' source' e' children' ∈ sectionsList children →
      source' <:+: source

variable {d : Delimiters} {text source x : Text} {t : Tag} {ts children : List Tag} {i : Item}

/-- Text has no key. -/
theorem keysList_consLiteral : keysList (consLiteral x ts) = keysList ts := by
  rcases literal_or_head ts with ⟨t, us, rfl⟩ | hhead
  · rfl
  · rw [consLiteral_of_head hhead]
    split <;> rfl

theorem Proper.nil : Proper d text [] :=
  ⟨nofun, nofun, nofun, nofun⟩

/-- Tags that are read from a text are read from every text that it is a part of. -/
theorem Proper.mono (h : Proper d source ts) (hsource : source <:+: text) : Proper d text ts :=
  ⟨h.keys, h.delimiters, fun _ _ _ _ hin => (h.sources _ _ _ _ hin).trans hsource, h.nested⟩

/-- So are these tags behind a literal. -/
theorem Proper.consLiteral (h : Proper d text ts) : Proper d text (consLiteral x ts) := by
  refine ⟨?_, ?_, ?_, ?_⟩
  · rw [keysList_consLiteral]
    exact h.keys
  · rw [sectionsList_consLiteral]
    exact h.delimiters
  · rw [sectionsList_consLiteral]
    exact h.sources
  · rw [sectionsList_consLiteral]
    exact h.nested

/-- Tags are read from a text one after another. -/
theorem Proper.cons (ht : Proper d text [t]) (h : Proper d text ts) : Proper d text (t :: ts) := by
  have hkeys : keysList (t :: ts) = keysList [t] ++ keysList ts := by
    simp only [keysList, List.append_nil]
  have hsections : sectionsList (t :: ts) = sectionsList [t] ++ sectionsList ts := by
    simp only [sectionsList, List.append_nil]
  refine ⟨fun key hin => ?_, fun key source e children hin => ?_,
    fun key source e children hin => ?_, fun key source e children hin => ?_⟩
  · rw [hkeys, List.mem_append] at hin
    exact hin.elim (ht.keys key) (h.keys key)
  all_goals rw [hsections, List.mem_append] at hin
  · exact hin.elim (ht.delimiters _ _ _ _) (h.delimiters _ _ _ _)
  · exact hin.elim (ht.sources _ _ _ _) (h.sources _ _ _ _)
  · exact hin.elim (ht.nested _ _ _ _) (h.nested _ _ _ _)

/-- A tag with a key and nothing inside it. -/
theorem Proper.value (hkeys : keysList [t] = [x]) (hsections : sectionsList [t] = [])
    (hx : x.IsKey) : Proper d text [t] := by
  refine ⟨fun key hin => ?_, ?_, ?_, ?_⟩
  · rw [hkeys] at hin
    exact List.mem_singleton.1 hin ▸ hx
  all_goals rw [hsections]; exact nofun

/-- A section whose children are read from its source. -/
theorem Proper.sectionTag (hi : i.Proper d) (hkey : i.content.IsKey)
    (h : Proper d source children) : Proper d source [Outline.sectionTag i source children] := by
  unfold Outline.sectionTag
  have hkeys : ∀ key ∈ i.content :: keysList children, key.IsKey :=
    List.forall_mem_cons.2 ⟨hkey, h.keys⟩
  split
  next =>
    have hall : keysList [.inverted i.content children] = i.content :: keysList children :=
      List.append_nil _
    have hsections : sectionsList [.inverted i.content children] = sectionsList children :=
      List.append_nil _
    refine ⟨hall ▸ hkeys, ?_, ?_, ?_⟩
    all_goals rw [hsections]
    · exact h.delimiters
    · exact h.sources
    · exact h.nested
  next =>
    have hall : keysList [.block i.content source i.delimiters children] =
        i.content :: keysList children := List.append_nil _
    have hsections : sectionsList [.block i.content source i.delimiters children] =
        .block i.content source i.delimiters children :: sectionsList children :=
      List.append_nil _
    refine ⟨hall ▸ hkeys, fun _ _ _ _ hin => ?_, fun _ _ _ _ hin => ?_, fun _ _ _ _ hin => ?_⟩
    all_goals
      rw [hsections] at hin
      rcases List.mem_cons.1 hin with heq | hin
    · obtain ⟨-, -, rfl, -⟩ := Tag.block.inj heq
      exact hi.delimiters
    · exact h.delimiters _ _ _ _ hin
    · obtain ⟨-, rfl, -⟩ := Tag.block.inj heq
      exact List.infix_rfl
    · exact h.sources _ _ _ _ hin
    · obtain ⟨-, rfl, -, rfl⟩ := Tag.block.inj heq
      exact h.sources
    · exact h.nested _ _ _ _ hin

end Tag

/-! ## Outlines -/

namespace Outline

/-- The parts of an outline have a property, each with the text that it is read from. -/
def Parts (p : Text → List Tag → Prop) : Outline → Prop
  | .ended tags source => p source tags
  | .closed tags source _ next => p source tags ∧ next.Parts p
  | .faulty _ => True

variable {d : Delimiters} {o : Outline} {r : Text} {add : List Tag → List Tag} {i : Item}

/-- Text and tags in front of an outline belong to its first part. -/
theorem Parts.push {p : Text → List Tag → Prop} (h : o.Parts p)
    (hadd : ∀ source tags, p source tags → p (r ++ source) (add tags)) :
    (o.push r add).Parts p := by
  cases o with
  | ended => exact hadd _ _ h
  | closed => exact ⟨hadd _ _ h.1, h.2⟩
  | faulty => trivial

/-- An open tag in front of an outline makes a section of its first part. -/
theorem Parts.consSection (hi : i.Proper d) (hkey : i.content.IsKey) (h : o.Parts (Tag.Proper d)) :
    (o.consSection i).Parts (Tag.Proper d) := by
  cases o with
  | ended | faulty => trivial
  | closed children source close next =>
    obtain ⟨hchildren, hnext⟩ := h
    rw [Outline.consSection]
    split
    next =>
      have hsection : Tag.Proper d (i.tail ++ source) [sectionTag i (i.tail ++ source) children] :=
        .sectionTag hi hkey (hchildren.mono (List.suffix_append _ _).isInfix)
      refine hnext.push fun text tags htags => ?_
      refine .consLiteral (.cons (hsection.mono ?_) (htags.mono (List.suffix_append _ _).isInfix))
      exact ⟨i.before ++ i.mark, close.mark ++ close.tail ++ text, by simp only [List.append_assoc]⟩
    next => trivial

/-- The parts of the outline of a scan are proper if the items of the scan are. -/
theorem proper_ofScan {s : Scan} (h : ∀ i ∈ s.items, i.Proper d) :
    (ofScan s).Parts (Tag.Proper d) := by
  induction s with
  | done text => exact .consLiteral .nil
  | faulty => trivial
  | tag i next ih =>
    have hi : i.Proper d := h i (.head _)
    have hnext : (ofScan next).Parts (Tag.Proper d) := ih fun j hj => h j (.tail _ hj)
    have hback : ∀ source tags, Tag.Proper d source tags → Tag.Proper d (i.text ++ source) tags :=
      fun _ _ htags => htags.mono (List.suffix_append _ _).isInfix
    rw [ofScan]
    unfold Outline.cons
    cases hkind : i.kind with
    | escaped | raw | inclusion =>
      have hkey : i.content.IsKey := hi.key (by simp [hkind])
      exact hnext.push fun _ _ htags => .consLiteral (.cons (.value rfl rfl hkey) (hback _ _ htags))
    | comment | change => exact hnext.push fun _ _ htags => .consLiteral (hback _ _ htags)
    | closing => exact ⟨.consLiteral .nil, hnext⟩
    | opening | inverted => exact hnext.consSection hi (hi.key (by simp [hkind]))

end Outline

/-- **The form of parsed tags.** Whatever a text is parsed with, at every level of its tree no
literal is empty and no two are neighbours, every key is trimmed and not empty, every section keeps
the delimiters that the text begins with or a pair that a tag can name, and its source is a part of
the text and of the source of every section around it. -/
theorem parse_normalForm {state final : ParseState} {src : Text} {tags : List Tag}
    (h : parse state src = .ok (tags, final)) :
    Tag.NormalList tags ∧ Tag.Proper state.delimiters src tags := by
  obtain ⟨htags, -⟩ := parse_eq_ok_iff.1 h
  obtain ⟨-, hended⟩ := ended_of_parseTags htags
  have hnormal := Outline.normal_ofScan (Scan.ofText true state.delimiters src)
  have hproper := Outline.proper_ofScan (Scan.proper_ofText true state.delimiters src)
  rw [hended] at hnormal hproper
  exact ⟨hnormal, hproper⟩

/-- Delimiters with a space in them, a comment between two literals, and a section in an inverted
section in a section, under a pair that is named on the way. -/
theorem parse_normalForm_spaced :
    let d : Delimiters := ⟨"[ ".toList, " ]".toList⟩
    let src : Text :=
      "[ #a ]x[ ! ]y\n[ =<% %>= ]\n<%^ b %><%#c%> {<%d%>}\n<%/c%><%/b%><%/a%>".toList
    let inner : Tag := .block ['c'] " {<%d%>}\n".toList ⟨"<%".toList, "%>".toList⟩
      [.literal [' ', '{'], .escaped ['d'], .literal ['}', '\n']]
    let tags : List Tag :=
      [.block ['a'] "x[ ! ]y\n[ =<% %>= ]\n<%^ b %><%#c%> {<%d%>}\n<%/c%><%/b%>".toList d
        [.literal "xy\n".toList, .inverted ['b'] [inner]]]
    parse { delimiters := d } src = .ok (tags, {}) ∧
      Tag.NormalList tags ∧ Tag.Proper d src tags := by
  intro d src inner tags
  have hparse : parse { delimiters := d } src = .ok (tags, {}) := by decide +kernel
  exact ⟨hparse, parse_normalForm hparse⟩

end Mustache
