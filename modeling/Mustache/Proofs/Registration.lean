import Mathlib.Data.List.Nodup
import Mustache.Proofs.Loads

/-!
# Registering partials

`Template.addPartials` registers texts as partials, one after another. What comes of it can be read
off the texts: the names that become known are those of the partials that have a place in them
(`Template.names_addPartials`), and the partial of a name is the last text under it
(`Template.find?_addPartials`).

Loading comes to nothing else. It registers the texts that its requests are answered with, in the
order of the requests (`Loads.addPartials`); a last request that ends it with an error adds nothing.
-/

namespace Mustache

variable {src name : Text} {tags : List Tag} {names : List Text}

/-- The tags of a text, if it is a template. -/
def tagsOf? (src : Text) : Option (List Tag) :=
  (parse {} src).toOption.map (·.1)

/-- The names of the partials that have a place in a text, in the order of their places. -/
def inclusionsOf (src : Text) : List Text :=
  (tagsOf? src).elim [] Tag.inclusionsList

/-- A text that is a template leaves the names of the partials that have a place in it, each
once. -/
theorem tagsOf?_eq_some_iff : tagsOf? src = some tags ↔
    parse {} src = .ok (tags, ⟨{}, addNames [] (Tag.inclusionsList tags)⟩) := by
  unfold tagsOf?
  cases hparse : parse {} src with
  | error => exact ⟨nofun, nofun⟩
  | ok p =>
    obtain ⟨tags', state⟩ := p
    obtain ⟨-, rfl⟩ := parse_eq_ok_iff.1 hparse
    constructor
    · intro h
      cases h
      rfl
    · intro h
      cases h
      rfl

/-- A text that is no template is refused for a fault in it. -/
theorem exists_fault_of_parse {state : ParseState} {error : Error}
    (h : parse state src = .error error) : ∃ fault, error = .malformed fault := by
  unfold parse parseTags at h
  cases ho : Outline.ofScan (Scan.ofText true state.delimiters src) with
  | ended => rw [ho] at h; cases h
  | closed => rw [ho] at h; cases h; exact ⟨_, rfl⟩
  | faulty fault => rw [ho] at h; cases h; exact ⟨fault, rfl⟩

/-! ## One text after another -/

namespace Template

variable {t u v : Template} {texts more : List (Text × Text)}

/-- Registers texts as partials under their names, one after another. A text that is no template
ends it. Reference: `Template.add_partial`, text by text. -/
def addPartials (t : Template) (texts : List (Text × Text)) : Except Error Template :=
  texts.foldlM (fun t text => t.addPartial text.1 text.2) t

/-- Names that are gathered before they are recorded are recorded alike. -/
theorem insert_addNames : t.insert name tags (addNames [] names) = t.insert name tags names := by
  rw [insert, insert, addNames_addNames]
  rfl

/-- A text that is a template is registered with its tags. -/
theorem addPartial_eq_ok_iff : t.addPartial name src = .ok u ↔
    ∃ tags, tagsOf? src = some tags ∧ u = t.insert name tags (Tag.inclusionsList tags) := by
  rw [addPartial_eq_map]
  constructor
  · intro h
    cases hparse : Mustache.parse {} src with
    | error => rw [hparse] at h; cases h
    | ok p =>
      obtain ⟨tags, state⟩ := p
      obtain ⟨-, rfl⟩ := parse_eq_ok_iff.1 hparse
      rw [hparse] at h
      cases h
      exact ⟨tags, tagsOf?_eq_some_iff.2 hparse, insert_addNames⟩
  · rintro ⟨tags, htags, rfl⟩
    rw [tagsOf?_eq_some_iff.1 htags]
    exact congrArg _ insert_addNames

/-- The first of some texts is registered, and then the others. -/
theorem addPartials_cons_eq_ok_iff {text : Text × Text} :
    t.addPartials (text :: texts) = .ok u ↔
      ∃ v, t.addPartial text.1 text.2 = .ok v ∧ v.addPartials texts = .ok u := by
  have hcons : t.addPartials (text :: texts) =
      (t.addPartial text.1 text.2).bind fun v => v.addPartials texts := List.foldlM_cons
  rw [hcons]
  cases t.addPartial text.1 text.2 with
  | error => exact ⟨nofun, fun ⟨_, h, _⟩ => nomatch h⟩
  | ok v => exact ⟨fun h => ⟨v, rfl, h⟩, fun ⟨_, h, hv⟩ => by cases h; exact hv⟩

/-- Texts are registered behind others. -/
theorem addPartials_append (h : t.addPartials texts = .ok u) :
    t.addPartials (texts ++ more) = u.addPartials more := by
  have happend : t.addPartials (texts ++ more) =
      (t.addPartials texts).bind fun v => v.addPartials more := List.foldlM_append
  rw [happend, h]
  rfl

/-- Registering partials leaves the options apart. -/
theorem addPartials_withOptions (options : Options) (h : t.addPartials texts = .ok u) :
    (t.withOptions options).addPartials texts = .ok (u.withOptions options) := by
  induction texts generalizing t with
  | nil => cases h; rfl
  | cons text texts ih =>
    obtain ⟨v, hadd, hrest⟩ := addPartials_cons_eq_ok_iff.1 h
    obtain ⟨tags, htags, rfl⟩ := addPartial_eq_ok_iff.1 hadd
    exact addPartials_cons_eq_ok_iff.2 ⟨_, addPartial_eq_ok_iff.2 ⟨tags, htags, rfl⟩, ih hrest⟩

/-- Registering partials changes neither the tags of the template nor its options. -/
theorem tags_options_addPartials (h : t.addPartials texts = .ok u) :
    u.tags = t.tags ∧ u.options = t.options := by
  induction texts generalizing t with
  | nil => cases h; exact ⟨rfl, rfl⟩
  | cons text texts ih =>
    obtain ⟨v, hadd, hrest⟩ := addPartials_cons_eq_ok_iff.1 h
    obtain ⟨tags, -, rfl⟩ := addPartial_eq_ok_iff.1 hadd
    have hnext := ih hrest
    exact hnext

/-- **Names.** The names of the partials that have a place in the texts become known, in order. -/
theorem names_addPartials (h : t.addPartials texts = .ok u) :
    u.names = addNames t.names (texts.flatMap fun text => inclusionsOf text.2) := by
  induction texts generalizing t with
  | nil => cases h; rfl
  | cons text texts ih =>
    obtain ⟨v, hadd, hrest⟩ := addPartials_cons_eq_ok_iff.1 h
    obtain ⟨tags, htags, rfl⟩ := addPartial_eq_ok_iff.1 hadd
    have hinclusions : inclusionsOf text.2 = Tag.inclusionsList tags := by
      rw [inclusionsOf, htags]
      rfl
    rw [ih hrest, List.flatMap_cons, addNames_append, hinclusions]
    rfl

/-- **Partials.** The partial of a name is the last text under it. -/
theorem find?_addPartials (h : t.addPartials texts = .ok u) (name : Text) :
    u.find? name = match texts.reverse.find? fun text => text.1 = name with
      | some text => tagsOf? text.2
      | none => t.find? name := by
  induction texts generalizing t with
  | nil => cases h; rfl
  | cons text texts ih =>
    obtain ⟨v, hadd, hrest⟩ := addPartials_cons_eq_ok_iff.1 h
    obtain ⟨tags, htags, rfl⟩ := addPartial_eq_ok_iff.1 hadd
    rw [ih hrest, List.reverse_cons, List.find?_append]
    cases texts.reverse.find? fun text => text.1 = name with
    | some found => rfl
    | none =>
      rw [find?_insert]
      by_cases hname : text.1 = name <;> simp [hname, htags]

/-- A name that no text is registered under keeps its partial, or has none as before. -/
theorem find?_addPartials_of_not_mem (h : t.addPartials texts = .ok u)
    (hname : name ∉ texts.map (·.1)) : u.find? name = t.find? name := by
  have hnone : texts.reverse.find? (fun text => text.1 = name) = none := by
    refine List.find?_eq_none.2 fun text htext heq => hname ?_
    exact List.mem_map.2 ⟨text, List.mem_reverse.1 htext, of_decide_eq_true heq⟩
  rw [find?_addPartials h, hnone]

/-- A text whose name no other text has is the partial of that name. -/
theorem find?_addPartials_of_nodup (h : t.addPartials texts = .ok u)
    (hnodup : (texts.map (·.1)).Nodup) {text : Text × Text} (htext : text ∈ texts) :
    u.find? text.1 = tagsOf? text.2 := by
  rw [find?_addPartials h]
  cases hfound : texts.reverse.find? fun other => other.1 = text.1 with
  | none =>
    have hnone := List.find?_eq_none.1 hfound text (List.mem_reverse.2 htext)
    exact absurd (decide_eq_true rfl) hnone
  | some found =>
    have hname : found.1 = text.1 := by simpa using List.find?_some hfound
    have hmem : found ∈ texts := List.mem_reverse.1 (List.mem_of_find?_eq_some hfound)
    rw [List.inj_on_of_nodup_map hnodup hmem htext hname]

/-- Texts can be registered if each of them is a template. -/
theorem exists_addPartials_iff :
    (∃ u, t.addPartials texts = .ok u) ↔ ∀ text ∈ texts, ∃ tags, tagsOf? text.2 = some tags := by
  induction texts generalizing t with
  | nil => exact ⟨fun _ => nofun, fun _ => ⟨t, rfl⟩⟩
  | cons text texts ih =>
    constructor
    · rintro ⟨u, h⟩
      obtain ⟨v, hadd, hrest⟩ := addPartials_cons_eq_ok_iff.1 h
      obtain ⟨tags, htags, -⟩ := addPartial_eq_ok_iff.1 hadd
      exact List.forall_mem_cons.2 ⟨⟨tags, htags⟩, ih.1 ⟨u, hrest⟩⟩
    · intro h
      obtain ⟨⟨tags, htags⟩, hrest⟩ := List.forall_mem_cons.1 h
      obtain ⟨u, hu⟩ := (ih (t := t.insert text.1 tags (Tag.inclusionsList tags))).2 hrest
      exact ⟨u, addPartials_cons_eq_ok_iff.2
        ⟨_, addPartial_eq_ok_iff.2 ⟨tags, htags, rfl⟩, hu⟩⟩

/-- Texts under different names can be registered in any order: every name has the same partial. -/
theorem addPartials_of_perm (h : t.addPartials texts = .ok u) (hnodup : (texts.map (·.1)).Nodup)
    (hperm : texts.Perm more) :
    ∃ v, t.addPartials more = .ok v ∧ ∀ name, u.find? name = v.find? name := by
  obtain ⟨v, hv⟩ : ∃ v, t.addPartials more = .ok v :=
    exists_addPartials_iff.2 fun text htext =>
      exists_addPartials_iff.1 ⟨u, h⟩ text (hperm.mem_iff.2 htext)
  have hnames := hperm.map (·.1)
  refine ⟨v, hv, fun name => ?_⟩
  by_cases hname : name ∈ texts.map (·.1)
  · obtain ⟨text, htext, rfl⟩ := List.mem_map.1 hname
    rw [find?_addPartials_of_nodup h hnodup htext,
      find?_addPartials_of_nodup hv (hnames.nodup_iff.1 hnodup) (hperm.mem_iff.1 htext)]
  · rw [find?_addPartials_of_not_mem h hname,
      find?_addPartials_of_not_mem hv fun hin => hname (hnames.mem_iff.2 hin)]

/-- A name has no partial if it had none and no text is registered under it. -/
theorem find?_addPartials_eq_none_iff (h : t.addPartials texts = .ok u) :
    u.find? name = none ↔ name ∉ texts.map (·.1) ∧ t.find? name = none := by
  induction texts generalizing t with
  | nil => cases h; simp
  | cons text texts ih =>
    obtain ⟨v, hadd, hrest⟩ := addPartials_cons_eq_ok_iff.1 h
    obtain ⟨tags, -, rfl⟩ := addPartial_eq_ok_iff.1 hadd
    rw [ih hrest, find?_insert, List.map_cons, List.mem_cons, not_or]
    by_cases hname : text.1 = name
    · simp [hname]
    · simp [hname, Ne.symm hname]

end Template

/-! ## Loading -/

namespace Loader

variable {load : Loader} {path : Path} {requests : List Request} {r : Request} {error : Error}

/-- The tags of the template at a path, if there is one. -/
def tags? (load : Loader) (path : Path) : Option (List Tag) :=
  (load path).toOption.bind tagsOf?

theorem tags?_eq_some_iff : load.tags? path = some tags ↔
    ∃ src, load path = .ok src ∧ tagsOf? src = some tags := by
  unfold tags?
  cases load path with
  | error => exact ⟨nofun, fun ⟨_, h, _⟩ => nomatch h⟩
  | ok src => exact ⟨fun h => ⟨src, rfl, h⟩, fun ⟨_, h, htags⟩ => by cases h; exact htags⟩

/-- The template at a path is what its text parses to. -/
theorem exists_parse_of_tags? (h : load.tags? path = some tags) :
    ∃ src state, load path = .ok src ∧ parse {} src = .ok (tags, state) := by
  obtain ⟨src, hload, htags⟩ := tags?_eq_some_iff.1 h
  exact ⟨src, _, hload, tagsOf?_eq_some_iff.1 htags⟩

/-- What a text parses to is the template at its path. -/
theorem tags?_of_parse {state : ParseState} (hload : load path = .ok src)
    (hparse : parse {} src = .ok (tags, state)) : load.tags? path = some tags :=
  tags?_eq_some_iff.2 ⟨src, hload, by rw [tagsOf?, hparse]; rfl⟩

/-- What is read at a path is the template there, with the names that it refers to, each once. -/
theorem read_eq_ok_iff : load.read path = .ok (tags, names) ↔
    load.tags? path = some tags ∧ names = addNames [] (Tag.inclusionsList tags) := by
  unfold read tags?
  cases load path with
  | error => exact ⟨nofun, fun ⟨h, _⟩ => nomatch h⟩
  | ok src =>
    simp only [Except.toOption, Option.bind_some]
    constructor
    · intro h
      cases hparse : parse {} src with
      | error => rw [hparse] at h; cases h
      | ok p =>
        obtain ⟨tags', state⟩ := p
        obtain ⟨-, rfl⟩ := parse_eq_ok_iff.1 hparse
        rw [hparse] at h
        cases h
        exact ⟨tagsOf?_eq_some_iff.2 hparse, rfl⟩
    · rintro ⟨htags, rfl⟩
      rw [tagsOf?_eq_some_iff.1 htags]
      rfl

/-- Nothing is read at a path that has no text, or one that is no template. -/
theorem read_eq_error_iff : load.read path = .error error ↔
    load path = .error error ∨ ∃ src, load path = .ok src ∧ parse {} src = .error error := by
  unfold read
  cases load path with
  | error => simp
  | ok src => cases hparse : parse {} src <;> simp [Except.map, hparse]

/-- The texts that requests are answered with, under the names of the requests. What is no template
is left out. -/
def registered (load : Loader) (requests : List Request) : List (Text × Text) :=
  requests.filterMap fun r =>
    ((load r.path).toOption.filter fun src => (tagsOf? src).isSome).map fun src => (r.name, src)

/-- An answer that is a template is registered. -/
theorem registered_cons_of_ok (hload : load r.path = .ok src) (htags : tagsOf? src = some tags) :
    load.registered (r :: requests) = (r.name, src) :: load.registered requests := by
  have htext : (load r.path).toOption.filter (fun src => (tagsOf? src).isSome) = some src := by
    simp [hload, Except.toOption, htags]
  rw [registered, List.filterMap_cons, htext]
  rfl

/-- An answer that is none, or no template, is left out. -/
theorem registered_cons_of_error (h : load.read r.path = .error error) :
    load.registered (r :: requests) = load.registered requests := by
  have htext : (load r.path).toOption.filter (fun src => (tagsOf? src).isSome) = none := by
    rcases read_eq_error_iff.1 h with hload | ⟨src, hload, hparse⟩
    · simp [hload, Except.toOption]
    · simp [hload, hparse, Except.toOption, tagsOf?]
  rw [registered, List.filterMap_cons, htext]
  rfl

theorem mem_registered {text : Text × Text} : text ∈ load.registered requests ↔
    ∃ r ∈ requests, r.name = text.1 ∧ load r.path = .ok text.2 ∧ (tagsOf? text.2).isSome := by
  simp only [registered, List.mem_filterMap, Option.map_eq_some_iff, Option.filter_eq_some_iff]
  constructor
  · rintro ⟨r, hr, src, ⟨hload, htags⟩, rfl⟩
    refine ⟨r, hr, rfl, ?_, htags⟩
    cases h : load r.path with
    | error => rw [h] at hload; cases hload
    | ok => rw [h] at hload; cases hload; rfl
  · rintro ⟨r, hr, hname, hload, htags⟩
    exact ⟨r, hr, text.2, ⟨by rw [hload]; rfl, htags⟩, by rw [hname]⟩

end Loader

namespace Loads

variable {load : Loader} {t : Template} {pending : List (Text × Path)} {l : Loading} {error : Error}

/-- **Loading is registering.** What loading makes of a template comes of registering the texts that
its requests are answered with, in order. -/
theorem addPartials (h : Loads load t pending l) :
    t.addPartials (load.registered l.requests) = .ok l.template := by
  induction h with
  | done => rfl
  | skip _ _ ih => exact ih
  | fail _ hread =>
    rw [Loader.registered_cons_of_error hread]
    rfl
  | take _ hread _ ih =>
    obtain ⟨htags, rfl⟩ := Loader.read_eq_ok_iff.1 hread
    obtain ⟨src, hload, htags⟩ := Loader.tags?_eq_some_iff.1 htags
    rw [Loader.registered_cons_of_ok hload htags]
    refine Template.addPartials_cons_eq_ok_iff.2 ⟨_, ?_, ih⟩
    exact Template.addPartial_eq_ok_iff.2 ⟨_, htags, Template.insert_addNames⟩

end Loads

end Mustache
