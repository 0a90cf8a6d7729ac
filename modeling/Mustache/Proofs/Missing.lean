import Mustache.Proofs.Failure
import Mustache.Proofs.History

/-!
# Which names are missing

A template that has come to know a name never forgets it. The names that it knows are those that it
refers to, by its own tags or by those of its partials, and those that a text referred to which
another one was registered over later (`Template.History.mem_names_iff`).

So a name can be missing that nothing refers to any more (`not_refers_of_missing`), and then loading
asks for its file all the same and may fail at it. This comes of registering a name again and of
nothing else: `missing_of_history` says which names are missing, and a loading does not add to those
that linger, since it never registers a name that has a partial.
-/

namespace Mustache

/-- A name lingers if a text refers to it that another one was registered over later. -/
def Lingers (texts : List (Text × Text)) (name : Text) : Prop :=
  ∃ front other src back, texts = front ++ (other, src) :: back ∧ other ∈ back.map (·.1) ∧
    name ∈ inclusionsOf src

/-- If no name is registered twice, then no name lingers. -/
theorem not_lingers_of_nodup {texts : List (Text × Text)} {name : Text}
    (h : (texts.map (·.1)).Nodup) : ¬ Lingers texts name := by
  rintro ⟨front, other, src, back, rfl, hback, -⟩
  rw [List.map_append, List.map_cons, List.nodup_append] at h
  exact (List.nodup_cons.1 h.2.1).1 hback

namespace Template

variable {t u : Template} {ops : List Operation} {texts : List (Text × Text)} {name : Text}

/-- A partial of that name has a place in a template or in one of its partials. -/
def Refers (t : Template) (name : Text) : Prop :=
  name ∈ Tag.inclusionsList t.tags ∨
    ∃ other tags, t.find? other = some tags ∧ name ∈ Tag.inclusionsList tags

/-- It suffices to look at the partials in the table. -/
theorem refers_iff : t.Refers name ↔ (Tag.inclusionsList t.tags ++ t.partials.flatMap
    fun p => (t.find? p.1).elim [] Tag.inclusionsList).contains name = true := by
  rw [List.contains_iff_mem, List.mem_append, List.mem_flatMap]
  refine or_congr_right ⟨?_, ?_⟩
  · rintro ⟨other, tags, hfind, hname⟩
    exact ⟨_, mem_of_valueAt? hfind, by rw [hfind]; exact hname⟩
  · rintro ⟨p, -, hname⟩
    cases hfind : t.find? p.1 with
    | none => rw [hfind] at hname; exact absurd hname List.not_mem_nil
    | some tags => rw [hfind] at hname; exact ⟨p.1, tags, hfind, hname⟩

instance (t : Template) (name : Text) : Decidable (t.Refers name) :=
  decidable_of_iff' _ refers_iff

/-- What a registered text refers to, the template refers to through it, unless it lingers. -/
theorem refers_or_lingers (h : t.addPartials texts = .ok u) {text : Text × Text}
    (htext : text ∈ texts) (hname : name ∈ inclusionsOf text.2) :
    u.Refers name ∨ Lingers texts name := by
  obtain ⟨front, back, rfl⟩ := List.append_of_mem htext
  by_cases hback : text.1 ∈ back.map (·.1)
  · exact .inr ⟨front, text.1, text.2, back, rfl, hback, hname⟩
  · have hlater : back.reverse.find? (fun later => later.1 = text.1) = none :=
      List.find?_eq_none.2 fun later hlater heq => hback <|
        List.mem_map.2 ⟨later, List.mem_reverse.1 hlater, of_decide_eq_true heq⟩
    have hlast : (front ++ text :: back).reverse.find? (fun later => later.1 = text.1) =
        some text := by
      rw [List.reverse_append, List.reverse_cons, List.find?_append, List.find?_append, hlater]
      simp
    have hfind := find?_addPartials h text.1
    rw [hlast] at hfind
    cases htags : tagsOf? text.2 with
    | none => rw [inclusionsOf, htags] at hname; exact absurd hname List.not_mem_nil
    | some tags =>
      rw [inclusionsOf, htags] at hname
      exact .inl (.inr ⟨text.1, tags, hfind.trans htags, hname⟩)

/-- **The names of a template.** It knows what it refers to and what lingers. -/
theorem History.mem_names_iff {src : Text} (hparse : Template.parse src = .ok t)
    (h : t.History ops u texts) : name ∈ u.names ↔ u.Refers name ∨ Lingers texts name := by
  have htexts := h.addPartials
  have htags : u.tags = t.tags := (tags_options_addPartials htexts).1
  have hnames : name ∈ u.names ↔
      name ∈ Tag.inclusionsList u.tags ∨ ∃ text ∈ texts, name ∈ inclusionsOf text.2 := by
    rw [names_addPartials htexts, mem_addNames, List.mem_flatMap, eq_of_parse hparse, htags]
    exact or_congr_left (mem_addNames.trans (or_iff_right List.not_mem_nil))
  rw [hnames]
  constructor
  · rintro (hroot | ⟨text, htext, hname⟩)
    · exact .inl (.inl hroot)
    · exact refers_or_lingers htexts htext hname
  · rintro ((hroot | ⟨other, tags, hfind, hname⟩) | ⟨front, other, src, back, rfl, -, hname⟩)
    · exact .inl hroot
    · exact hnames.1 ((h.reached (.parse hparse)).recorded.2 other tags hfind name hname)
    · exact .inr ⟨(other, src), List.mem_append_right _ (.head _), hname⟩

end Template

/-- What loading registers has the names of its requests, in order. -/
theorem Loader.sublist_registered (load : Loader) (requests : List Request) :
    ((load.registered requests).map (·.1)).Sublist (requests.map (·.name)) := by
  induction requests with
  | nil => exact .slnil
  | cons r requests ih =>
    cases hread : load.read r.path with
    | error =>
      rw [registered_cons_of_error hread]
      exact ih.cons _
    | ok p =>
      obtain ⟨src, hload, htags⟩ := tags?_eq_some_iff.1 (read_eq_ok_iff.1 hread).1
      rw [registered_cons_of_ok hload htags]
      exact ih.cons_cons _

/-- Loading lets no further name linger: it registers no name twice, and none that has a partial. -/
theorem lingers_of_loads {load : Loader} {t u : Template} {pending : List (Text × Path)}
    {l : Loading} {texts : List (Text × Text)} {name : Text} (htexts : t.addPartials texts = .ok u)
    (h : Loads load u pending l) (hname : Lingers (texts ++ load.registered l.requests) name) :
    Lingers texts name := by
  obtain ⟨front, other, src, back, hsplit, hback, hname⟩ := hname
  have hnone : ¬ Lingers (load.registered l.requests) name :=
    not_lingers_of_nodup ((load.sublist_registered l.requests).nodup h.nodup_requests)
  have hnew : other ∈ texts.map (·.1) → other ∉ (load.registered l.requests).map (·.1) := by
    intro hold hmem
    obtain ⟨r, hr, hrother⟩ := List.mem_map.1 ((load.sublist_registered l.requests).subset hmem)
    have hnone := hrother ▸ h.find?_of_mem_requests r hr
    exact ((Template.find?_addPartials_eq_none_iff htexts).1 hnone).1 hold
  -- The text that is registered over stands in front of what loading registers, or is part of it.
  rcases List.append_eq_append_iff.1 hsplit with ⟨more, -, hmore⟩ | ⟨more, htexts, hmore⟩
  · exact absurd ⟨more, other, src, back, hmore, hback, hname⟩ hnone
  · cases more with
    | nil => exact absurd ⟨[], other, src, back, hmore.symm, hback, hname⟩ hnone
    | cons text more =>
      obtain ⟨rfl, rfl⟩ := List.cons.inj hmore
      refine ⟨front, other, src, more, htexts, ?_, hname⟩
      have hback : other ∈ more.map (·.1) ∨ other ∈ (load.registered l.requests).map (·.1) :=
        List.mem_append.1 (List.map_append ▸ hback)
      refine hback.resolve_right (hnew ?_)
      rw [htexts, List.map_append]
      exact List.mem_append_right _ (.head _)

/-- **The names that are missing.** A template was parsed, and then operations were done to it. The
names that are missing are those without a partial that the template refers to, or that linger. So
as long as no name is registered twice, the template refers to every name that is missing. If a
loading fails, the last name that it asked for is missing; the template that it leaves refers to
that name, or it lingered before. -/
theorem missing_of_history {src : Text} {t u : Template} {ops : List Operation}
    {texts : List (Text × Text)} (hparse : Template.parse src = .ok t)
    (h : t.History ops u texts) :
    (∀ name, name ∈ u.missing ↔
      u.find? name = none ∧ (u.Refers name ∨ Lingers texts name)) ∧
    ((texts.map (·.1)).Nodup → ∀ name ∈ u.missing, u.Refers name) ∧
    ∀ load dir l error, u.LoadsFrom load dir l → l.error? = some error →
      ∃ answered last, l.requests = answered ++ [last] ∧ load.read last.path = .error error ∧
        last.name ∈ l.template.missing ∧
        (l.template.Refers last.name ∨ Lingers texts last.name) := by
  have hmissing : ∀ {ops' : List Operation} {v : Template} {texts' : List (Text × Text)},
      t.History ops' v texts' → ∀ name, name ∈ v.missing ↔
        v.find? name = none ∧ (v.Refers name ∨ Lingers texts' name) := fun h' name => by
    rw [Template.mem_missing_iff, h'.mem_names_iff hparse, and_comm]
  refine ⟨hmissing h, fun hnodup name hname => ?_, fun load dir l error hload herror => ?_⟩
  · exact ((hmissing h name).1 hname).2.resolve_right (not_lingers_of_nodup hnodup)
  · have hloads : Loads load u (u.pending dir) l := loads_iff.2 hload
    obtain ⟨answered, last, hrequests, -, hread, hnone⟩ := hloads.exists_last herror
    have hknown : last.name ∈ l.template.names :=
      hloads.mem_names_of_mem_requests (fun _ => Template.mem_names_of_mem_pending) last
        (hrequests ▸ List.mem_append_right _ (.head _))
    have hlast : last.name ∈ l.template.missing := Template.mem_missing_iff.2 ⟨hknown, hnone⟩
    refine ⟨answered, last, hrequests, hread, hlast, ?_⟩
    exact ((hmissing (h.snoc (.loaded hload)) _).1 hlast).2.imp_right
      (lingers_of_loads h.addPartials hloads)

/-- A text is registered over, and two names that it refers to are missing. The template refers to
one of them still, and its file is loaded; nothing refers to the other one, and loading fails at
it. -/
theorem missing_of_history_twice :
    let texts := [(['a'], "{{>b}}{{#s}}{{>c}}{{/s}}".toList), (['a'], "{{>c}}".toList)]
    let s := (Memory.mk [(⟨"v/c.mustache".toList⟩, ['x'])]).source
    ∃ t u, Template.parse "{{>a}}".toList = .ok t ∧
      t.History [.addPartial ['a'] "{{>b}}{{#s}}{{>c}}{{/s}}".toList,
        .addPartial ['a'] "{{>c}}".toList] u texts ∧
      u.missing = [['b'], ['c']] ∧ u.Refers ['c'] ∧ ¬ u.Refers ['b'] ∧ Lingers texts ['b'] ∧
      let l := u.loadPartials s ⟨['v']⟩
      l.error? = some (.notFound ⟨"v/b.mustache".toList⟩) ∧ ['b'] ∈ l.template.missing ∧
        ¬ l.template.Refers ['b'] := by
  intro texts s
  let t : Template := ⟨[.inclusion ['a']], [], [['a']], {}⟩
  have hpage : Mustache.parse {} "{{>a}}".toList = .ok (t.tags, ⟨{}, t.names⟩) := by
    decide +kernel
  have hparse : Template.parse "{{>a}}".toList = .ok t := by
    rw [Template.parse, hpage]
    rfl
  let first : Template := t.insert ['a']
    [.inclusion ['b'], .block ['s'] "{{>c}}".toList {} [.inclusion ['c']]] [['b'], ['c']]
  let u : Template := first.insert ['a'] [.inclusion ['c']] [['c']]
  have hfirst : t.addPartial ['a'] "{{>b}}{{#s}}{{>c}}{{/s}}".toList = .ok first :=
    Template.addPartial_eq_ok_iff.2 ⟨_, by decide +kernel, rfl⟩
  have hadd : first.addPartial ['a'] "{{>c}}".toList = .ok u :=
    Template.addPartial_eq_ok_iff.2 ⟨_, by decide +kernel, rfl⟩
  have h := (Template.History.nil.snoc (.added hfirst)).snoc (.added hadd)
  have herror : (u.loadPartials s ⟨['v']⟩).error? =
      some (.notFound ⟨"v/b.mustache".toList⟩) := by decide +kernel
  obtain ⟨hmissing, -, hfails⟩ := missing_of_history hparse h
  have hb : ¬ u.Refers ['b'] := by decide +kernel
  have hlingers : Lingers texts ['b'] :=
    ((hmissing ['b']).1 (by decide +kernel)).2.resolve_left hb
  obtain ⟨answered, last, hrequests, -, hlast, -⟩ :=
    hfails s.load ⟨['v']⟩ _ _ (u.loadsFrom_loadPartials s ⟨['v']⟩) herror
  have hall : (u.loadPartials s ⟨['v']⟩).requests =
      [⟨['c'], ⟨"v/c.mustache".toList⟩⟩] ++ [⟨['b'], ⟨"v/b.mustache".toList⟩⟩] := by
    decide +kernel
  obtain ⟨-, hname⟩ := List.append_inj' (hrequests.symm.trans hall) rfl
  rw [List.singleton_inj.1 hname] at hlast
  exact ⟨t, u, hparse, h, by decide +kernel, by decide +kernel, hb, hlingers, herror, hlast,
    by decide +kernel⟩

/-- **A name that nothing refers to can be missing.** A text that referred to it was registered
over. -/
theorem not_refers_of_missing :
    ¬ ∀ (src : Text) (t u : Template) (texts : List (Text × Text)), Template.parse src = .ok t →
      t.addPartials texts = .ok u → ∀ name ∈ u.missing, u.Refers name := by
  intro h
  let t : Template := ⟨[.inclusion ['a']], [], [['a']], {}⟩
  have hpage : Mustache.parse {} "{{>a}}".toList = .ok (t.tags, ⟨{}, t.names⟩) := by
    decide +kernel
  have hparse : Template.parse "{{>a}}".toList = .ok t := by
    rw [Template.parse, hpage]
    rfl
  let first : Template := t.insert ['a'] [.inclusion ['b']] [['b']]
  have hfirst : t.addPartial ['a'] "{{>b}}".toList = .ok first :=
    Template.addPartial_eq_ok_iff.2 ⟨_, by decide +kernel, rfl⟩
  have hadd : t.addPartials [(['a'], "{{>b}}".toList), (['a'], ['x'])] =
      .ok (first.insert ['a'] [.literal ['x']] []) := by
    refine Template.addPartials_cons_eq_ok_iff.2 ⟨first, hfirst, ?_⟩
    refine Template.addPartials_cons_eq_ok_iff.2 ⟨_, ?_, rfl⟩
    exact Template.addPartial_eq_ok_iff.2 ⟨_, by decide +kernel, rfl⟩
  exact absurd (h _ t _ _ hparse hadd ['b'] (by decide +kernel)) (by decide +kernel)

end Mustache
