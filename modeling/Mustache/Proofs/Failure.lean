import Mustache.Proofs.Requests

/-!
# Loadings that fail

A loading fails at the last name that it asks for, whose file is missing or no template. Everything
that it asked for before was answered with a template (`Loads.exists_last`), so the template is left
with just these partials registered, in order (`load_failed`). The last name stays missing: a name
is known before it is asked for (`Loads.mem_names_of_mem_requests`).
-/

namespace Mustache

namespace Loader

variable {load : Loader} {requests : List Request}

/-- The answers to some requests are registered, and then those to others. -/
theorem registered_append (more : List Request) :
    load.registered (requests ++ more) = load.registered requests ++ load.registered more :=
  List.filterMap_append

/-- If every answer is a template, then all of them are registered. -/
theorem map_registered (h : ∀ r ∈ requests, (load.tags? r.path).isSome = true) :
    (load.registered requests).map (fun text => (text.1, Except.ok text.2)) =
      requests.map fun r => (r.name, load r.path) := by
  induction requests with
  | nil => rfl
  | cons r requests ih =>
    obtain ⟨tags, htags⟩ := Option.isSome_iff_exists.1 (h r (.head _))
    obtain ⟨src, hload, htags⟩ := tags?_eq_some_iff.1 htags
    rw [registered_cons_of_ok hload htags, List.map_cons, List.map_cons,
      ih fun q hq => h q (.tail _ hq), hload]

end Loader

/-- The names that loading begins with are known. -/
theorem Template.mem_names_of_mem_pending {t : Template} {dir : Path} {p : Text × Path}
    (h : p ∈ t.pending dir) : p.1 ∈ t.names :=
  (mem_missing_iff.1 (mem_pending_iff.1 h).1).1

namespace Loads

variable {load : Loader} {t : Template} {pending : List (Text × Path)} {l : Loading} {error : Error}

/-- A loading that fails was answered with templates up to its last request, and fails at that. -/
theorem exists_last (h : Loads load t pending l) (herror : l.error? = some error) :
    ∃ answered last, l.requests = answered ++ [last] ∧
      (∀ r ∈ answered, (load.tags? r.path).isSome = true) ∧
      load.read last.path = .error error ∧ l.template.find? last.name = none := by
  induction h with
  | done => cases herror
  | skip _ _ ih => exact ih herror
  | fail hname hread =>
    cases herror
    exact ⟨[], _, rfl, fun _ hr => absurd hr List.not_mem_nil, hread, hname⟩
  | take _ hread _ ih =>
    obtain ⟨answered, last, hrequests, hanswered, hlast, hfind⟩ := ih herror
    refine ⟨_ :: answered, last, by rw [hrequests]; rfl, fun r hr => ?_, hlast, hfind⟩
    rcases List.mem_cons.1 hr with rfl | hr
    · rw [(Loader.read_eq_ok_iff.1 hread).1]
      rfl
    · exact hanswered r hr

/-- If the names on the stack are known, then every name that is asked for is. -/
theorem mem_names_of_mem_requests (h : Loads load t pending l)
    (hpending : ∀ p ∈ pending, p.1 ∈ t.names) : ∀ r ∈ l.requests, r.name ∈ l.template.names := by
  induction h with
  | done => exact fun r hr => absurd hr List.not_mem_nil
  | skip _ _ ih => exact ih fun p hp => hpending p (.tail _ hp)
  | fail =>
    intro r hr
    obtain rfl := List.mem_singleton.1 hr
    exact hpending _ (.head _)
  | @take t name dir pending l tags names _ _ hrest ih =>
    -- What was known stays known, and what goes on the stack for the file becomes known with it.
    have hknown : ∀ p ∈ t.below (partialPath dir name) names ++ pending,
        p.1 ∈ (t.insert name tags names).names := by
      intro p hp
      rcases List.mem_append.1 hp with hp | hp
      · simp only [Template.below, List.mem_reverse, List.mem_map, List.mem_filter] at hp
        obtain ⟨x, ⟨hx, -⟩, rfl⟩ := hp
        exact mem_addNames.2 (.inr hx)
      · exact mem_addNames.2 (.inl (hpending p (.tail _ hp)))
    intro r hr
    rcases List.mem_cons.1 hr with rfl | hr
    · have hname : name ∈ (t.insert name tags names).names :=
        mem_addNames.2 (.inl (hpending _ (.head _)))
      rw [Template.names_addPartials hrest.addPartials]
      exact mem_addNames.2 (.inl hname)
    · exact ih hknown r hr

end Loads

/-- **A load that fails.** All requests but the last were answered with templates. The template is
left as if these had been registered by hand, in the order of the requests: the names that they
refer to are recorded behind the others, each request's name has the partial that was answered, and
nothing else has changed: not the tags, the options or a partial that was there. The last name that
was asked for has no partial and is missing, and the error is that of its file: there is none, or
its text is no template. -/
theorem load_failed {t : Template} {load : Loader} {dir : Path} {l : Loading} {error : Error}
    (h : t.LoadsFrom load dir l) (herror : l.error? = some error) :
    ∃ answered last, l.requests = answered ++ [last] ∧
      (∀ r ∈ answered, ∃ src tags state, load r.path = .ok src ∧
        parse {} src = .ok (tags, state) ∧ l.template.find? r.name = some tags) ∧
      (load.registered answered).map (fun text => (text.1, .ok text.2)) =
        answered.map (fun r => (r.name, load r.path)) ∧
      t.addPartials (load.registered answered) = .ok l.template ∧
      l.template.names = addNames t.names
        ((load.registered answered).flatMap fun text => inclusionsOf text.2) ∧
      t.Extends l.template ∧
      (∀ name, name ∉ answered.map (·.name) → l.template.find? name = t.find? name) ∧
      l.template.find? last.name = none ∧ last.name ∈ l.template.missing ∧
      (load last.path = .error error ∨ ∃ src fault, load last.path = .ok src ∧
        parse {} src = .error error ∧ error = .malformed fault) := by
  have hloads : Loads load t (t.pending dir) l := loads_iff.2 h
  obtain ⟨answered, last, hrequests, hanswered, hread, hlast⟩ := hloads.exists_last herror
  have htexts := Loader.map_registered hanswered
  have hnames : (load.registered answered).map (·.1) = answered.map (·.name) := by
    simpa [Function.comp_def] using congrArg (List.map Prod.fst) htexts
  have hregistered : load.registered l.requests = load.registered answered := by
    rw [hrequests, Loader.registered_append, Loader.registered_cons_of_error hread]
    exact List.append_nil _
  have hadd := hloads.addPartials
  rw [hregistered] at hadd
  refine ⟨answered, last, hrequests, fun r hr => ?_, htexts, hadd,
    Template.names_addPartials hadd, hloads.extends_template, fun name hname => ?_, hlast, ?_, ?_⟩
  · obtain ⟨tags, htags⟩ := Option.isSome_iff_exists.1 (hanswered r hr)
    obtain ⟨src, state, hload, hparse⟩ := Loader.exists_parse_of_tags? htags
    have hmem : r ∈ l.requests := hrequests ▸ List.mem_append_left _ hr
    exact ⟨src, tags, state, hload, hparse, hloads.find?_of_tags? hmem htags⟩
  · exact Template.find?_addPartials_of_not_mem hadd (hnames ▸ hname)
  · have hpending : ∀ p ∈ t.pending dir, p.1 ∈ t.names := fun _ => Template.mem_names_of_mem_pending
    have hmem : last ∈ l.requests := hrequests ▸ List.mem_append_right _ (.head _)
    refine List.mem_filter.2 ⟨hloads.mem_names_of_mem_requests hpending last hmem, ?_⟩
    rw [hlast]
    rfl
  · rcases Loader.read_eq_error_iff.1 hread with hload | ⟨src, hload, hparse⟩
    · exact .inl hload
    · obtain ⟨fault, hfault⟩ := exists_fault_of_parse hparse
      exact .inr ⟨src, fault, hload, hparse, hfault⟩

/-- Two partials are loaded, one of which refers to the other, and the file of a third one is no
template; what that refers to is not recorded. -/
theorem load_failed_section :
    let t : Template := ⟨[.inclusion ['a'], .inclusion ['b']], [(['c'], [.literal ['x']])],
      [['a'], ['b']], {}⟩
    let s := (Memory.mk [(⟨"v/a.mustache".toList⟩, "{{#s}}{{>e}}".toList),
      (⟨"v/b.mustache".toList⟩, "{{>d}}{{>c}}".toList), (⟨"v/d.mustache".toList⟩, ['x'])]).source
    let l := t.loadPartials s ⟨['v']⟩
    let error : Error := .malformed ⟨.unclosedSection ['s'], "{{#s}}".toList⟩
    t.LoadsFrom s.load ⟨['v']⟩ l ∧ l.error? = some error ∧
      l.requests.map (·.name) = [['b'], ['d']] ++ [['a']] ∧
      t.addPartials [(['b'], "{{>d}}{{>c}}".toList), (['d'], ['x'])] = .ok l.template ∧
      l.template.names = [['a'], ['b'], ['d'], ['c']] ∧
      l.template.find? ['a'] = none ∧ ['a'] ∈ l.template.missing ∧
      parse {} "{{#s}}{{>e}}".toList = .error error := by
  intro t s l error
  have hload : t.LoadsFrom s.load ⟨['v']⟩ l := t.loadsFrom_loadPartials s ⟨['v']⟩
  have herror : l.error? = some error := by decide +kernel
  obtain ⟨answered, last, hrequests, -, -, hadd, hnames, -, -, hfind, hmissing, -⟩ :=
    load_failed hload herror
  have hall : l.requests = [⟨['b'], ⟨"v/b.mustache".toList⟩⟩, ⟨['d'], ⟨"v/d.mustache".toList⟩⟩] ++
      [⟨['a'], ⟨"v/a.mustache".toList⟩⟩] := by decide +kernel
  obtain ⟨rfl, hlast⟩ := List.append_inj' (hrequests.symm.trans hall) rfl
  obtain rfl := List.singleton_inj.1 hlast
  have hregistered : s.load.registered [⟨['b'], ⟨"v/b.mustache".toList⟩⟩,
      ⟨['d'], ⟨"v/d.mustache".toList⟩⟩] =
        [(['b'], "{{>d}}{{>c}}".toList), (['d'], ['x'])] := by decide +kernel
  rw [hregistered] at hadd hnames
  exact ⟨hload, herror, by rw [hall]; rfl, hadd, hnames.trans (by decide +kernel), hfind, hmissing,
    by decide +kernel⟩

end Mustache
