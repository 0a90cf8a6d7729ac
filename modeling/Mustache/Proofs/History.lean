import Mustache.Proofs.Closed
import Mustache.Proofs.InBounds
import Mustache.Proofs.Registration

/-!
# Histories of templates

A template is parsed, and then operations are done to it: texts are registered as partials, options
are set and partials are loaded, and some of this may fail. `Template.History` follows the
operations and keeps the texts that they registered, in order.

Whatever was done, the template is the one that was parsed, under other options, with these texts
registered one after another (`Template.History.addPartials`). So the names that it has recorded are
those that its own tags refer to, and then those that the texts refer to, each once and where it
came first (`names_of_history`).
-/

namespace Mustache

/-- Something to be done to a template. -/
inductive Operation
  | addPartial (name src : Text)
  | withOptions (options : Options)
  | loadPartials (load : Loader) (dir : Path)

/-- What an operation comes to. -/
structure Outcome where
  /-- The template afterwards. -/
  template : Template
  /-- The texts that were registered as partials, under their names and in order. -/
  registered : List (Text × Text)
  /-- The error that the operation ended with. -/
  error? : Option Error

/-- What registering a text comes to. The text is registered if there is no error. -/
def Addition.outcome (a : Addition) (name src : Text) : Outcome :=
  ⟨a.template, if a.error?.isNone then [(name, src)] else [], a.error?⟩

namespace Template

/-- Doing something to a template. A loading has an outcome if it ends. -/
inductive Performs (t : Template) : Operation → Outcome → Prop
  | addPartial (name src : Text) :
      Performs t (.addPartial name src) ((t.register name src).outcome name src)
  | withOptions (options : Options) :
      Performs t (.withOptions options) ⟨t.withOptions options, [], none⟩
  /-- Loading registers the texts that are answered to its requests, as far as they are
  templates. -/
  | loaded {load : Loader} {dir : Path} {l : Loading} : t.LoadsFrom load dir l →
      Performs t (.loadPartials load dir) ⟨l.template, load.registered l.requests, l.error?⟩

/-- Doing one thing after another to a template. The last two arguments are the template afterwards
and all the texts that were registered on the way. -/
inductive History (t : Template) : List Operation → Template → List (Text × Text) → Prop
  | nil : History t [] t []
  | snoc {u : Template} {ops : List Operation} {texts : List (Text × Text)} {op : Operation}
      {o : Outcome} : History t ops u texts → u.Performs op o →
      History t (ops ++ [op]) o.template (texts ++ o.registered)

variable {t u v : Template} {ops : List Operation} {texts : List (Text × Text)} {op : Operation}
  {o : Outcome} {name src : Text} {error : Error}

/-- A text that is registered is kept. -/
theorem Performs.added (h : t.addPartial name src = .ok u) :
    t.Performs (.addPartial name src) ⟨u, [(name, src)], none⟩ := by
  have hop : t.Performs (.addPartial name src) _ := .addPartial name src
  obtain ⟨error, hregister⟩ | ⟨v, hv, hregister⟩ := t.register_cases name src
  · rw [Template.addPartial, hregister] at h
    cases h
  · rw [hv] at h
    cases h
    rwa [hregister] at hop

/-- **One operation.** Beside setting options, an operation registers texts and does no more. -/
theorem Performs.addPartials (h : t.Performs op o) :
    (t.withOptions o.template.options).addPartials o.registered = .ok o.template := by
  cases h with
  | addPartial name src =>
    obtain ⟨error, hregister⟩ | ⟨u, hadd, hregister⟩ := t.register_cases name src
    · rw [hregister]
      rfl
    · have hone : t.addPartials [(name, src)] = .ok u :=
        addPartials_cons_eq_ok_iff.2 ⟨u, hadd, rfl⟩
      simp only [hregister, Addition.outcome, (tags_options_addPartials hone).2]
      exact hone
  | withOptions => rfl
  | loaded hload =>
    have hall := (loads_iff.2 hload).addPartials
    simp only [(tags_options_addPartials hall).2]
    exact hall

/-- **A history.** Whatever was done, the template comes of registering texts under its options. -/
theorem History.addPartials (h : t.History ops u texts) :
    (t.withOptions u.options).addPartials texts = .ok u := by
  induction h with
  | nil => rfl
  | @snoc u ops texts op o _ hop ih =>
    have hfirst := addPartials_withOptions o.template.options ih
    have hoptions : (t.withOptions o.template.options).addPartials texts =
        .ok (u.withOptions o.template.options) := hfirst
    rw [addPartials_append hoptions]
    exact hop.addPartials

/-- What is done to a template that operations lead to leads to a template of this kind again. -/
theorem History.reached (h : t.History ops u texts) (ht : t.Reached) : u.Reached := by
  induction h with
  | nil => exact ht
  | snoc _ hop ih =>
    cases hop with
    | addPartial name src =>
      obtain ⟨error, hregister⟩ | ⟨v, hadd, hregister⟩ := Template.register_cases _ name src
      · rw [hregister]
        exact ih
      · rw [hregister]
        exact ih.addPartial hadd
    | withOptions options => exact ih.withOptions options
    | loaded hload => exact ih.load hload

/-- The names of a template grow at the end. -/
theorem History.prefix_names (h : t.History ops u texts) : t.names <+: u.names := by
  rw [names_addPartials h.addPartials]
  exact prefix_addNames ..

/-- A text that is no template leaves the template as it is. -/
theorem Performs.eq_of_refused (h : t.Performs (.addPartial name src) o)
    (hparse : Mustache.parse {} src = .error error) : o = ⟨t, [], some error⟩ := by
  cases h
  rw [register_of_error hparse]
  rfl

/-- A template that was parsed knows the names that its tags refer to, and no partials. -/
theorem eq_of_parse (h : Template.parse src = .ok t) :
    t = ⟨t.tags, [], addNames [] (Tag.inclusionsList t.tags), {}⟩ := by
  unfold Template.parse at h
  cases hparse : Mustache.parse {} src with
  | error => rw [hparse] at h; cases h
  | ok p =>
    obtain ⟨tags, state⟩ := p
    obtain ⟨-, rfl⟩ := parse_eq_ok_iff.1 hparse
    rw [hparse] at h
    cases h
    rfl

end Template

/-- A reader records the names of the partials as it comes to their places. -/
theorem Reader.names_of_parse {src : Text} {steps : Nat} {tags : List Tag} {state : ParseState}
    (hsteps : src.length < steps) (h : Reader.parse src steps {} = .ok (tags, state)) :
    state.names = (Tag.inclusionsList tags).eraseDups := by
  have hsettles := parse_settles {} hsteps
  rw [h] at hsettles
  cases hparse : Mustache.parse {} src with
  | error => rw [hparse] at hsettles; cases hsettles
  | ok p =>
    rw [hparse] at hsettles
    cases hsettles
    obtain ⟨-, rfl⟩ := parse_eq_ok_iff.1 hparse
    exact addNames_nil _

/-- **The names of a template.** A template was parsed, and then operations were done to it. Its
names are those of the partials that have a place in its own tags, and then in the texts that were
registered, in the order of the registrations: each once, where it came first. A reader of a text
records them as it comes to their places.

So a name does not come twice, what is done next adds names at the end, and every partial that has a
place somewhere is known. The partial of a name is the last text that was registered under it; the
names without one are missing. A text that is no template changes nothing. -/
theorem names_of_history {src : Text} {t u : Template} {ops : List Operation}
    {texts : List (Text × Text)} (hparse : Template.parse src = .ok t)
    (h : t.History ops u texts) :
    u.names = (Tag.inclusionsList u.tags ++
      texts.flatMap fun text => inclusionsOf text.2).eraseDups ∧
    (∀ src steps tags state, src.length < steps → Reader.parse src steps {} = .ok (tags, state) →
      state.names = (Tag.inclusionsList tags).eraseDups) ∧
    u.tags = t.tags ∧ u.names.Nodup ∧
    (∀ ops' v texts', u.History ops' v texts' → u.names <+: v.names) ∧
    u.Recorded ∧
    (∀ name, u.find? name =
      (texts.reverse.find? fun text => text.1 = name).bind fun text => tagsOf? text.2) ∧
    u.missing = u.names.filter (fun name => name ∉ texts.map (·.1)) ∧
    ∀ name src error o, parse {} src = .error error → u.Performs (.addPartial name src) o →
      o = ⟨u, [], some error⟩ := by
  have htexts := h.addPartials
  have htags : u.tags = t.tags := (Template.tags_options_addPartials htexts).1
  have hnames : u.names = addNames []
      (Tag.inclusionsList u.tags ++ texts.flatMap fun text => inclusionsOf text.2) := by
    rw [Template.names_addPartials htexts, addNames_append, htags]
    exact congrArg (addNames · _) (congrArg Template.names (Template.eq_of_parse hparse))
  have hnone : ∀ name, (t.withOptions u.options).find? name = none := by
    intro name
    rw [Template.eq_of_parse hparse]
    rfl
  have hfind : ∀ name, u.find? name =
      (texts.reverse.find? fun text => text.1 = name).bind fun text => tagsOf? text.2 := by
    intro name
    rw [Template.find?_addPartials htexts, hnone]
    cases texts.reverse.find? fun text => text.1 = name <;> rfl
  have hmissing : ∀ name, (u.find? name).isNone = decide (name ∉ texts.map (·.1)) := by
    intro name
    rw [Bool.eq_iff_iff, Option.isNone_iff_eq_none, decide_eq_true_iff,
      Template.find?_addPartials_eq_none_iff htexts, and_iff_left (hnone name)]
  refine ⟨hnames.trans (addNames_nil _), fun _ _ _ _ => Reader.names_of_parse, htags, ?_, ?_,
    (h.reached (.parse hparse)).recorded, hfind, ?_, ?_⟩
  · rw [hnames]
    exact nodup_addNames List.nodup_nil
  · exact fun _ _ _ h' => h'.prefix_names
  · exact List.filter_congr fun name _ => hmissing name
  · exact fun _ _ _ _ hrefused hop => hop.eq_of_refused hrefused

/-- A partial that is registered twice, a text that is refused and a loading that ends at a partial
of a partial. -/
theorem names_of_history_twice :
    let page := "{{>b}}{{#s}}{{>a}}{{/s}}{{^s}}{{>b}}{{/s}}".toList
    let s := (Memory.mk [(⟨"v/c.mustache".toList⟩, "{{>d}}".toList)]).source
    let ops : List Operation := [.addPartial ['a'] "{{>c}}{{>b}}".toList,
      .addPartial ['a'] ['{', '{'], .withOptions ⟨.indexed⟩, .loadPartials s.load ⟨['v']⟩,
      .addPartial ['a'] "{{>e}}{{>a}}".toList]
    let texts := [(['a'], "{{>c}}{{>b}}".toList), (['c'], "{{>d}}".toList),
      (['a'], "{{>e}}{{>a}}".toList)]
    ∃ t u, Template.parse page = .ok t ∧ t.History ops u texts ∧
      u.names = [['b'], ['a'], ['c'], ['d'], ['e']] ∧ u.missing = [['b'], ['d'], ['e']] ∧
      u.find? ['a'] = some [.inclusion ['e'], .inclusion ['a']] := by
  intro page s ops texts
  let tags : List Tag := [.inclusion ['b'],
    .block ['s'] "{{>a}}".toList {} [.inclusion ['a']], .inverted ['s'] [.inclusion ['b']]]
  have hpage : Mustache.parse {} page = .ok (tags, ⟨{}, [['b'], ['a']]⟩) := by decide +kernel
  have hparse : Template.parse page = .ok ⟨tags, [], [['b'], ['a']], {}⟩ := by
    rw [Template.parse, hpage]
    rfl
  let first : Template :=
    ⟨tags, [(['a'], [.inclusion ['c'], .inclusion ['b']])], [['b'], ['a'], ['c']], {}⟩
  have hfirst : (⟨tags, [], [['b'], ['a']], {}⟩ : Template).addPartial ['a']
      "{{>c}}{{>b}}".toList = .ok first :=
    Template.addPartial_eq_ok_iff.2 ⟨_, by decide +kernel, rfl⟩
  have hrefused : first.register ['a'] ['{', '{'] =
      ⟨first, some (.malformed ⟨.unclosedTag, ['{', '{']⟩)⟩ :=
    Template.register_of_error (by decide +kernel)
  have hopen : first.Performs (.addPartial ['a'] ['{', '{']) _ := .addPartial ['a'] ['{', '{']
  rw [hrefused] at hopen
  let l := (first.withOptions ⟨.indexed⟩).loadPartials s ⟨['v']⟩
  have hload : (first.withOptions ⟨.indexed⟩).LoadsFrom s.load ⟨['v']⟩ l :=
    Template.loadsFrom_loadPartials _ s ⟨['v']⟩
  have hregistered : s.load.registered l.requests = [(['c'], "{{>d}}".toList)] := by
    decide +kernel
  have hlast : l.template.addPartial ['a'] "{{>e}}{{>a}}".toList =
      .ok (l.template.insert ['a'] [.inclusion ['e'], .inclusion ['a']] [['e'], ['a']]) :=
    Template.addPartial_eq_ok_iff.2 ⟨_, by decide +kernel, rfl⟩
  have h := ((((Template.History.nil.snoc (.added hfirst)).snoc hopen).snoc
    (.withOptions ⟨.indexed⟩)).snoc (.loaded hload)).snoc (.added hlast)
  simp only [hregistered] at h
  obtain ⟨hnames, -, htags, -, -, -, hfind, hmissing, -⟩ := names_of_history hparse h
  rw [htags] at hnames
  rw [hnames] at hmissing
  exact ⟨_, _, hparse, h, hnames.trans (by decide +kernel), hmissing.trans (by decide +kernel),
    (hfind ['a']).trans (by decide +kernel)⟩

end Mustache
