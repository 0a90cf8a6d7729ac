import Mathlib.Control.Monad.Basic
import Mustache.Proofs.Loads

/-!
# Closed templates

A template is closed if every partial that has a place in its tags, or in those of one of its
partials, is there. Its names are all that can be missing: every operation records the names of the
partials that its tags refer to (`Template.Reached.recorded`). While partials are loaded, every name
has a partial or is on the stack (`Loads.covered`). So a loading that comes to the end of the stack
leaves a closed template behind, which needs no further loading (`load_closed`).
-/

namespace Mustache

namespace Template

/-- Every partial that has a place in a template or in one of its partials is there. -/
def Closed (t : Template) : Prop :=
  (∀ name ∈ Tag.inclusionsList t.tags, (t.find? name).isSome = true) ∧
    ∀ other tags, t.find? other = some tags →
      ∀ name ∈ Tag.inclusionsList tags, (t.find? name).isSome = true

/-- Every partial that has a place in a template or in one of its partials is known by name. -/
def Recorded (t : Template) : Prop :=
  (∀ name ∈ Tag.inclusionsList t.tags, name ∈ t.names) ∧
    ∀ other tags, t.find? other = some tags → ∀ name ∈ Tag.inclusionsList tags, name ∈ t.names

/-- One template has all that another one has, and perhaps more partials. -/
structure Extends (t u : Template) : Prop where
  tags : u.tags = t.tags
  options : u.options = t.options
  partials : ∀ name tags, t.find? name = some tags → u.find? name = some tags

variable {t u v : Template} {name : Text} {tags : List Tag} {names : List Text}

theorem Extends.refl (t : Template) : t.Extends t :=
  ⟨rfl, rfl, fun _ _ h => h⟩

theorem Extends.trans (h : t.Extends u) (h' : u.Extends v) : t.Extends v :=
  ⟨h'.tags.trans h.tags, h'.options.trans h.options, fun name tags hfind =>
    h'.partials name tags (h.partials name tags hfind)⟩

/-- A partial that was not there is added to the others. -/
theorem extends_insert (h : t.find? name = none) : t.Extends (t.insert name tags names) := by
  refine ⟨rfl, rfl, fun other tags' hfind => ?_⟩
  have hne : name ≠ other := by
    rintro rfl
    rw [h] at hfind
    cases hfind
  rw [find?_insert, if_neg hne]
  exact hfind

/-- A name without a partial has none in a template with fewer partials. -/
theorem Extends.find?_eq_none (h : t.Extends u) (hnone : u.find? name = none) :
    t.find? name = none := by
  cases hfind : t.find? name with
  | none => rfl
  | some tags => rw [h.partials name tags hfind] at hnone; cases hnone

/-- A name with a partial keeps having one. -/
theorem isSome_insert (h : (t.find? name).isSome = true) (other : Text) :
    ((t.insert other tags names).find? name).isSome = true := by
  rw [find?_insert]
  split
  · rfl
  · exact h

/-- The names stay known when a partial is registered, and those that it refers to become known. -/
theorem Recorded.insert (h : t.Recorded) (hnames : ∀ x ∈ Tag.inclusionsList tags, x ∈ names) :
    (t.insert name tags names).Recorded := by
  have hold : ∀ x ∈ t.names, x ∈ addNames t.names names := fun x hx => mem_addNames.2 (.inl hx)
  refine ⟨fun x hx => hold x (h.1 x hx), fun other tags' hfind x hx => ?_⟩
  rw [find?_insert] at hfind
  split at hfind
  · cases hfind
    exact mem_addNames.2 (.inr (hnames x hx))
  · exact hold x (h.2 other tags' hfind x hx)

/-- The missing names are those that are known and have no partial. -/
theorem mem_missing_iff : name ∈ t.missing ↔ name ∈ t.names ∧ t.find? name = none := by
  rw [missing, List.mem_filter, Option.isNone_iff_eq_none]

/-- On the stack that loading begins with are the missing names, in the directory that is given. -/
theorem mem_pending_iff {dir : Path} {p : Text × Path} :
    p ∈ t.pending dir ↔ p.1 ∈ t.missing ∧ p.2 = dir := by
  simp only [pending, List.mem_reverse, List.mem_map]
  constructor
  · rintro ⟨name, hname, rfl⟩
    exact ⟨hname, rfl⟩
  · rintro ⟨hname, rfl⟩
    exact ⟨p.1, hname, rfl⟩

/-- Nothing is missing if every name that is known has a partial. -/
theorem missing_eq_nil_iff : t.missing = [] ↔ ∀ x ∈ t.names, (t.find? x).isSome = true := by
  simp only [missing, List.filter_eq_nil_iff, Option.isNone_iff_eq_none,
    ← Option.isSome_iff_ne_none]

/-- A template is closed if nothing is missing among all the names that it refers to. -/
theorem Recorded.closed (h : t.Recorded) (hmissing : t.missing = []) : t.Closed := by
  have hall := missing_eq_nil_iff.1 hmissing
  exact ⟨fun x hx => hall x (h.1 x hx), fun other tags hfind x hx =>
    hall x (h.2 other tags hfind x hx)⟩

/-- A template without missing partials asks no loader for anything and stays as it is. -/
theorem loadsFrom_iff_of_missing (h : t.missing = []) {load : Loader} {dir : Path} {l : Loading} :
    t.LoadsFrom load dir l ↔ l = ⟨t, [], none⟩ := by
  have hpending : t.pending dir = [] := by rw [pending, h]; rfl
  rw [LoadsFrom, hpending]
  constructor
  · rintro ⟨steps, hsteps⟩
    cases steps <;> exact (Option.some.inj hsteps).symm
  · rintro rfl
    exact ⟨0, rfl⟩

end Template

namespace Loads

variable {load : Loader} {t : Template} {pending : List (Text × Path)} {l : Loading}

/-- Loading adds partials and changes nothing else. -/
theorem extends_template (h : Loads load t pending l) : t.Extends l.template := by
  induction h with
  | done => exact .refl _
  | skip _ _ ih => exact ih
  | fail => exact .refl _
  | take hname _ _ ih => exact (Template.extends_insert hname).trans ih

/-- Loading records what the partials that it registers refer to. -/
theorem recorded (h : Loads load t pending l) (ht : t.Recorded) : l.template.Recorded := by
  induction h with
  | done => exact ht
  | skip _ _ ih => exact ih ht
  | fail => exact ht
  | take _ hread _ ih =>
    exact ih (ht.insert fun _ hx => (Loader.mem_names_of_read hread).2 hx)

/-- If every name has a partial or is on the stack, then a loading that succeeds finds a partial for
every name. -/
theorem covered (h : Loads load t pending l) (hok : l.error? = none)
    (hcover : ∀ x ∈ t.names, (t.find? x).isSome = true ∨ x ∈ pending.map (·.1)) :
    ∀ x ∈ l.template.names, (l.template.find? x).isSome = true := by
  induction h with
  | done => exact fun x hx => (hcover x hx).resolve_right List.not_mem_nil
  | @skip t name dir pending l hname _ ih =>
    refine ih hok fun x hx => ?_
    rcases hcover x hx with hfound | hpending
    · exact .inl hfound
    · rcases List.mem_cons.1 hpending with rfl | hpending
      · exact .inl hname
      · exact .inr hpending
  | fail => cases hok
  | @take t name dir pending l tags names hname _ _ ih =>
    refine ih hok fun x hx => ?_
    rw [List.map_append, List.mem_append]
    -- A name is known from before, or the new partial refers to it; then it goes on the stack
    -- unless it has a partial already.
    rcases mem_addNames.1 hx with hx | hx
    · rcases hcover x hx with hfound | hpending
      · exact .inl (Template.isSome_insert hfound name)
      · rcases List.mem_cons.1 hpending with rfl | hpending
        · exact .inl (by simp [Template.find?_insert])
        · exact .inr (.inr hpending)
    · cases hfind : t.find? x with
      | some tags' => exact .inl (Template.isSome_insert (by simp [hfind]) name)
      | none => exact .inr (.inl (by simp [Template.below, hx, hfind]))

end Loads

namespace Template

variable {t : Template} {load : Loader} {dir : Path} {l : Loading}

/-- Every name of a template has a partial or is on the stack that loading begins with. -/
theorem covered_pending (x : Text) (hx : x ∈ t.names) :
    (t.find? x).isSome = true ∨ x ∈ (t.pending dir).map (·.1) := by
  cases hfind : t.find? x with
  | some tags => exact .inl rfl
  | none => exact .inr (by simp [pending, missing, hx, hfind])

/-- Every operation records the names that the tags refer to. -/
theorem Reached.recorded (h : t.Reached) : t.Recorded := by
  induction h with
  | @parse src t hparse =>
    unfold Template.parse at hparse
    cases hp : Mustache.parse {} src with
    | error => rw [hp] at hparse; cases hparse
    | ok p =>
      obtain ⟨tags, state⟩ := p
      rw [hp] at hparse
      cases hparse
      exact ⟨fun _ hx => (mem_names_of_parse hp).2 hx, fun _ _ hfind => nomatch hfind⟩
  | @addPartial t t' name src _ hadd ih =>
    rw [Template.addPartial_eq_map] at hadd
    cases hp : Mustache.parse {} src with
    | error => rw [hp] at hadd; cases hadd
    | ok p =>
      obtain ⟨tags, state⟩ := p
      rw [hp] at hadd
      cases hadd
      exact ih.insert fun _ hx => (mem_names_of_parse hp).2 hx
  | withOptions _ _ ih => exact ih
  | load _ hload ih => exact (loads_iff.2 hload).recorded ih

/-- A loading that succeeds leaves nothing missing. -/
theorem LoadsFrom.missing_eq_nil (h : t.LoadsFrom load dir l) (hok : l.error? = none) :
    l.template.missing = [] :=
  missing_eq_nil_iff.2 ((loads_iff.2 h).covered hok covered_pending)

end Template

/-- **A load that succeeds is closed.** Whatever led to a template, whatever the loader and the
directory: once loading succeeds, every partial that has a place anywhere is there, nothing that was
there before has changed, and loading again asks for nothing and changes nothing. So what is
compiled has no missing partial, with any loader, from a text or from the text at a path. -/
theorem load_closed :
    (∀ t : Template, t.Reached → ∀ load dir l, t.LoadsFrom load dir l → l.error? = none →
      l.template.Closed ∧ l.template.missing = [] ∧ t.Extends l.template ∧
        ∀ load' dir' l', l.template.LoadsFrom load' dir' l' ↔ l' = ⟨l.template, [], none⟩) ∧
    (∀ load options dir src t, Compiles load options dir src (.ok t) →
      t.Closed ∧ t.missing = []) ∧
    (∀ options s src t, (compileText options s src).result = .ok t →
      t.Closed ∧ t.missing = []) ∧
    ∀ options s path t, (compilePath options s path).result = .ok t →
      t.Closed ∧ t.missing = [] := by
  have hclosed : ∀ {t : Template} {load : Loader} {dir : Path} {l : Loading}, t.Reached →
      t.LoadsFrom load dir l → l.error? = none → l.template.Closed ∧ l.template.missing = [] :=
    fun ht hload hok =>
      have hmissing := hload.missing_eq_nil hok
      ⟨(ht.load hload).recorded.closed hmissing, hmissing⟩
  have hcompiles : ∀ load options dir src t, Compiles load options dir src (.ok t) →
      t.Closed ∧ t.missing = [] := by
    intro load options dir src t h
    cases h with
    | loaded hparse hload hok =>
      exact hclosed ((Template.Reached.parse hparse).withOptions _) hload hok
  refine ⟨fun t ht load dir l hload hok => ?_, hcompiles, fun options s src t h => ?_,
    fun options s path t h => ?_⟩
  · obtain ⟨hall, hmissing⟩ := hclosed ht hload hok
    exact ⟨hall, hmissing, (loads_iff.2 hload).extends_template, fun load' dir' l' =>
      Template.loadsFrom_iff_of_missing hmissing⟩
  · exact hcompiles _ _ _ _ t (h ▸ Compilation.compiles_ofText options s none ⟨[]⟩ src)
  · unfold compilePath at h
    split at h
    next => cases h
    next src hsrc =>
      exact hcompiles _ _ _ _ t
        (h ▸ Compilation.compiles_ofText options s (some path) path.directory src)

/-- Two partials that refer to each other, one of them also to itself and to one that is registered
already. -/
theorem load_closed_cycle :
    let t : Template := ⟨[.inclusion ['a']], [(['c'], [.literal ['x']])], [['a']], {}⟩
    let s := (Memory.mk [(⟨"v/a.mustache".toList⟩, "{{>c}}{{>b}}{{>a}}".toList),
      (⟨"v/b.mustache".toList⟩, "{{>a}}".toList)]).source
    t.Reached ∧ (t.loadPartials s ⟨['v']⟩).error? = none ∧
      (t.loadPartials s ⟨['v']⟩).template.Closed ∧
      (t.loadPartials s ⟨['v']⟩).template.missing = [] ∧
      t.Extends (t.loadPartials s ⟨['v']⟩).template := by
  intro t s
  have hroot : Template.parse "{{>a}}".toList = .ok ⟨[.inclusion ['a']], [], [['a']], {}⟩ := by
    have hparse : parse {} "{{>a}}".toList = .ok ([.inclusion ['a']], ⟨{}, [['a']]⟩) := by
      decide +kernel
    rw [Template.parse, hparse]
    rfl
  have hadd : Template.addPartial ⟨[.inclusion ['a']], [], [['a']], {}⟩ ['c'] ['x'] = .ok t := by
    have hparse : parse {} ['x'] = .ok ([.literal ['x']], {}) := by decide +kernel
    rw [Template.addPartial_eq_map, hparse]
    rfl
  have ht : t.Reached := .addPartial (.parse hroot) hadd
  have hok : (t.loadPartials s ⟨['v']⟩).error? = none := by decide +kernel
  obtain ⟨hclosed, hmissing, hextends, -⟩ :=
    load_closed.1 t ht s.load ⟨['v']⟩ _ (t.loadsFrom_loadPartials s ⟨['v']⟩) hok
  exact ⟨ht, hok, hclosed, hmissing, hextends⟩

end Mustache
