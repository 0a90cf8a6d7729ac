import Mustache.Proofs.Bounded
import Mustache.Proofs.Directory
import Mustache.Proofs.Failure

/-!
# Loading from one directory

If no name has a slash in it, then everything is looked for in the directory that loading begins
with, perhaps written in other ways. What loading leads to does not depend on the order then: the
names that are missing, and those that the file of such a name refers to (`Template.Leads`). Loading
succeeds if and only if each of these names has a template in the directory, and registers just
these templates (`load_directory`).

A name that is asked for is one that loading leads to (`LoadsIn.leads_of_requests`), and a loading
that succeeds finds a partial for every such name (`LoadsIn.find?_of_leads`). One that fails leaves
less to load: what loading leads to then is what it led to before, without the partials that are
there by now (`LoadsIn.leads_iff`). So it can be taken up again, with other files if need be.
-/

namespace Mustache

/-! ## What loading leads to -/

/-- The names that loading leads to, if every file is looked for in one directory: those that are
missing, and those without a partial that the file of such a name refers to. -/
inductive Template.Leads (t : Template) (load : Loader) (dir : Path) : Text → Prop
  | missing {name : Text} : name ∈ t.missing → Leads t load dir name
  | reference {other name : Text} {tags : List Tag} : Leads t load dir other →
      load.tags? (partialPath dir other) = some tags → name ∈ Tag.inclusionsList tags →
      t.find? name = none → Leads t load dir name

/-- No name that loading leads to has a slash in it, so that no file is looked for in another
directory. -/
def Template.Flat (t : Template) (load : Loader) (dir : Path) : Prop :=
  ∀ name, t.Leads load dir name → '/' ∉ name

/-- Every name that loading leads to has a template in the directory. -/
def Template.Complete (t : Template) (load : Loader) (dir : Path) : Prop :=
  ∀ name, t.Leads load dir name → (load.tags? (partialPath dir name)).isSome = true

/-- The loader has the same templates for all ways to write a path. -/
def Loader.Uniform (load : Loader) : Prop :=
  ∀ p q, p.Same q → load.tags? p = load.tags? q

/-- In memory a path is its components. -/
theorem Memory.uniform_load (m : Memory) : m.load.Uniform := by
  intro p q hsame
  have hfiles : (fun file : Path × Text => decide (file.1.Same p)) =
      fun file => decide (file.1.Same q) := by
    funext file
    exact decide_eq_decide.2 ⟨fun h => h.trans hsame, fun h => h.trans hsame.symm⟩
  unfold Loader.tags? Memory.load
  rw [hfiles]
  cases m.files.find? fun file => decide (file.1.Same q) <;> rfl

namespace Template

variable {t : Template} {load : Loader} {dir : Path} {name : Text}

/-- Loading leads only to names without a partial. -/
theorem Leads.find?_eq_none (h : t.Leads load dir name) : t.find? name = none := by
  cases h with
  | missing hmissing => exact (mem_missing_iff.1 hmissing).2
  | reference _ _ _ hnone => exact hnone

/-- Loading leads only to names of a list if the missing names are in it, and with a name those that
its file refers to. -/
theorem Leads.mem_of_closed {names : List Text} (h : t.Leads load dir name)
    (hmissing : ∀ x ∈ t.missing, x ∈ names)
    (hfile : ∀ x ∈ names, ∀ tags ∈ load.tags? (partialPath dir x),
      ∀ y ∈ Tag.inclusionsList tags, t.find? y = none → y ∈ names) : name ∈ names := by
  induction h with
  | missing hname => exact hmissing _ hname
  | reference _ htags hname hnone ih => exact hfile _ ih _ htags _ hname hnone

end Template

/-! ## Runs in one directory -/

/-- A loading of missing names from one directory. The files that it registers are also those of
another loader, with which no name has a slash in it that loading leads to. -/
structure LoadsIn (load load' : Loader) (t : Template) (dir : Path)
    (pending : List (Text × Path)) (l : Loading) : Prop where
  loads : Loads load t pending l
  uniform : load.Uniform
  flat : t.Flat load' dir
  pending : ∀ p ∈ pending, p.1 ∈ t.missing ∧ p.2.Same dir
  same : ∀ name, t.find? name = none → (l.template.find? name).isSome = true →
    load'.tags? (partialPath dir name) = load.tags? (partialPath dir name)

namespace LoadsIn

variable {load load' : Loader} {t : Template} {dir : Path} {pending : List (Text × Path)}
  {l : Loading} {name : Text} {tags : List Tag}

/-- **What is asked for.** Loading leads to every name that is asked for, and its file is looked for
in the directory. -/
theorem leads_of_requests (h : LoadsIn load load' t dir pending l) :
    ∀ r ∈ l.requests, t.Leads load' dir r.name ∧ r.path.Same (partialPath dir r.name) := by
  intro r hr
  have hfile : ∀ name d tags, t.Leads load' dir name ∧ d.Same dir →
      load.tags? (partialPath d name) = some tags → l.template.find? name = some tags →
      ∀ x ∈ Tag.inclusionsList tags, t.find? x = none →
        t.Leads load' dir x ∧ (partialPath d name).directory.Same dir := by
    rintro name d tags ⟨hleads, hd⟩ htags hfind x hx hnone
    have hslash : '/' ∉ name := h.flat name hleads
    have hread : load'.tags? (partialPath dir name) = some tags := by
      rw [h.same name hleads.find?_eq_none (by rw [hfind]; rfl), ← htags]
      exact h.uniform _ _ (same_partialPath hslash hd.symm)
    exact ⟨.reference hleads hread hx hnone, (same_directory_partialPath hslash).trans hd⟩
  have hpending : ∀ p ∈ pending, t.Leads load' dir p.1 ∧ p.2.Same dir := fun p hp =>
    ⟨.missing (h.pending p hp).1, (h.pending p hp).2⟩
  obtain ⟨d, ⟨hleads, hd⟩, hpath⟩ := h.loads.forall_requests hpending hfile r hr
  exact ⟨hleads, hpath ▸ same_partialPath (h.flat _ hleads) hd⟩

/-- What a file refers to that was registered is known. -/
theorem mem_names_of_tags? (h : LoadsIn load load' t dir pending l) {r : Request}
    (hr : r ∈ l.requests) (htags : load.tags? r.path = some tags)
    (hname : name ∈ Tag.inclusionsList tags) : name ∈ l.template.names := by
  obtain ⟨src, hload, htags'⟩ := Loader.tags?_eq_some_iff.1 htags
  have hmem : (r.name, src) ∈ load.registered l.requests :=
    Loader.mem_registered.2 ⟨r, hr, rfl, hload, by rw [htags']; rfl⟩
  rw [Template.names_addPartials h.loads.addPartials]
  refine mem_addNames.2 (.inr (List.mem_flatMap.2 ⟨_, hmem, ?_⟩))
  rwa [inclusionsOf, htags']

/-- Names that are known stay known. -/
theorem mem_names (h : LoadsIn load load' t dir pending l) (hname : name ∈ t.names) :
    name ∈ l.template.names := by
  rw [Template.names_addPartials h.loads.addPartials]
  exact mem_addNames.2 (.inl hname)

/-- A partial that was not there before is the template in the directory. Loading leads to its name,
and what it refers to is known. -/
theorem leads_of_find? (h : LoadsIn load load' t dir pending l) (hnone : t.find? name = none)
    (hfind : l.template.find? name = some tags) :
    t.Leads load' dir name ∧ load'.tags? (partialPath dir name) = some tags ∧
      ∀ x ∈ Tag.inclusionsList tags, x ∈ l.template.names := by
  obtain ⟨r, hr, rfl, htags⟩ := h.loads.exists_request hnone hfind
  obtain ⟨hleads, hpath⟩ := h.leads_of_requests r hr
  refine ⟨hleads, ?_, fun x hx => h.mem_names_of_tags? hr htags hx⟩
  rw [h.same _ hnone (by rw [hfind]; rfl), ← h.uniform _ _ hpath, htags]

/-! ## What a loading leaves to load -/

/-- Loading led to every name that is missing afterwards: it was missing before, or a file refers to
it that was registered. -/
theorem leads_of_missing (h : LoadsIn load load' t dir pending l)
    (hname : name ∈ l.template.missing) : t.Leads load' dir name := by
  obtain ⟨hknown, hnone⟩ := Template.mem_missing_iff.1 hname
  have hnone' : t.find? name = none := h.loads.extends_template.find?_eq_none hnone
  rw [Template.names_addPartials h.loads.addPartials] at hknown
  rcases mem_addNames.1 hknown with hknown | hrefers
  · exact .missing (Template.mem_missing_iff.2 ⟨hknown, hnone'⟩)
  · obtain ⟨text, htext, hrefers⟩ := List.mem_flatMap.1 hrefers
    obtain ⟨r, hr, -, hsrc, htemplate⟩ := Loader.mem_registered.1 htext
    obtain ⟨tags, htags⟩ := Option.isSome_iff_exists.1 htemplate
    rw [inclusionsOf, htags] at hrefers
    have hread : load.tags? r.path = some tags := Loader.tags?_eq_some_iff.2 ⟨_, hsrc, htags⟩
    obtain ⟨hleads, hfile, -⟩ := h.leads_of_find? (h.loads.find?_of_mem_requests r hr)
      (h.loads.find?_of_tags? hr hread)
    exact .reference hleads hfile hrefers hnone'

/-- **What is left to load.** After a loading, with success or without, loading leads to the names
that it led to before and that have no partial yet. -/
theorem leads_iff (h : LoadsIn load load' t dir pending l) : l.template.Leads load' dir name ↔
    t.Leads load' dir name ∧ l.template.find? name = none := by
  constructor
  · refine fun hname => ⟨?_, hname.find?_eq_none⟩
    induction hname with
    | missing hmissing => exact h.leads_of_missing hmissing
    | reference _ htags hname hnone ih =>
      exact .reference ih htags hname (h.loads.extends_template.find?_eq_none hnone)
  · rintro ⟨hname, hnone⟩
    induction hname with
    | missing hmissing =>
      have hknown := h.mem_names (Template.mem_missing_iff.1 hmissing).1
      exact .missing (Template.mem_missing_iff.2 ⟨hknown, hnone⟩)
    | @reference other name tags hother htags hname _ ih =>
      cases hfind : l.template.find? other with
      | none => exact .reference (ih hfind) htags hname hnone
      | some tags' =>
        -- The file that refers to the name was registered, so the name is known.
        obtain ⟨-, hfile, hknown⟩ := h.leads_of_find? hother.find?_eq_none hfind
        obtain rfl : tags = tags' := Option.some.inj (htags.symm.trans hfile)
        exact .missing (Template.mem_missing_iff.2 ⟨hknown name hname, hnone⟩)

/-- The partials that are there after a loading and what is left to load of the rest come to the
partials that were there and all that loading leads to. -/
theorem find?_or_leads_iff (h : LoadsIn load load' t dir pending l) :
    (l.template.find? name = some tags ∨
      l.template.Leads load' dir name ∧ load'.tags? (partialPath dir name) = some tags) ↔
    (t.find? name = some tags ∨
      t.Leads load' dir name ∧ load'.tags? (partialPath dir name) = some tags) := by
  rw [h.leads_iff]
  constructor
  · rintro (hfind | ⟨⟨hleads, -⟩, htags⟩)
    · cases hold : t.find? name with
      | some old => exact .inl ((h.loads.extends_template.partials _ _ hold).symm.trans hfind)
      | none =>
        obtain ⟨hleads, htags, -⟩ := h.leads_of_find? hold hfind
        exact .inr ⟨hleads, htags⟩
    · exact .inr ⟨hleads, htags⟩
  · rintro (hold | ⟨hleads, htags⟩)
    · exact .inl (h.loads.extends_template.partials _ _ hold)
    · cases hfind : l.template.find? name with
      | none => exact .inr ⟨⟨hleads, rfl⟩, htags⟩
      | some tags' =>
        have hfile := (h.leads_of_find? hleads.find?_eq_none hfind).2.1
        exact .inl (hfile.symm.trans htags)

/-! ## Loadings that succeed -/

/-- A loading that succeeds leaves nothing to load. -/
theorem not_leads (h : LoadsIn load load t dir pending l)
    (hcover : ∀ x ∈ t.missing, x ∈ pending.map (·.1)) (hok : l.error? = none) (name : Text) :
    ¬ l.template.Leads load dir name := by
  have hfound : ∀ x ∈ l.template.names, (l.template.find? x).isSome = true := by
    refine h.loads.covered hok fun x hx => ?_
    cases hfind : t.find? x with
    | some tags => exact .inl rfl
    | none => exact .inr (hcover x (Template.mem_missing_iff.2 ⟨hx, hfind⟩))
  intro hname
  have hmem : name ∈ ([] : List Text) := hname.mem_of_closed
    (fun x hx => absurd hx (Template.missing_eq_nil_iff.2 hfound ▸ List.not_mem_nil))
    (fun x hx => absurd hx List.not_mem_nil)
  exact absurd hmem List.not_mem_nil

/-- A loading that succeeds finds a partial for every name that loading leads to. -/
theorem find?_of_leads (h : LoadsIn load load t dir pending l)
    (hcover : ∀ x ∈ t.missing, x ∈ pending.map (·.1)) (hok : l.error? = none)
    (hname : t.Leads load dir name) : ∃ tags, l.template.find? name = some tags := by
  cases hfind : l.template.find? name with
  | some tags => exact ⟨tags, rfl⟩
  | none => exact absurd (h.leads_iff.2 ⟨hname, hfind⟩) (h.not_leads hcover hok name)

/-- A loading succeeds if and only if every name that loading leads to has a template in the
directory. -/
theorem error?_eq_none_iff (h : LoadsIn load load t dir pending l)
    (hcover : ∀ x ∈ t.missing, x ∈ pending.map (·.1)) :
    l.error? = none ↔ t.Complete load dir := by
  constructor
  · intro hok name hname
    obtain ⟨tags, hfind⟩ := h.find?_of_leads hcover hok hname
    rw [(h.leads_of_find? hname.find?_eq_none hfind).2.1]
    rfl
  · intro hcomplete
    cases herror : l.error? with
    | none => rfl
    | some error =>
      -- The file of the last request is the one that is missing or no template.
      obtain ⟨answered, last, hrequests, -, hlast, -⟩ := h.loads.exists_last herror
      have hmem : last ∈ l.requests := hrequests ▸ List.mem_append_right _ (.head _)
      obtain ⟨hleads, hpath⟩ := h.leads_of_requests last hmem
      obtain ⟨tags, htags⟩ := Option.isSome_iff_exists.1 (hcomplete _ hleads)
      rw [← h.uniform _ _ hpath] at htags
      rw [Loader.read_eq_ok_iff.2 ⟨htags, rfl⟩] at hlast
      cases hlast

/-- A loading that succeeds registers the templates in the directory that have the names that
loading leads to, and no others. -/
theorem find?_eq_some_iff (h : LoadsIn load load t dir pending l)
    (hcover : ∀ x ∈ t.missing, x ∈ pending.map (·.1)) (hok : l.error? = none) :
    l.template.find? name = some tags ↔ t.find? name = some tags ∨
      t.Leads load dir name ∧ load.tags? (partialPath dir name) = some tags := by
  rw [← h.find?_or_leads_iff]
  exact (or_iff_left fun hleft => h.not_leads hcover hok name hleft.1).symm

end LoadsIn

section Memory

variable {m : Memory} {load' : Loader} {t : Template} {dir : Path} {pending : List (Text × Path)}
  {l : Loading}

/-- Loading the missing names from memory, in any order, is loading from one directory. -/
theorem Loads.loadsIn (h : Loads m.load t pending l) (hpending : pending.Perm (t.pending dir))
    (hflat : t.Flat load' dir)
    (hsame : ∀ name, t.find? name = none → (l.template.find? name).isSome = true →
      load'.tags? (partialPath dir name) = m.load.tags? (partialPath dir name)) :
    LoadsIn m.load load' t dir pending l where
  loads := h
  uniform := m.uniform_load
  flat := hflat
  pending p hp := by
    obtain ⟨hmissing, hdir⟩ := Template.mem_pending_iff.1 (hpending.mem_iff.1 hp)
    exact ⟨hmissing, hdir ▸ rfl⟩
  same := hsame

/-- Loading begins with all missing names on the stack, in whatever order they are. -/
theorem Template.mem_of_perm (h : pending.Perm (t.pending dir)) (x : Text) (hx : x ∈ t.missing) :
    x ∈ pending.map (·.1) :=
  List.mem_map.2 ⟨(x, dir), h.mem_iff.2 (Template.mem_pending_iff.2 ⟨hx, rfl⟩), rfl⟩

/-- Loading the partials of a template from memory runs by the rules. -/
theorem Template.loads_loadPartials (m : Memory) (t : Template) (dir : Path) :
    Loads m.load t (t.pending dir) (t.loadPartials m.source dir) :=
  loads_iff.2 (t.loadsFrom_loadPartials m.source dir)

end Memory

/-- **Loading from one directory.** If no name has a slash in it that loading leads to, then loading
from memory succeeds if and only if each of these names has a template in the directory, and then
the partials are those that were there and these templates. The order in which names are missing
makes no difference.

A loading that ended in any way can be taken up again with files among which nothing is missing, if
the partials that were registered are the same there. It leaves the partials that loading from
these files leaves in the first place. -/
theorem load_directory {m : Memory} {t : Template} {dir : Path} (hflat : t.Flat m.load dir) :
    let l := t.loadPartials m.source dir
    (l.error? = none ↔ t.Complete m.load dir) ∧
    (l.error? = none → ∀ name tags, l.template.find? name = some tags ↔
      t.find? name = some tags ∨
        t.Leads m.load dir name ∧ m.load.tags? (partialPath dir name) = some tags) ∧
    (∀ pending k, pending.Perm (t.pending dir) → Loads m.load t pending k →
      (k.error? = none ↔ l.error? = none) ∧
        (l.error? = none → ∀ name, k.template.find? name = l.template.find? name)) ∧
    ∀ m' : Memory, t.Flat m'.load dir → t.Complete m'.load dir →
      (∀ name, t.find? name = none → (l.template.find? name).isSome = true →
        m'.load (partialPath dir name) = m.load (partialPath dir name)) →
      let resumed := l.template.loadPartials m'.source dir
      resumed.error? = none ∧ ∀ name,
        resumed.template.find? name = (t.loadPartials m'.source dir).template.find? name := by
  intro l
  have hl : LoadsIn m.load m.load t dir (t.pending dir) l :=
    (t.loads_loadPartials m dir).loadsIn (.refl _) hflat fun _ _ _ => rfl
  have hcover := Template.mem_of_perm (.refl (t.pending dir))
  refine ⟨hl.error?_eq_none_iff hcover, fun hok name tags => hl.find?_eq_some_iff hcover hok,
    fun pending k hpending hk => ?_, fun m' hflat' hcomplete hsame => ?_⟩
  · have hk' := hk.loadsIn hpending hflat fun _ _ _ => rfl
    have hcover' := Template.mem_of_perm hpending
    have herror : k.error? = none ↔ l.error? = none :=
      (hk'.error?_eq_none_iff hcover').trans (hl.error?_eq_none_iff hcover).symm
    refine ⟨herror, fun hok name => Option.ext fun tags => ?_⟩
    rw [hk'.find?_eq_some_iff hcover' (herror.2 hok), hl.find?_eq_some_iff hcover hok]
  · have hfirst : LoadsIn m.load m'.load t dir (t.pending dir) l :=
      (t.loads_loadPartials m dir).loadsIn (.refl _) hflat' fun name hnone hfind => by
        rw [Loader.tags?, Loader.tags?, hsame name hnone hfind]
    have hresumed : LoadsIn m'.load m'.load l.template dir (l.template.pending dir)
        (l.template.loadPartials m'.source dir) :=
      (l.template.loads_loadPartials m' dir).loadsIn (.refl _)
        (fun name h => hflat' name (hfirst.leads_iff.1 h).1) fun _ _ _ => rfl
    have hwhole : LoadsIn m'.load m'.load t dir (t.pending dir) (t.loadPartials m'.source dir) :=
      (t.loads_loadPartials m' dir).loadsIn (.refl _) hflat' fun _ _ _ => rfl
    have hcover' := Template.mem_of_perm (.refl (l.template.pending dir))
    have hok := (hresumed.error?_eq_none_iff hcover').2
      fun name h => hcomplete name (hfirst.leads_iff.1 h).1
    have hok' := (hwhole.error?_eq_none_iff hcover).2 hcomplete
    refine ⟨hok, fun name => Option.ext fun tags => ?_⟩
    rw [hresumed.find?_eq_some_iff hcover' hok, hwhole.find?_eq_some_iff hcover hok',
      hfirst.find?_or_leads_iff]

/-- A loading that fails at a file that is missing, from a directory that is written with a dot, and
is taken up again when that file is there and another one, which was not read, has changed. -/
theorem load_directory_resumed :
    let t : Template := ⟨[.inclusion ['a'], .inclusion ['b']], [(['c'], [.literal ['x']])],
      [['a'], ['b']], {}⟩
    let m : Memory := ⟨[(⟨"v/a.mustache".toList⟩, "{{>b}}{{>c}}".toList),
      (⟨"v/b.mustache".toList⟩, "{{>a}}{{>d}}".toList)]⟩
    let m' : Memory := ⟨[(⟨"v/a.mustache".toList⟩, "{{>d}}".toList),
      (⟨"v/b.mustache".toList⟩, "{{>a}}{{>d}}".toList), (⟨"v/d.mustache".toList⟩, "{{>b}}".toList)]⟩
    let dir : Path := ⟨"v/.".toList⟩
    let l := t.loadPartials m.source dir
    let resumed := l.template.loadPartials m'.source dir
    t.Flat m.load dir ∧ l.error? = some (.notFound ⟨"v/d.mustache".toList⟩) ∧
      ¬ t.Complete m.load dir ∧ t.Flat m'.load dir ∧ t.Complete m'.load dir ∧
      resumed.error? = none ∧ resumed.requests.map (·.name) = [['d'], ['a']] ∧ ∀ name,
        resumed.template.find? name = (t.loadPartials m'.source dir).template.find? name := by
  intro t m m' dir l resumed
  let names : List Text := [['a'], ['b'], ['d']]
  have hleads : ∀ name, t.Leads m.load dir name → name ∈ names := fun name h =>
    h.mem_of_closed (by decide +kernel) (by decide +kernel)
  have hleads' : ∀ name, t.Leads m'.load dir name → name ∈ names := fun name h =>
    h.mem_of_closed (by decide +kernel) (by decide +kernel)
  have hslash : ∀ name ∈ names, '/' ∉ name := by decide
  have hflat : t.Flat m.load dir := fun name h => hslash name (hleads name h)
  have hflat' : t.Flat m'.load dir := fun name h => hslash name (hleads' name h)
  have hcomplete' : t.Complete m'.load dir := fun name h => by
    have hall : ∀ name ∈ names, (m'.load.tags? (partialPath dir name)).isSome = true := by
      decide +kernel
    exact hall name (hleads' name h)
  have herror : l.error? = some (.notFound ⟨"v/d.mustache".toList⟩) := by decide +kernel
  have hsame : ∀ name, t.find? name = none → (l.template.find? name).isSome = true →
      m'.load (partialPath dir name) = m.load (partialPath dir name) := by
    intro name hnone hfind
    obtain ⟨tags, hfind⟩ := Option.isSome_iff_exists.1 hfind
    have hmem : name ∈ l.template.partials.map (·.1) :=
      List.mem_map.2 ⟨_, mem_of_valueAt? hfind, rfl⟩
    have hpartials : l.template.partials.map (·.1) = [['c'], ['b']] := by decide +kernel
    rw [hpartials] at hmem
    rcases List.mem_cons.1 hmem with rfl | hmem
    · cases hnone
    · obtain rfl := List.mem_singleton.1 hmem
      decide +kernel
  obtain ⟨hiff, -, -, hresume⟩ := load_directory hflat
  obtain ⟨hok, htable⟩ := hresume m' hflat' hcomplete' hsame
  refine ⟨hflat, herror, fun hcomplete => ?_, hflat', hcomplete', hok, by decide +kernel, htable⟩
  rw [hiff.2 hcomplete] at herror
  cases herror

end Mustache
