import Mustache.Compilation
import Mustache.Proofs.Names

/-!
# Runs of the loading

`loadPending` works in so many steps. `Loads` says what it does without counting them: one rule for
each thing that can become of the name on top of the stack (`loads_iff`). What a loading keeps or
brings about is then proved by induction on its run, rule by rule.

A template is `Template.Reached` if some sequence of operations leads to it: parsing a text,
registering partials, setting options, and loading from any loaders and directories, with or without
success. `Compiles` is parsing, setting options and loading in one, with any loader.
-/

namespace Mustache

/-- What can be read at a path: the tags of the template there and the names that they refer to. -/
def Loader.read (load : Loader) (path : Path) : Except Error (List Tag × List Text) :=
  match load path with
  | .error error => .error error
  | .ok src => (parse {} src).map fun (tags, state) => (tags, state.names)

/-- What is read refers to the names of the partials among its tags. -/
theorem Loader.mem_names_of_read {load : Loader} {path : Path} {tags : List Tag}
    {names : List Text} (h : load.read path = .ok (tags, names)) {name : Text} :
    name ∈ names ↔ name ∈ Tag.inclusionsList tags := by
  unfold read at h
  cases hload : load path with
  | error => rw [hload] at h; cases h
  | ok src =>
    rw [hload] at h
    cases hparse : parse {} src with
    | error => simp only [hparse] at h; cases h
    | ok p =>
      obtain ⟨tags', state⟩ := p
      simp only [hparse] at h
      cases h
      exact mem_names_of_parse hparse

namespace Template

/-- The names that a template is missing, on a stack: each is looked for in `dir`. -/
def pending (t : Template) (dir : Path) : List (Text × Path) :=
  (t.missing.map fun name => (name, dir)).reverse

/-- The names that are put on the stack for a file that refers to `names`. -/
def below (t : Template) (path : Path) (names : List Text) : List (Text × Path) :=
  ((names.filter fun name => (t.find? name).isNone).map fun name => (name, path.directory)).reverse

end Template

/-- Loading the names of a stack, and those that they lead to, into a template. -/
inductive Loads (load : Loader) : Template → List (Text × Path) → Loading → Prop
  /-- Nothing is left to load. -/
  | done {t : Template} : Loads load t [] ⟨t, [], none⟩
  /-- The name has a partial by now. -/
  | skip {t : Template} {name : Text} {dir : Path} {pending : List (Text × Path)} {l : Loading} :
      (t.find? name).isSome = true → Loads load t pending l →
      Loads load t ((name, dir) :: pending) l
  /-- The file of the name is missing or no template. -/
  | fail {t : Template} {name : Text} {dir : Path} {pending : List (Text × Path)} {error : Error} :
      t.find? name = none → load.read (partialPath dir name) = .error error →
      Loads load t ((name, dir) :: pending) ⟨t, [⟨name, partialPath dir name⟩], some error⟩
  /-- The partial in the file is registered, and what it refers to goes on the stack. -/
  | take {t : Template} {name : Text} {dir : Path} {pending : List (Text × Path)} {l : Loading}
      {tags : List Tag} {names : List Text} :
      t.find? name = none → load.read (partialPath dir name) = .ok (tags, names) →
      Loads load (t.insert name tags names) (t.below (partialPath dir name) names ++ pending) l →
      Loads load t ((name, dir) :: pending)
        { l with requests := ⟨name, partialPath dir name⟩ :: l.requests }

section Steps

variable {load : Loader} {t : Template} {pending : List (Text × Path)} {l : Loading}
  {name : Text} {dir : Path} {steps : Nat}

/-- A step that finds the name registered goes on with the rest of the stack. -/
theorem loadPending_of_isSome (h : (t.find? name).isSome = true) :
    loadPending load (steps + 1) t ((name, dir) :: pending) = loadPending load steps t pending := by
  rw [loadPending, if_pos h]

/-- A step that does not find the name registered reads its file. -/
theorem loadPending_of_eq_none (h : t.find? name = none) :
    loadPending load (steps + 1) t ((name, dir) :: pending) =
      match load.read (partialPath dir name) with
      | .error error => some ⟨t, [⟨name, partialPath dir name⟩], some error⟩
      | .ok (tags, names) =>
        (loadPending load steps (t.insert name tags names)
          (t.below (partialPath dir name) names ++ pending)).map
            fun l => { l with requests := ⟨name, partialPath dir name⟩ :: l.requests } := by
  have hnot : ¬ (t.find? name).isSome = true := by simp [h]
  simp only [loadPending, if_neg hnot, Loader.read, Template.below]
  cases hload : load (partialPath dir name) with
  | error => rfl
  | ok src =>
    cases hparse : parse {} src with
    | error => simp only [hparse, Except.map]
    | ok p => simp only [hparse, Except.map]

/-- **Steps and rules.** A run by the rules is a loading that ends within some number of steps. -/
theorem loads_iff :
    Loads load t pending l ↔ ∃ steps, loadPending load steps t pending = some l := by
  constructor
  · intro h
    induction h with
    | done => exact ⟨0, rfl⟩
    | skip hname _ ih =>
      obtain ⟨steps, hsteps⟩ := ih
      exact ⟨steps + 1, (loadPending_of_isSome hname).trans hsteps⟩
    | fail hname hread => exact ⟨1, by rw [loadPending_of_eq_none hname, hread]⟩
    | take hname hread _ ih =>
      obtain ⟨steps, hsteps⟩ := ih
      refine ⟨steps + 1, ?_⟩
      rw [loadPending_of_eq_none hname, hread]
      simp only [hsteps, Option.map_some]
  · rintro ⟨steps, h⟩
    induction steps generalizing t pending l with
    | zero =>
      cases pending with
      | nil => cases h; exact .done
      | cons => cases h
    | succ steps ih =>
      rcases pending with _ | ⟨⟨name, dir⟩, pending⟩
      · cases h; exact .done
      · cases hname : t.find? name with
        | some tags =>
          have hsome : (t.find? name).isSome = true := by simp [hname]
          rw [loadPending_of_isSome hsome] at h
          exact .skip hsome (ih h)
        | none =>
          rw [loadPending_of_eq_none hname] at h
          split at h
          next error hread => cases h; exact .fail hname hread
          next tags names hread =>
            obtain ⟨l', hl', rfl⟩ := Option.map_eq_some_iff.1 h
            exact .take hname hread (ih hl')

end Steps

namespace Template

/-- Loading the partials that a template is missing, from `dir` on, ends, and it results in `l`. -/
def LoadsFrom (t : Template) (load : Loader) (dir : Path) (l : Loading) : Prop :=
  ∃ steps, loadPending load steps t (t.pending dir) = some l

/-- Loading from a source ends. -/
theorem loadsFrom_loadPartials (t : Template) (s : Source) (dir : Path) :
    t.LoadsFrom s.load dir (t.loadPartials s dir) :=
  ⟨_, (Option.some_get _).symm⟩

/-- The templates that operations lead to. -/
inductive Reached : Template → Prop
  | parse {src : Text} {t : Template} : Template.parse src = .ok t → Reached t
  | addPartial {t t' : Template} {name src : Text} :
      Reached t → t.addPartial name src = .ok t' → Reached t'
  | withOptions {t : Template} (options : Options) : Reached t → Reached (t.withOptions options)
  /-- Loading leaves a template behind whether it succeeds or not. -/
  | load {t : Template} {load : Loader} {dir : Path} {l : Loading} :
      Reached t → t.LoadsFrom load dir l → Reached l.template

end Template

/-- What compiling a text with a loader ends with, if it ends. Partials are looked for in `dir` and
beside the files that refer to them. -/
inductive Compiles (load : Loader) (options : Options) (dir : Path) (src : Text) :
    Except Error Template → Prop
  | malformed {error : Error} : Template.parse src = .error error →
      Compiles load options dir src (.error error)
  | failed {t : Template} {l : Loading} {error : Error} : Template.parse src = .ok t →
      (t.withOptions options).LoadsFrom load dir l → l.error? = some error →
      Compiles load options dir src (.error error)
  | loaded {t : Template} {l : Loading} : Template.parse src = .ok t →
      (t.withOptions options).LoadsFrom load dir l → l.error? = none →
      Compiles load options dir src (.ok l.template)

/-- Compiling with a source of finitely many texts ends. -/
theorem Compilation.compiles_ofText (options : Options) (s : Source) (root? : Option Path)
    (dir : Path) (src : Text) :
    Compiles s.load options dir src (Compilation.ofText options s root? dir src).result := by
  unfold ofText
  cases hparse : Template.parse src with
  | error error => exact .malformed hparse
  | ok t =>
    have hload := (t.withOptions options).loadsFrom_loadPartials s dir
    simp only
    cases herror : ((t.withOptions options).loadPartials s dir).error? with
    | none => exact .loaded hparse hload herror
    | some error => exact .failed hparse hload herror

end Mustache
