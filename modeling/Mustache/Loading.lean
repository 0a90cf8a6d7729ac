import Mustache.Loader
import Mustache.Template

/-!
# Loading partials

A partial `N` is looked for in the file `N.mustache` of the directory of the file that refers to it.
`loadPending` works on a stack of names with their directories. It takes the top name, unless that
has a partial by then, registers the partial that its file says and puts the names that this one
refers to on top. The first file that is missing or no template ends the loading, and what was
registered before stays.

Loading ends if the texts are finitely many: every file that is read takes a name off the names
that can still be asked for (`loadPending_isSome`).
-/

namespace Mustache

/-- A partial that is asked for, and the path it is looked for at. -/
structure Request where
  name : Text
  path : Path
  deriving DecidableEq

/-- The file of a partial in a directory. Reference: the path in `Compiler.load_partials`. -/
def partialPath (dir : Path) (name : Text) : Path :=
  dir.join ⟨name ++ ".mustache".toList⟩

/-- What loading partials results in. -/
structure Loading where
  /-- The template with the partials that could be loaded. -/
  template : Template
  /-- The partials that were asked for, in order. -/
  requests : List Request
  /-- The error that ended the loading early. -/
  error? : Option Error

/-- Loads the names of a stack, and those that they lead to, in so many steps. Reference: the loop
of `Compiler.load_partials`. -/
def loadPending (load : Loader) :
    (steps : Nat) → Template → List (Text × Path) → Option Loading
  | _, t, [] => some ⟨t, [], none⟩
  | 0, _, _ :: _ => none
  | steps + 1, t, (name, dir) :: pending =>
    if (t.find? name).isSome then loadPending load steps t pending
    else
      let path := partialPath dir name
      match load path with
      | .error error => some ⟨t, [⟨name, path⟩], some error⟩
      | .ok src =>
        match parse {} src with
        | .error error => some ⟨t, [⟨name, path⟩], some error⟩
        | .ok (tags, state) =>
          let new := state.names.filter fun name => (t.find? name).isNone
          let below := new.map fun name => (name, path.directory)
          (loadPending load steps (t.insert name tags state.names) (below.reverse ++ pending)).map
            fun l => { l with requests := ⟨name, path⟩ :: l.requests }

section Bound

variable {t : Template} {s : Source} {name src : Text} {tags : List Tag} {names : List Text}

/-- A partial that was registered is found, and every other one is as before. -/
theorem Template.find?_insert (other : Text) :
    (t.insert name tags names).find? other = if name = other then some tags else t.find? other :=
  valueAt?_setEntry ..

/-- How many names of a list have no partial yet. -/
def Template.unloaded (t : Template) (names : List Text) : Nat :=
  names.countP fun name => (t.find? name).isNone

/-- Registering a partial takes its name off the names without one. -/
theorem Template.unloaded_insert_lt {all : List Text} (hmem : name ∈ all)
    (hname : t.find? name = none) :
    (t.insert name tags names).unloaded all < t.unloaded all := by
  have hle (l : List Text) : (t.insert name tags names).unloaded l ≤ t.unloaded l := by
    apply List.countP_mono_left
    intro x _ hx
    rw [find?_insert] at hx
    split at hx
    · cases hx
    · exact hx
  obtain ⟨a, b, rfl⟩ := List.append_of_mem hmem
  have ha := hle a
  have hb := hle b
  have hnew : (t.insert name tags names).find? name = some tags := by simp [find?_insert]
  simp only [unloaded, List.countP_append, List.countP_cons, hnew, hname, Option.isNone_some,
    Option.isNone_none, if_true] at ha hb ⊢
  simp
  omega

/-- A text refers to no more names than all the texts of its source. -/
theorem Source.references_length_le (h : src ∈ s.texts) :
    (Mustache.references src).length ≤ s.references.length := by
  obtain ⟨a, b, hab⟩ := List.append_of_mem h
  simp only [Source.references, hab, List.flatMap_append, List.flatMap_cons, List.length_append]
  omega

/-- Steps that are enough to load so many pending names, each of which is one of `all`: a step for
each of them, and for each name without a partial as many as a file can refer to names. -/
def Source.steps (s : Source) (all : List Text) (t : Template) (pending : Nat) : Nat :=
  pending + t.unloaded all * s.references.length

/-- Loading from a source ends within `Source.steps`. -/
theorem loadPending_isSome {all : List Text} (hall : ∀ x ∈ s.references, x ∈ all) {steps : Nat}
    {t : Template} {pending : List (Text × Path)} (hpending : ∀ p ∈ pending, p.1 ∈ all)
    (hsteps : s.steps all t pending.length ≤ steps) :
    (loadPending s.load steps t pending).isSome = true := by
  induction steps generalizing t pending with
  | zero =>
    cases pending with
    | nil => rfl
    | cons p pending => simp [Source.steps] at hsteps
  | succ steps ih =>
    cases pending with
    | nil => rfl
    | cons p pending =>
      obtain ⟨name, dir⟩ := p
      have hrest : ∀ p ∈ pending, p.1 ∈ all := fun p hp => hpending p (List.mem_cons_of_mem _ hp)
      simp only [Source.steps, List.length_cons] at hsteps
      simp only [loadPending]
      split
      next => exact ih hrest (by simp only [Source.steps]; omega)
      next hname =>
        split
        next => rfl
        next src hload =>
          split
          next => rfl
          next tags state hparse =>
            have href : Mustache.references src = state.names := by
              simp [Mustache.references, hparse]
            have hmem := s.mem_texts hload
            have hall' : name ∈ all := hpending (name, dir) List.mem_cons_self
            have hlt : (t.insert name tags state.names).unloaded all < t.unloaded all :=
              Template.unloaded_insert_lt hall' (by simpa using hname)
            rw [Option.isSome_map]
            apply ih
            · intro p hp
              rcases List.mem_append.1 hp with hp | hp
              · simp only [List.mem_reverse, List.mem_map, List.mem_filter] at hp
                obtain ⟨x, ⟨hx, -⟩, rfl⟩ := hp
                exact hall x (List.mem_flatMap.2 ⟨src, hmem, href ▸ hx⟩)
              · exact hrest p hp
            · have hnew := List.length_filter_le (fun name => (t.find? name).isNone) state.names
              have hlen := Source.references_length_le hmem
              have hmul := Nat.mul_le_mul_right s.references.length hlt
              rw [Nat.succ_mul] at hmul
              simp only [Source.steps, List.length_append, List.length_reverse, List.length_map]
              rw [href] at hlen
              omega

end Bound

/-- The names that loading into a template can ask a source for. -/
def Template.reach (t : Template) (s : Source) : List Text :=
  t.missing ++ s.references

/-- Loads every partial that is missing, and those that they lead to. The partials that the template
is missing are looked for in `dir`. Reference: `Compiler.load_partials`. -/
def Template.loadPartials (t : Template) (s : Source) (dir : Path) : Loading :=
  let pending := (t.missing.map fun name => (name, dir)).reverse
  (loadPending s.load (s.steps (t.reach s) t pending.length) t pending).get <|
    loadPending_isSome (fun _ h => List.mem_append_right _ h)
      (by
        intro p hp
        simp only [pending, List.mem_reverse, List.mem_map] at hp
        obtain ⟨x, hx, rfl⟩ := hp
        exact List.mem_append_left _ hx)
      (Nat.le_refl _)

end Mustache
