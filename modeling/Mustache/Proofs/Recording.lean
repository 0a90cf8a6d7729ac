import Mathlib.Control.Monad.Basic
import Mustache.Accessor
import Mustache.Proofs.Loads

/-!
# Recorded files

A template that is compiled when a program is built is compiled again when the program runs, from
the files that were read the first time (`compile_recorded`). A compilation depends on the answers
to what it asks for and on nothing else (`compilePath_congr`), so it is enough that those files are
found again under the paths they were asked for at. In memory a path is its components, and a later
file takes the place of an earlier one (`Memory.load_foldl`). That does no harm if paths with the
same components have the same text (`Loader.Coherent`), as they have in a tree of files
(`FileTree.coherent_load`).
-/

namespace Mustache

/-! ## Files in memory -/

/-- Paths with the same components have the same text, if each of them has one. -/
def Loader.Coherent (load : Loader) : Prop :=
  ∀ p q x y, p.Same q → load p = .ok x → load q = .ok y → x = y

/-- The files at some paths, in the order of the paths: what is recorded of a loader that is asked
for these paths. Reference: `RecordingLoader`. -/
def Loader.files (load : Loader) (paths : List Path) : List (Path × Text) :=
  paths.filterMap fun path => (load path).toOption.map fun text => (path, text)

/-- If each of some paths has a text, the files at the paths are as many, in the same order. -/
theorem Loader.map_files {load : Loader} {paths : List Path}
    (h : ∀ p ∈ paths, ∃ text, load p = .ok text) : (load.files paths).map (·.1) = paths := by
  induction paths with
  | nil => rfl
  | cons p paths ih =>
    obtain ⟨text, htext⟩ := h p (.head _)
    have hfile : load.files (p :: paths) = (p, text) :: load.files paths := by
      rw [files, List.filterMap_cons, htext]
      rfl
    rw [hfile, List.map_cons, ih fun q hq => h q (.tail _ hq)]

/-- The memory that files are put into one after another. Reference: `MemoryLoader.with`, file by
file. -/
def Memory.ofFiles (files : List (Path × Text)) : Memory :=
  files.foldl (fun m file => m.insert file.1 file.2) {}

namespace Memory

variable {m : Memory} {path : Path} {text : Text}

/-- A text that is put under a path is found under every path with the same components, and what is
under another path stays. -/
theorem load_insert (other : Path) : (m.insert path text).load other =
    if path.Same other then .ok text else m.load other := by
  by_cases hsame : path.Same other
  · have hgone : (m.files.filter fun file => !decide (file.1.Same path)).find?
        (fun file => decide (file.1.Same other)) = none := by
      refine List.find?_eq_none.2 fun file hfile h => ?_
      have hother : file.1.Same other := of_decide_eq_true h
      have hpath : ¬ file.1.Same path := by simpa using (List.mem_filter.1 hfile).2
      exact hpath (hother.trans hsame.symm)
    rw [if_pos hsame, load, insert, List.find?_append, hgone]
    simp [hsame]
  · have hkept : (m.files.filter fun file => !decide (file.1.Same path)).find?
        (fun file => decide (file.1.Same other)) =
          m.files.find? fun file => decide (file.1.Same other) := by
      rw [List.find?_filter]
      congr 1
      funext file
      have hpath : file.1.Same other → ¬ file.1.Same path := fun h h' => hsame (h'.symm.trans h)
      simpa using hpath
    rw [if_neg hsame, load, load, insert, List.find?_append, hkept]
    simp [hsame]

/-- The last file with the components of a path is found. -/
theorem load_foldl (files : List (Path × Text)) (path : Path) :
    (files.foldl (fun m file => m.insert file.1 file.2) m).load path =
      match files.reverse.find? fun file => decide (file.1.Same path) with
      | some (_, text) => .ok text
      | none => m.load path := by
  induction files generalizing m with
  | nil => rfl
  | cons file files ih =>
    rw [List.foldl_cons, ih, List.reverse_cons, List.find?_append]
    cases files.reverse.find? fun file => decide (file.1.Same path) with
    | some found => rfl
    | none =>
      rw [load_insert]
      by_cases hsame : file.1.Same path <;> simp [hsame]

end Memory

/-- The files at some paths are found in memory under these paths, if the paths have texts. -/
theorem Loader.Coherent.load_ofFiles {load : Loader} (h : load.Coherent) {paths : List Path}
    {path : Path} {text : Text} (hmem : path ∈ paths) (hload : load path = .ok text) :
    (Memory.ofFiles (load.files paths)).load path = .ok text := by
  have hfile : ∀ file, file ∈ load.files paths → load file.1 = .ok file.2 := by
    intro file hfile
    obtain ⟨p, -, hp⟩ := List.mem_filterMap.1 hfile
    obtain ⟨x, hx, rfl⟩ := Option.map_eq_some_iff.1 hp
    cases hp : load p with
    | error => rw [hp] at hx; cases hx
    | ok y => rw [hp] at hx; cases hx; rfl
  have hin : (path, text) ∈ load.files paths :=
    List.mem_filterMap.2 ⟨path, hmem, by rw [hload]; rfl⟩
  rw [Memory.ofFiles, Memory.load_foldl]
  cases hfind : (load.files paths).reverse.find? fun file => decide (file.1.Same path) with
  | none =>
    have hnot := List.find?_eq_none.1 hfind (path, text) (List.mem_reverse.2 hin)
    exact absurd (decide_eq_true rfl) hnot
  | some found =>
    have hsame : found.1.Same path := by simpa using List.find?_some hfind
    have hmem : found ∈ load.files paths := List.mem_reverse.1 (List.mem_of_find?_eq_some hfind)
    exact congrArg _ (h _ _ _ _ hsame (hfile found hmem) hload)

/-! ## Files in a tree -/

namespace FileTree

variable {tree : FileTree} {place reached : Place} {path : Path}

theorem load_source (tree : FileTree) : tree.source.load = tree.load := rfl

/-- A walk leads where the steps that its pieces write lead. -/
theorem eq_foldl_of_foldlM {pieces : List Text}
    (h : pieces.foldlM tree.step? place = some reached) :
    reached = (pieces.filterMap Path.Component.ofPiece?).foldl Place.step place := by
  induction pieces generalizing place with
  | nil => exact (Option.some.inj h).symm
  | cons piece pieces ih =>
    obtain ⟨next, hstep, hrest⟩ := Option.bind_eq_some_iff.1 h
    rw [ih hrest, List.filterMap_cons]
    unfold step? at hstep
    split at hstep
    next => cases hstep
    next =>
      split at hstep
      next hpiece => cases hstep; rw [hpiece]
      next component hpiece =>
        split at hstep
        · cases hstep; rw [hpiece]; rfl
        · cases hstep

/-- The pieces of a path write the steps of its components, a slash or a dot in front apart. -/
theorem filterMap_pieces (path : Path) :
    (Text.pieces (· == '/') path.text).filterMap Path.Component.ofPiece? =
      path.pieces.filterMap Path.Component.ofPiece? := by
  rw [Path.pieces]
  unfold Path.split
  split
  next htext => rw [htext]; rfl
  next htext => rw [htext]; rfl
  next htext => rw [htext]; rfl
  next => rfl

/-- A path leads where its components do. -/
theorem eq_foldl_of_walk? (h : tree.walk? path = some place) :
    place = path.components.foldl Place.step {} := by
  unfold walk? at h
  split at h
  next => cases h
  next =>
    rw [eq_foldl_of_foldlM h, filterMap_pieces, Path.components, List.foldl_append, Path.isAbsolute]
    congr 1
    by_cases hroot : path.split.1 = ['/']
    · simp [hroot, Place.step]
    · simp only [beq_iff_eq, hroot, if_false]
      split <;> rfl

/-- **A tree of files is coherent.** -/
theorem coherent_load (tree : FileTree) : tree.load.Coherent := by
  intro p q x y hsame hp hq
  have hplace : ∀ {path text}, tree.load path = .ok text →
      tree.node? (path.components.foldl Place.step {}) = some (.file (some text)) := by
    intro path text h
    unfold load at h
    split at h
    next found hfind =>
      cases h
      obtain ⟨place, hwalk, hnode⟩ := Option.bind_eq_some_iff.1 hfind
      rw [← eq_foldl_of_walk? hwalk, hnode]
    next => cases h
  have hsame : p.components = q.components := hsame
  have hnode := hplace hp
  rw [hsame, hplace hq] at hnode
  cases hnode
  rfl

end FileTree

/-! ## What a loading depends on -/

namespace Loads

variable {load load' : Loader} {t : Template} {pending : List (Text × Path)} {l l' : Loading}

/-- A loading ends in one way. -/
theorem unique (h : Loads load t pending l) (h' : Loads load t pending l') : l = l' := by
  induction h generalizing l' with
  | done => cases h'; rfl
  | skip hname _ ih =>
    cases h' with
    | skip _ hrest => exact ih hrest
    | fail hnone | take hnone => rw [hnone] at hname; cases hname
  | fail hnone hread =>
    cases h' with
    | skip hname => rw [hnone] at hname; cases hname
    | fail _ hread' => rw [hread] at hread'; cases hread'; rfl
    | take _ hread' => rw [hread] at hread'; cases hread'
  | take hnone hread _ ih =>
    cases h' with
    | skip hname => rw [hnone] at hname; cases hname
    | fail _ hread' => rw [hread] at hread'; cases hread'
    | take _ hread' hrest => rw [hread] at hread'; cases hread'; rw [ih hrest]


/-- A loading goes the same way with every loader that gives the same answers to what is asked. -/
theorem congr (h : Loads load t pending l)
    (hsame : ∀ r ∈ l.requests, load' r.path = load r.path) : Loads load' t pending l := by
  induction h with
  | done => exact .done
  | skip hname _ ih => exact .skip hname (ih hsame)
  | fail hname hread =>
    refine .fail hname ?_
    rwa [Loader.read, hsame _ (.head _)]
  | take hname hread _ ih =>
    refine .take hname ?_ (ih fun r hr => hsame r (.tail _ hr))
    rwa [Loader.read, hsame _ (.head _)]

/-- A loading that succeeds has a text for everything that it asked for. -/
theorem exists_load (h : Loads load t pending l) (hok : l.error? = none) :
    ∀ r ∈ l.requests, ∃ text, load r.path = .ok text := by
  induction h with
  | done => exact fun r hr => absurd hr List.not_mem_nil
  | skip _ _ ih => exact ih hok
  | fail => cases hok
  | take _ hread _ ih =>
    intro r hr
    rcases List.mem_cons.1 hr with rfl | hr
    · unfold Loader.read at hread
      cases hload : load _ with
      | error => rw [hload] at hread; cases hread
      | ok text => exact ⟨text, rfl⟩
    · exact ih hok r hr

end Loads

/-- Loading the partials of a template depends on the answers to what it asks for only. -/
theorem Template.loadPartials_congr {t : Template} {s s' : Source} {dir : Path}
    (h : ∀ r ∈ (t.loadPartials s dir).requests, s'.load r.path = s.load r.path) :
    t.loadPartials s' dir = t.loadPartials s dir := by
  have hloads : Loads s.load t (t.pending dir) (t.loadPartials s dir) :=
    loads_iff.2 (t.loadsFrom_loadPartials s dir)
  have hloads' : Loads s'.load t (t.pending dir) (t.loadPartials s' dir) :=
    loads_iff.2 (t.loadsFrom_loadPartials s' dir)
  exact hloads'.unique (hloads.congr h)

section Compile

variable {s s' : Source} {options : Options} {root? : Option Path} {dir path : Path} {src : Text}
  {t : Template}

/-- Compiling a text depends on the answers to what it asks for only. -/
theorem Compilation.ofText_congr
    (h : ∀ r ∈ (ofText options s root? dir src).requests, s'.load r.path = s.load r.path) :
    ofText options s' root? dir src = ofText options s root? dir src := by
  unfold ofText at *
  cases hparse : Template.parse src with
  | error => rfl
  | ok t =>
    have hrequests : ∀ r ∈ ((t.withOptions options).loadPartials s dir).requests,
        s'.load r.path = s.load r.path := by
      intro r hr
      refine h r ?_
      rw [hparse]
      simp only
      split <;> exact hr
    simp only [Template.loadPartials_congr hrequests]

/-- A compilation of a text keeps the path of its root. -/
theorem Compilation.root?_ofText : (ofText options s root? dir src).root? = root? := by
  unfold ofText
  split
  · rfl
  · simp only
    split <;> rfl

/-- The first path that is asked for is the root. -/
theorem root?_compilePath : (compilePath options s path).root? = some path := by
  unfold compilePath
  split
  · rfl
  · exact Compilation.root?_ofText

/-- A text that compiles has a text for everything that it asked for. -/
theorem Compilation.exists_load (h : (ofText options s root? dir src).result = .ok t) :
    ∀ r ∈ (ofText options s root? dir src).requests, ∃ text, s.load r.path = .ok text := by
  unfold ofText at h ⊢
  cases hparse : Template.parse src with
  | error => rw [hparse] at h; cases h
  | ok t' =>
    rw [hparse] at h
    simp only at h ⊢
    cases herror : ((t'.withOptions options).loadPartials s dir).error? with
    | some => rw [herror] at h; cases h
    | none =>
      have hloads := (t'.withOptions options).loadsFrom_loadPartials s dir
      exact (loads_iff.2 hloads).exists_load herror

/-- A file that is there is compiled from its text. -/
theorem compilePath_of_load (h : s.load path = .ok src) :
    compilePath options s path = .ofText options s (some path) path.directory src := by
  rw [compilePath, h]

/-- **A compilation depends on the answers to what it asks for and on nothing else.** -/
theorem compilePath_congr
    (h : ∀ p ∈ (compilePath options s path).paths, s'.load p = s.load p) :
    compilePath options s' path = compilePath options s path := by
  have hroot : s'.load path = s.load path := h path (by simp [Compilation.paths, root?_compilePath])
  have hrequests : ∀ r ∈ (compilePath options s path).requests, s'.load r.path = s.load r.path :=
    fun r hr => h _ (List.mem_append_right _ (List.mem_map_of_mem hr))
  cases hload : s.load path with
  | error => rw [compilePath, compilePath, hroot, hload]
  | ok src =>
    rw [compilePath_of_load hload] at hrequests ⊢
    rw [compilePath_of_load (hroot.trans hload), Compilation.ofText_congr hrequests]

/-- A file that compiles has a text for everything that it asked for. -/
theorem exists_load_of_compilePath (h : (compilePath options s path).result = .ok t) :
    ∀ p ∈ (compilePath options s path).paths, ∃ text, s.load p = .ok text := by
  intro p hp
  cases hload : s.load path with
  | error => rw [compilePath, hload] at h; cases h
  | ok src =>
    rw [Compilation.paths, root?_compilePath, compilePath_of_load hload] at hp
    rw [compilePath_of_load hload] at h
    rcases List.mem_append.1 hp with hp | hp
    · obtain rfl : p = path := by simpa using hp
      exact ⟨src, hload⟩
    · obtain ⟨r, hr, rfl⟩ := List.mem_map.1 hp
      exact Compilation.exists_load h r hr

/-- A file that compiles is compiled to the same from the files that it asked for. -/
theorem compilePath_ofFiles (hs : s.load.Coherent)
    (h : (compilePath options s path).result = .ok t) :
    compilePath options
        (Memory.ofFiles (s.load.files (compilePath options s path).paths)).source path =
      compilePath options s path := by
  refine compilePath_congr fun p hp => ?_
  obtain ⟨text, htext⟩ := exists_load_of_compilePath h p hp
  rw [htext]
  exact hs.load_ofFiles hp htext

end Compile

/-- **Recording.** If a file compiles, then so does it from memory, with the files that were read
recorded in their order: the same is asked for, in the same order, and the template is the same. The
root is recorded first. So the function that is declared for a file yields its template without
reading any. -/
theorem compile_recorded :
    (∀ s options path t, s.load.Coherent →
      (compilePath options s path).result = .ok t →
      let paths := (compilePath options s path).paths
      let files := s.load.files paths
      files.map (·.1) = paths ∧ paths.head? = some path ∧
        compilePath options (Memory.ofFiles files).source path = compilePath options s path) ∧
    ∀ (tree : FileTree) path function root paths,
      declareRoot tree path = some (.file function root paths) →
      paths.head? = some root ∧
      ∃ t, (compilePath {} tree.source path).result = .ok t ∧
        (compilePath {} (Memory.ofFiles (tree.load.files paths)).source root).result = .ok t := by
  have hroot : ∀ options s path, (compilePath options s path).paths.head? = some path := by
    intro options s path
    rw [Compilation.paths, root?_compilePath]
    rfl
  constructor
  · intro s options path t hs h
    exact ⟨Loader.map_files (exists_load_of_compilePath h), hroot options s path,
      compilePath_ofFiles hs h⟩
  · intro tree path function root paths h
    simp only [declareRoot] at h
    cases hresult : (compilePath {} tree.source path).result with
    | error => rw [hresult] at h; cases h
    | ok t =>
      rw [hresult] at h
      obtain ⟨name, -, hfile⟩ := Option.map_eq_some_iff.1 h
      cases hfile
      have hsame := compilePath_ofFiles tree.coherent_load hresult
      rw [tree.load_source] at hsame
      refine ⟨hroot {} tree.source path, t, rfl, ?_⟩
      rw [hsame, hresult]

/-- A file at an absolute path that refers to itself through the parent of a directory, and to
another one under two paths that are the same in memory. -/
theorem compile_recorded_names :
    let page := "{{>p/./i}}{{>p//i}}{{>p/../page}}".toList
    let tree : FileTree := ⟨[(⟨.root, [['v']]⟩, .directory), (⟨.root, [['v'], ['p']]⟩, .directory),
      (⟨.root, [['v'], "page.mustache".toList]⟩, .file (some page)),
      (⟨.root, [['v'], ['p'], "i.mustache".toList]⟩, .file (some ['x']))]⟩
    let root : Path := ⟨"/v/page.mustache".toList⟩
    let files : List (Path × Text) := [(root, page), (⟨"/v/p/../page.mustache".toList⟩, page),
      (⟨"/v/p/../p//i.mustache".toList⟩, ['x']), (⟨"/v/p/../p/./i.mustache".toList⟩, ['x'])]
    tree.load.files (compilePath {} tree.source root).paths = files ∧
      compilePath {} (Memory.ofFiles files).source root = compilePath {} tree.source root ∧
      declareRoot tree root = some (.file "page".toList root (files.map (·.1))) ∧
      ∃ t, (compilePath {} (Memory.ofFiles files).source root).result = .ok t := by
  intro page tree root files
  have hfiles : tree.load.files (compilePath {} tree.source root).paths = files := by
    decide +kernel
  have hdeclare : declareRoot tree root = some (.file "page".toList root (files.map (·.1))) := by
    decide +kernel
  obtain ⟨-, t, hresult, htemplate⟩ := compile_recorded.2 tree root _ _ _ hdeclare
  obtain ⟨-, -, hsame⟩ := compile_recorded.1 tree.source {} root t tree.coherent_load hresult
  have hread : tree.load.files (files.map (·.1)) = files := by decide +kernel
  rw [tree.load_source, hfiles] at hsame
  rw [hread] at htemplate
  exact ⟨hfiles, hsame, hdeclare, t, htemplate⟩

end Mustache
