import Mustache.Error
import Mustache.Parse

/-!
# Loaders

A loader answers a path with a text or says that there is none. `Memory` serves texts under paths
compared by components. A `Source` is a loader that has finitely many texts to give, which is what
bounds the loading of partials.
-/

namespace Mustache

/-- What texts are loaded with. A loader is a function, so that it gives the same answer however
often it is asked for a path. Reference: `Loader`. -/
abbrev Loader := Path → Except Error Text

/-- Texts under paths. No two of the paths are the same. Reference: `MemoryLoader`. -/
structure Memory where
  files : List (Path × Text) := []

namespace Memory

/-- Puts a text under a path, in place of the text that was there. Reference:
`MemoryLoader.insert`. -/
def insert (m : Memory) (path : Path) (text : Text) : Memory :=
  ⟨m.files.filter (fun file => !decide (file.1.Same path)) ++ [(path, text)]⟩

/-- The text under a path. Reference: `MemoryLoader.load`. -/
def load (m : Memory) : Loader := fun path =>
  match m.files.find? fun file => decide (file.1.Same path) with
  | some (_, text) => .ok text
  | none => .error (.notFound path)

end Memory

/-- A loader with all the texts that it can answer with. -/
structure Source where
  load : Loader
  texts : List Text
  mem_texts : ∀ {path text}, load path = .ok text → text ∈ texts

/-- The files of a memory as a source. -/
def Memory.source (m : Memory) : Source where
  load := m.load
  texts := m.files.map (·.2)
  mem_texts := by
    intro path text h
    simp only [load] at h
    split at h
    next hfind =>
      cases h
      exact List.mem_map_of_mem (List.mem_of_find?_eq_some hfind)
    next => cases h

/-- The names of the partials that a text refers to; none if the text is no template. -/
def references (src : Text) : List Text :=
  match parse {} src with
  | .ok (_, state) => state.names
  | .error _ => []

/-- The names that the texts of a source refer to. -/
def Source.references (s : Source) : List Text :=
  s.texts.flatMap Mustache.references

end Mustache
