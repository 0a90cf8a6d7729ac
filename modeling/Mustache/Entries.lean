import Mustache.Text.Basic

/-!
# Entries

A finite map from texts is a list of entries with different keys. Setting a key keeps them
different, and a look-up sees what was set last (`valueAt?_setEntry`).
-/

namespace Mustache

variable {α : Type}

/-- The value of a key in a list of entries. -/
def valueAt? (entries : List (Text × α)) (key : Text) : Option α :=
  match entries with
  | [] => none
  | (k, v) :: entries => if k = key then some v else valueAt? entries key

/-- The entries with a key set to a value. -/
def setEntry (key : Text) (value : α) : List (Text × α) → List (Text × α)
  | [] => [(key, value)]
  | (k, v) :: entries =>
    if k = key then (key, value) :: entries else (k, v) :: setEntry key value entries

/-- A key that was set has the value it was set to, and any other key keeps its own. -/
theorem valueAt?_setEntry (key other : Text) (value : α) (entries : List (Text × α)) :
    valueAt? (setEntry key value entries) other =
      if key = other then some value else valueAt? entries other := by
  induction entries with
  | nil => rfl
  | cons e entries ih =>
    obtain ⟨k, v⟩ := e
    by_cases hk : k = key
    · subst hk; by_cases ho : k = other <;> simp [setEntry, valueAt?, ho]
    · by_cases ho : k = other
      · subst ho; simp [setEntry, valueAt?, hk, Ne.symm hk]
      · simp [setEntry, valueAt?, hk, ho, ih]

/-- What is found in a list of entries is the value of one of them. -/
theorem mem_of_valueAt? {entries : List (Text × α)} {key : Text} {value : α}
    (h : valueAt? entries key = some value) : (key, value) ∈ entries := by
  induction entries with
  | nil => cases h
  | cons e entries ih =>
    obtain ⟨k, v⟩ := e
    simp only [valueAt?] at h
    split at h
    next hk => cases h; cases hk; exact .head _
    next => exact .tail _ (ih h)

/-- A look-up in entries whose values are mapped maps what it finds. -/
theorem valueAt?_map {β : Type} (f : α → β) (entries : List (Text × α)) (key : Text) :
    valueAt? (entries.map fun (k, v) => (k, f v)) key = (valueAt? entries key).map f := by
  induction entries with
  | nil => rfl
  | cons e entries ih =>
    obtain ⟨k, v⟩ := e
    simp only [List.map_cons, valueAt?]
    split
    · rfl
    · exact ih

end Mustache
