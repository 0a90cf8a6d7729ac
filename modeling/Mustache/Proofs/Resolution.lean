import Mustache.Context
import Mustache.Proofs.Search
import Mustache.Value.Basic

/-!
# Resolving keys

A dotted key is resolved in two ways at once. Its first segment is searched for outward, in one
value of the context after another (`Context.find?_eq_findSome?`), and the rest of it leads inward
from there, one step for each segment, without a way back (`Renderable.follow_eq_foldlM`). What the
innermost value has is therefore settled without the outer ones, and so is what a resolved key goes
on with (`resolve_segments`).
-/

namespace Mustache

/-- The segments of a key are the parts that its dots divide it into. -/
theorem segments_eq_splitOn (key : Text) : segments key = key.splitOn '.' :=
  Text.pieces_eq_splitOn '.' key

/-- The segments of two keys that a dot joins. -/
theorem segments_append (key other : Text) :
    segments (key ++ '.' :: other) = segments key ++ segments other :=
  Text.pieces_append '.' key other

/-- A key has a first segment, even if nothing is written there. -/
theorem exists_segments (key : Text) : ∃ first rest, segments key = first :: rest := by
  rw [segments_eq_splitOn]
  exact List.exists_cons_of_ne_nil (List.splitOn_ne_nil '.' key)

variable {V : Type} [Renderable V] {keyType : KeyType} {v : V} {front back : List Text}

namespace Renderable

/-- Segments lead on from a value by one look-up after another, until one of them fails. -/
theorem follow_eq_foldlM (keyType : KeyType) (v : V) (segments : List Text) :
    follow keyType v segments = segments.foldlM (lookup keyType) v := by
  induction segments generalizing v with
  | nil => rfl
  | cons segment rest ih =>
    rw [follow, List.foldlM_cons]
    exact congrArg _ (funext ih)

/-- Segments lead on from where those in front of them lead to. -/
theorem follow_append : follow keyType v (front ++ back) =
    (follow keyType v front).bind fun w => follow keyType w back := by
  simp only [follow_eq_foldlM, List.foldlM_append]
  rfl

end Renderable

open Renderable

namespace Context

variable {context outer : Context V} {key other : Text} {first : Text} {rest : List Text}

/-- A segment is looked up in each value of a context until one has it. -/
theorem find?_eq_findSome? (keyType : KeyType) (segment : Text) (context : Context V) :
    context.find? keyType segment = context.findSome? fun v => lookup keyType v segment := by
  induction context with
  | nil => rfl
  | cons v outer ih =>
    rw [find?, List.findSome?_cons, ih]
    cases lookup keyType v segment <;> rfl

/-- What the inner values have is found before what the outer ones have. -/
theorem find?_append {segment : Text} : find? keyType segment (context ++ outer) =
    (context.find? keyType segment).or (outer.find? keyType segment) := by
  simp only [find?_eq_findSome?, List.findSome?_append]

/-- A key is searched for by its first segment and followed by the rest. -/
theorem resolve_eq (hkey : key ≠ ['.']) (h : segments key = first :: rest) :
    resolve keyType context key =
      (context.find? keyType first).bind fun v => follow keyType v rest := by
  rw [resolve, if_neg hkey, h]

/-- Nothing is resolved without a value. -/
theorem resolve_nil (keyType : KeyType) (key : Text) :
    resolve keyType ([] : Context V) key = none := by
  by_cases hkey : key = ['.']
  · rw [resolve, if_pos hkey]
    rfl
  · obtain ⟨first, rest, h⟩ := exists_segments key
    rw [resolve_eq hkey h]
    rfl

/-- Against one value a key is the look-ups of all its segments in turn. -/
theorem resolve_singleton (hkey : key ≠ ['.']) :
    resolve keyType [v] key = follow keyType v (segments key) := by
  obtain ⟨first, rest, h⟩ := exists_segments key
  have hfind : find? keyType first [v] = lookup keyType v first := Option.or_none
  rw [resolve_eq hkey h, h, follow, hfind]

/-- A key that the innermost value has the first segment of is settled by that value. -/
theorem resolve_cons_of_some {w : V} (hkey : key ≠ ['.']) (h : segments key = first :: rest)
    (hw : lookup keyType v first = some w) :
    resolve keyType (v :: context) key = follow keyType w rest := by
  rw [resolve_eq hkey h, find?, hw]
  rfl

/-- Any other key is left to the outer values. -/
theorem resolve_cons_of_none (hkey : key ≠ ['.']) (h : segments key = first :: rest)
    (hv : lookup keyType v first = none) :
    resolve keyType (v :: context) key = resolve keyType context key := by
  rw [resolve_eq hkey h, resolve_eq hkey h, find?, hv, Option.none_or]

/-- A key that a dot joins from two is the second of them, resolved against the value of the
first. -/
theorem resolve_append (hkey : key ≠ ['.']) (hother : other ≠ ['.'])
    (hjoined : key ++ '.' :: other ≠ ['.']) : resolve keyType context (key ++ '.' :: other) =
      (resolve keyType context key).bind fun v => resolve keyType [v] other := by
  obtain ⟨first, rest, h⟩ := exists_segments key
  have hsegments : segments (key ++ '.' :: other) = first :: (rest ++ segments other) := by
    rw [segments_append, h, List.cons_append]
  have hfollow : ∀ v : V, follow keyType v (rest ++ segments other) =
      (follow keyType v rest).bind fun w => resolve keyType [w] other := fun v => by
    simp only [follow_append, resolve_singleton hother]
  rw [resolve_eq hjoined hsegments, resolve_eq hkey h, Option.bind_assoc]
  simp only [hfollow]

/-- A key that is resolved keeps its value when outer values are added. -/
theorem resolve_outer (h : resolve keyType context key = some v) :
    resolve keyType (context ++ outer) key = some v := by
  by_cases hkey : key = ['.']
  · rw [resolve, if_pos hkey] at h ⊢
    rw [List.head?_append, h, Option.some_or]
  · obtain ⟨first, rest, hsegments⟩ := exists_segments key
    rw [resolve_eq hkey hsegments] at h ⊢
    obtain ⟨w, hw, hv⟩ := Option.bind_eq_some_iff.1 h
    rw [find?_append, hw, Option.some_or, Option.bind_some, hv]

/-- **The law of keys.** A key other than the dot is settled by the innermost value if that has its
first segment: the remaining segments are looked up one after another from there, and the key has no
value as soon as one of them is missing, whatever the outer values have. If it lacks the first
segment, the key is resolved against the outer values alone.

So a joined key is its parts resolved one after the other, and outer values that are added do not
change a key that has a value already. -/
theorem resolve_segments (V : Type) [Renderable V] (keyType : KeyType) :
    (∀ key, key ≠ ['.'] → ∃ first rest, key.splitOn '.' = first :: rest ∧
      (∀ (context : Context V) (v w : V), lookup keyType v first = some w →
        resolve keyType (v :: context) key = rest.foldlM (lookup keyType) w) ∧
      ∀ (context : Context V) (v : V), lookup keyType v first = none →
        resolve keyType (v :: context) key = resolve keyType context key) ∧
    (∀ key other, key ≠ ['.'] → other ≠ ['.'] → key ++ '.' :: other ≠ ['.'] →
      ∀ context : Context V,
      resolve keyType context (key ++ '.' :: other) =
        (resolve keyType context key).bind fun v => resolve keyType [v] other) ∧
    (∀ key (context outer : Context V) v, resolve keyType context key = some v →
      resolve keyType (context ++ outer) key = some v) ∧
    ∀ key, resolve keyType ([] : Context V) key = none := by
  refine ⟨fun key hkey => ?_, fun _ _ hkey hother hjoined _ => resolve_append hkey hother hjoined,
    fun _ _ _ _ => resolve_outer, resolve_nil keyType⟩
  obtain ⟨first, rest, h⟩ := exists_segments key
  refine ⟨first, rest, segments_eq_splitOn key ▸ h, fun context v w hw => ?_,
    fun context v hv => resolve_cons_of_none hkey h hv⟩
  rw [resolve_cons_of_some hkey h hw, follow_eq_foldlM]

/-- A key with a position and an empty segment, resolved past a value that has nothing for it and in
front of one that has another value for it, a key that the innermost value has the first segment of
and no more, and a key of three segments in a value of a user's own. -/
theorem resolve_segments_past :
    let inner : Value := .json (.object [(['a'], .object [])])
    let middle : Value := .json (.object [(['a'], .object [(['b'], .bool true)]),
      (['l'], .array [.null, .object [([], .object [(['x'], .integer 1)])]])])
    let outer : Value := .json (.object [(['l'], .array [])])
    resolve .indexed [inner, middle, outer] "l.1..x".toList = some (.json (.integer 1)) ∧
      resolve .indexed [inner, middle, outer] "a.b".toList = none ∧
      ∀ context : Context Counter,
        resolve .indexed (⟨0⟩ :: context) "a..b".toList = some ⟨3⟩ := by
  intro inner middle outer
  obtain ⟨hlaw, hjoin, houter, -⟩ := resolve_segments Value .indexed
  have hitem : resolve .indexed ([inner, middle] ++ [outer]) "l.1".toList =
      some (.json (.object [([], .object [(['x'], .integer 1)])])) := houter _ _ _ _ rfl
  obtain ⟨first, rest, hsplit, hsome, -⟩ := hlaw "a.b".toList (by decide)
  obtain ⟨rfl, rfl⟩ : ['a'] = first ∧ [['b']] = rest := List.cons.inj hsplit
  refine ⟨?_, hsome [middle, outer] inner (.json (.object [])) rfl, fun context => ?_⟩
  · refine (hjoin "l.1".toList ".x".toList (by decide) (by decide) (by decide) _).trans ?_
    exact (congrArg (Option.bind · _) hitem).trans rfl
  · obtain ⟨first, rest, hsplit, hsome, -⟩ :=
      (resolve_segments Counter .indexed).1 "a..b".toList (by decide)
    obtain ⟨rfl, rfl⟩ : ['a'] = first ∧ [[], ['b']] = rest := List.cons.inj hsplit
    exact hsome context ⟨0⟩ ⟨1⟩ rfl

end Context

end Mustache
