import Mustache.Proofs.Agreement
import Mustache.Proofs.Coherence
import Mustache.Proofs.Resolution

/-!
# Keys without positions

Whether segments may be positions makes a difference in sequences only, and there to nothing but
segments that are positions: a sequence has no entries (`Value.get?_eq_none`). So a key without a
position in it (`Positionless`) has the same value in either case, whatever sequences it is looked
up in on the way (`Context.resolve_of_positionless`), and templates with such keys are rendered
alike (`Template.outputs_keyType`).
-/

namespace Mustache

/-- None of the segments of a key is a position. -/
def Positionless (key : Text) : Prop :=
  ∀ segment ∈ key.splitOn '.', Decimal.position? segment = none

instance (key : Text) : Decidable (Positionless key) :=
  inferInstanceAs (Decidable (∀ segment ∈ key.splitOn '.', Decimal.position? segment = none))

open Renderable (lookup follow LambdaFree)

variable {v : Value} {key segment : Text} {segments : List Text}

namespace Value

/-- A segment that is no position denotes the same in either case. -/
theorem lookup_of_not_position (h : Decimal.position? segment = none) (v : Value) :
    lookup .text v segment = lookup .indexed v segment := by
  have htext : lookup .text v segment = v.get? segment := rfl
  rw [htext]
  cases hshape : v.shape with
  | sequence =>
    have hno : v.shape ≠ .mapping := hshape ▸ nofun
    simp only [lookup, Renderable.shape_value, hshape, h, Option.bind_none,
      get?_eq_none segment hno]
  | null | scalar | mapping | lambda =>
    simp only [lookup, Renderable.shape_value, hshape, Renderable.get?_value]

/-- So do segments one after another. -/
theorem follow_of_not_position (h : ∀ segment ∈ segments, Decimal.position? segment = none)
    (v : Value) : follow .text v segments = follow .indexed v segments := by
  induction segments generalizing v with
  | nil => rfl
  | cons segment rest ih =>
    rw [follow, follow, lookup_of_not_position (h segment (.head _))]
    exact congrArg _ (funext fun w => ih (fun s hs => h s (.tail _ hs)) w)

end Value

/-- A key without a position in it has the same value in either case. -/
theorem Context.resolve_of_positionless (h : Positionless key) (context : Context Value) :
    context.resolve .text key = context.resolve .indexed key := by
  by_cases hkey : key = ['.']
  · rw [resolve, resolve, if_pos hkey, if_pos hkey]
  · obtain ⟨first, rest, hsegments⟩ := exists_segments key
    have hall : ∀ segment ∈ first :: rest, Decimal.position? segment = none := by
      rw [← hsegments, segments_eq_splitOn]
      exact h
    have hfirst : context.find? .text first = context.find? .indexed first := by
      simp only [find?_eq_findSome?, Value.lookup_of_not_position (hall first (.head _))]
    have hrest : ∀ v : Value, follow .text v rest = follow .indexed v rest :=
      Value.follow_of_not_position fun s hs => hall s (.tail _ hs)
    rw [resolve_eq hkey hsegments, resolve_eq hkey hsegments, hfirst]
    simp only [hrest]

namespace Template

/-- **Positions make a difference to keys with positions only.** If there are none in the keys of a
template and of its partials, the template outputs the same against lambda-free data whether
segments may be positions or not. -/
theorem outputs_keyType {t : Template} (ht : ∀ key ∈ Tag.dataKeysList t.tags, Positionless key)
    (hpartials : ∀ name tags, t.find? name = some tags →
      ∀ key ∈ Tag.dataKeysList tags, Positionless key)
    (hv : LambdaFree v) (text : Text) :
    (t.withOptions ⟨.text⟩).Outputs v text ↔ (t.withOptions ⟨.indexed⟩).Outputs v text := by
  have hagree : (t.withOptions ⟨.text⟩).scope.AgreeOn Value Positionless (fun _ => True)
      (t.withOptions ⟨.indexed⟩).scope := by
    refine ⟨fun key hkey => Context.resolve_of_positionless hkey, fun _ _ => rfl, fun name _ => ?_⟩
    show Tag.Within _ _ ((t.find? name).getD [])
    cases hfind : t.find? name with
    | none => exact Tag.within_nil
    | some tags => exact ⟨hpartials name tags hfind, fun _ _ => trivial⟩
  exact outputs_iff hagree rfl ⟨ht, fun _ _ => trivial⟩ hv

/-- A dotted key is looked up past two sequences that lie between it and the map that has it. -/
theorem outputs_keyType_nested :
    let t : Template := ⟨[.block ['x'] [] {} [.block ['.'] [] {} [.inclusion ['p']]]],
      [(['p'], [.escaped "n.m".toList, .inverted "x.y".toList [.raw ['.']]])], [['p']], {}⟩
    let v : Value := .hashMap [(['x'], .vector [.slice [.vector [.integer 5, .text ['a']]]]),
      (['n'], .json (.object [(['m'], .text ['<'])]))]
    (t.withOptions ⟨.text⟩).Outputs v "&lt;".toList ∧
      (t.withOptions ⟨.indexed⟩).Outputs v "&lt;".toList := by
  intro t v
  have htext : (t.withOptions ⟨.text⟩).Outputs v "&lt;".toList := ⟨[], 5, by decide +kernel⟩
  have ht : ∀ key ∈ Tag.dataKeysList t.tags, Positionless key := by decide +kernel
  have hpartials : ∀ name tags, t.find? name = some tags →
      ∀ key ∈ Tag.dataKeysList tags, Positionless key := by
    intro name tags hfind
    obtain ⟨-, rfl⟩ := Prod.mk.inj (List.mem_singleton.1 (mem_of_valueAt? hfind))
    decide +kernel
  have hv : v.WithoutLambda := by
    refine .hashMap (List.forall_mem_cons.2 ⟨.vector ?_, List.forall_mem_singleton.2 (.json _)⟩)
    refine List.forall_mem_singleton.2 (.slice (List.forall_mem_singleton.2 (.vector ?_)))
    exact List.forall_mem_cons.2 ⟨.integer 5, List.forall_mem_singleton.2 (.text ['a'])⟩
  exact ⟨htext, (outputs_keyType ht hpartials hv.lambdaFree _).1 htext⟩

end Template

end Mustache
