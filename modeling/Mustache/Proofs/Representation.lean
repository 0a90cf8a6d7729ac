import Mustache.Proofs.Bisimulation
import Mustache.Proofs.Coherence

/-!
# Representations of a tree

A tree of nulls, truth values, integers, texts, lists and maps is a JSON value (`Json.Plain`), and
it can be given in other ways: as data, or put together from optional values, references, lists and
maps (`Represents`). Each of these is seen as the JSON value is: it has its shape, text and truth,
no lambda, and it holds representations of what the JSON value holds. So two representations of one
tree cannot be told apart (`bisimulation_represents`), and they are rendered alike
(`renderWithin_of_represents`).
-/

namespace Mustache

/-- A JSON value of nulls, truth values, integers of 64 bits, texts, arrays and objects. -/
inductive Json.Plain : Json → Prop
  | null : Plain .null
  | bool (b : Bool) : Plain (.bool b)
  | integer {n : Int} : Data.isInteger n = true → Plain (.integer n)
  | text (t : Text) : Plain (.text t)
  | array {items : List Json} : (∀ j ∈ items, j.Plain) → Plain (.array items)
  | object {entries : List (Text × Json)} : (∀ e ∈ entries, e.2.Plain) → Plain (.object entries)

/-- The values that represent a JSON value. An optional value or a reference may stand around any
part of it. -/
inductive Represents : Json → Value → Prop
  | json (j : Json) : Represents j (.json j)
  | data (j : Json) : Represents j (.data (.ofJson j))
  | null : Represents .null .absent
  | bool (b : Bool) : Represents (.bool b) (.bool b)
  | integer (n : Int) : Represents (.integer n) (.integer n)
  | text (t : Text) : Represents (.text t) (.text t)
  | vector {js : List Json} {vs : List Value} :
      List.Forall₂ Represents js vs → Represents (.array js) (.vector vs)
  | slice {js : List Json} {vs : List Value} :
      List.Forall₂ Represents js vs → Represents (.array js) (.slice vs)
  /-- The entries of a map are found by their keys only; their order does not matter. -/
  | hashMap {js : List (Text × Json)} {vs : List (Text × Value)} :
      (∀ key, Option.Rel Represents (valueAt? js key) (valueAt? vs key)) →
      Represents (.object js) (.hashMap vs)
  | orderedMap {js : List (Text × Json)} {vs : List (Text × Value)} :
      (∀ key, Option.Rel Represents (valueAt? js key) (valueAt? vs key)) →
      Represents (.object js) (.orderedMap vs)
  | present {j : Json} {v : Value} : Represents j v → Represents j (.present v)
  | ref {j : Json} {v : Value} : Represents j v → Represents j (.ref v)

namespace Data

/-- The data of an array are those of its items. -/
theorem ofJsonList_eq_map (js : List Json) : ofJsonList js = js.map ofJson := by
  induction js with
  | nil => rfl
  | cons j js ih => rw [ofJsonList, ih, List.map_cons]

/-- The data of an object are those of its entries. -/
theorem ofJsonEntries_eq_map (js : List (Text × Json)) :
    ofJsonEntries js = js.map fun (k, j) => (k, ofJson j) := by
  induction js with
  | nil => rfl
  | cons e js ih => rw [ofJsonEntries, ih, List.map_cons]

end Data

namespace Json.Plain

variable {j k : Json} {key : Text}

/-- The entries of a plain value are plain. -/
theorem get? (hj : j.Plain) (h : j.get? key = some k) : k.Plain := by
  cases hj with
  | object hentries => exact hentries _ (mem_of_valueAt? h)
  | _ => cases h

/-- The items of a plain value are plain. -/
theorem items (hj : j.Plain) (h : k ∈ j.items) : k.Plain := by
  cases hj with
  | array hitems => exact hitems k h
  | _ => cases h

/-- The data of a plain value look like it. -/
theorem ofJson (hj : j.Plain) : (Data.ofJson j).shape = j.shape ∧
    (Data.ofJson j).truthy = j.truthy ∧ (Data.ofJson j).toText = j.toText ∧
    (Data.ofJson j).lambda? = none := by
  cases hj with
  | @integer n hn =>
    have hdata : Data.ofJson (.integer n) = .integer n := by
      rw [Data.ofJson, Data.ofInteger, if_pos hn]
    rw [hdata]
    exact ⟨rfl, rfl, rfl, rfl⟩
  | @array js => cases js <;> exact ⟨rfl, rfl, rfl, rfl⟩
  | _ => exact ⟨rfl, rfl, rfl, rfl⟩

/-- The entries of the data of a plain value are the data of its entries. -/
theorem get?_ofJson (hj : j.Plain) :
    (Data.ofJson j).get? key = (j.get? key).map Data.ofJson := by
  cases hj with
  | @object js =>
    rw [Json.get?, ← valueAt?_map, ← Data.ofJsonEntries_eq_map]
    rfl
  | integer hn => rw [Data.ofJson, Data.ofInteger, if_pos hn]; rfl
  | _ => rfl

/-- The items of the data of a plain value are the data of its items. -/
theorem items_ofJson (hj : j.Plain) : (Data.ofJson j).items = j.items.map Data.ofJson := by
  cases hj with
  | @array js => exact Data.ofJsonList_eq_map js
  | integer hn => rw [Data.ofJson, Data.ofInteger, if_pos hn]; rfl
  | _ => rfl

end Json.Plain

/-- A value looks like a JSON value and holds representations of what the JSON value holds. -/
structure Json.SeenAs (j : Json) (v : Value) : Prop where
  shape : v.shape = j.shape
  truthy : v.truthy = j.truthy
  toText : v.toText = j.toText
  lambda? : v.lambda? = none
  get? : ∀ key, Option.Rel Represents (j.get? key) (v.get? key)
  items : List.Forall₂ Represents j.items v.items

namespace Json

variable {j : Json}

theorem seenAs_json (j : Json) : j.SeenAs (.json j) where
  shape := rfl
  truthy := rfl
  toText := rfl
  lambda? := rfl
  get? key := by
    rw [Value.get?]
    cases j.get? key with
    | none => exact .none
    | some k => exact .some (.json k)
  items := by
    rw [Value.items, List.forall₂_map_right_iff]
    exact List.forall₂_same.2 fun k _ => .json k

theorem Plain.seenAs_data (hj : j.Plain) : j.SeenAs (.data (.ofJson j)) where
  shape := hj.ofJson.1
  truthy := hj.ofJson.2.1
  toText := hj.ofJson.2.2.1
  lambda? := hj.ofJson.2.2.2
  get? key := by
    rw [Value.get?, hj.get?_ofJson]
    cases j.get? key with
    | none => exact .none
    | some k => exact .some (.data k)
  items := by
    rw [Value.items, hj.items_ofJson, List.forall₂_map_right_iff, List.forall₂_map_right_iff]
    exact List.forall₂_same.2 fun k _ => .data k

end Json

namespace Represents

variable {j : Json} {v : Value}

theorem of_present : Represents j (.present v) → Represents j v
  | .present h => h

theorem of_ref : Represents j (.ref v) → Represents j v
  | .ref h => h

/-- A plain JSON value is seen in each of its representations. -/
theorem seenAs (hj : j.Plain) : ∀ v : Value, Represents j v → j.SeenAs v
  | .present v, h =>
    have hv := seenAs hj v h.of_present
    ⟨hv.shape, hv.truthy, hv.toText, hv.lambda?, hv.get?, hv.items⟩
  | .ref v, h =>
    have hv := seenAs hj v h.of_ref
    ⟨hv.shape, hv.truthy, hv.toText, hv.lambda?, hv.get?, hv.items⟩
  | .json _, h => by cases h; exact j.seenAs_json
  | .data _, h => by cases h; exact hj.seenAs_data
  | .text _, h | .bool _, h | .integer _, h | .absent, h => by
    cases h; exact ⟨rfl, rfl, rfl, rfl, fun _ => .none, .nil⟩
  | .hashMap _, h => by
    cases h with
    | hashMap hentries => exact ⟨rfl, rfl, rfl, rfl, hentries, .nil⟩
  | .orderedMap _, h => by
    cases h with
    | orderedMap hentries => exact ⟨rfl, rfl, rfl, rfl, hentries, .nil⟩
  | .vector _, h => by
    cases h with
    | vector hitems => exact ⟨rfl, by cases hitems <;> rfl, rfl, rfl, fun _ => .none, hitems⟩
  | .slice _, h => by
    cases h with
    | slice hitems => exact ⟨rfl, by cases hitems <;> rfl, rfl, rfl, fun _ => .none, hitems⟩

end Represents

/-- Lists that are related item by item are related at each position. -/
theorem rel_getElem? {α β : Type} {R : α → β → Prop} {as : List α} {bs : List β}
    (h : List.Forall₂ R as bs) (i : Nat) : Option.Rel R as[i]? bs[i]? := by
  induction h generalizing i with
  | nil => exact .none
  | cons hab _ ih =>
    cases i with
    | zero => exact .some hab
    | succ i => simpa using ih i

/-- The items of a plain JSON value are represented in each of its representations. -/
theorem Represents.forall₂_items {j : Json} {v : Value} (hj : j.Plain) (h : Represents j v) :
    List.Forall₂ (fun u w => ∃ k : Json, k.Plain ∧ u = Value.json k ∧ Represents k w)
      (Value.json j).items v.items := by
  have hplain : List.Forall₂ (fun k u => k.Plain ∧ Represents k u) j.items v.items :=
    (List.forall₂_and_left _ _).2 ⟨fun k hk => hj.items hk, (h.seenAs hj).items⟩
  rw [Value.items, List.forall₂_map_left_iff]
  exact hplain.imp fun k u hku => ⟨k, hku.1, rfl, hku.2⟩

/-- A plain JSON value cannot be told from any of its representations. -/
theorem bisimulation_represents :
    Bisimulation fun v w : Value => ∃ j : Json, j.Plain ∧ v = .json j ∧ Represents j w where
  shape := by
    rintro _ w ⟨j, hj, rfl, h⟩
    exact (h.seenAs hj).shape.symm
  truthy := by
    rintro _ w ⟨j, hj, rfl, h⟩
    exact (h.seenAs hj).truthy.symm
  toText := by
    rintro _ w ⟨j, hj, rfl, h⟩
    exact (h.seenAs hj).toText.symm
  lambda? := by
    rintro _ w ⟨j, hj, rfl, h⟩
    exact (h.seenAs hj).lambda?.symm
  get? := by
    rintro _ w ⟨j, hj, rfl, h⟩ key
    have hrel := (h.seenAs hj).get? key
    show Option.Rel _ ((j.get? key).map Value.json) (w.get? key)
    generalize hfind : j.get? key = x at hrel ⊢
    generalize w.get? key = y at hrel ⊢
    cases hrel with
    | none => exact .none
    | some hk => exact .some ⟨_, hj.get? hfind, rfl, hk⟩
  getAt? := by
    rintro _ w ⟨j, hj, rfl, h⟩ i
    show Option.Rel _ ((Value.json j).getAt? i) (w.getAt? i)
    rw [Value.getAt?_eq_getElem?, Value.getAt?_eq_getElem?]
    exact rel_getElem? (h.forall₂_items hj) i
  items := by
    rintro _ w ⟨j, hj, rfl, h⟩
    exact h.forall₂_items hj

/-- **Rendering does not depend on how the data are represented.** A template is rendered against a
plain JSON value as it is against the data of it, and against any other representation of it, with
the same events on the way, and it ends at the same depth. -/
theorem renderWithin_of_represents {j : Json} (hj : j.Plain) (t : Template) (depth : Nat) :
    t.renderWithin depth (Value.data (.ofJson j)) = t.renderWithin depth (Value.json j) ∧
      ∀ v, Represents j v → t.renderWithin depth v = t.renderWithin depth (Value.json j) := by
  have hall : ∀ v, Represents j v → t.renderWithin depth v = t.renderWithin depth (Value.json j) :=
    fun v h => (Template.renderWithin_eq_of_bisimulation bisimulation_represents
      ⟨j, hj, rfl, h⟩ t depth).symm
  exact ⟨hall _ (.data j), hall⟩

/-- A map that holds an integer and a list, with an item that is not there. -/
theorem renderWithin_of_represents_map :
    let j : Json := .object [(['n'], .integer (-7)), (['x'], .array [.null, .text ['a']])]
    let v : Value := .ref (.orderedMap [(['x'], .present (.slice [.present .absent,
      .ref (.text ['a'])])), (['n'], .integer (-7))])
    let t : Template := ⟨[.block ['x'] [] {} [.escaped ['.'], .raw ['n']]], [], [], {}⟩
    t.renderWithin 2 (Value.json j) = some ⟨"-7a-7".toList, []⟩ ∧
      t.renderWithin 2 (Value.data (.ofJson j)) = some ⟨"-7a-7".toList, []⟩ ∧
      t.renderWithin 2 v = some ⟨"-7a-7".toList, []⟩ := by
  intro j v t
  have hjson : t.renderWithin 2 (Value.json j) = some ⟨"-7a-7".toList, []⟩ := by decide +kernel
  have hj : j.Plain := by
    refine .object fun e he => ?_
    rcases List.mem_cons.1 he with rfl | he
    · exact .integer rfl
    · obtain rfl := List.mem_singleton.1 he
      refine .array fun k hk => ?_
      rcases List.mem_cons.1 hk with rfl | hk
      · exact .null
      · obtain rfl := List.mem_singleton.1 hk
        exact .text _
  have hv : Represents j v := by
    refine .ref (.orderedMap fun key => ?_)
    by_cases hx : ['x'] = key
    · subst hx
      exact .some (.present (.slice (.cons (.present .null) (.cons (.ref (.text _)) .nil))))
    · by_cases hn : ['n'] = key
      · subst hn
        exact .some (.integer _)
      · simp only [valueAt?, if_neg hx, if_neg hn]
        exact .none
  obtain ⟨hdata, hall⟩ := renderWithin_of_represents hj t 2
  exact ⟨hjson, hdata.trans hjson, (hall v hv).trans hjson⟩

end Mustache
