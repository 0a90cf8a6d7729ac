import Mustache.Proofs.Agreement
import Mustache.Proofs.Registration

/-!
# Partials that are reached

A rendering comes to the partials that have a place among the tags, to those that have a place among
theirs, and so on (`Partials.Reaches`). What the table holds under other names makes no difference
to it. Nor does it make one whether a partial is empty or not there (`Partials.tagsAt`). So a
template outputs the same with any table that has the same partials where they are reached
(`Template.outputs_of_reached`).
-/

namespace Mustache

namespace Partials

variable {partials : Partials} {tags : List Tag} {a b name : Text}

/-- A partial is reached from tags: it has a place among them, or references lead to it from one
that has. -/
def Reaches (partials : Partials) (tags : List Tag) (name : Text) : Prop :=
  ∃ a ∈ Tag.inclusionsList tags, Relation.ReflTransGen partials.Refers a name

/-- A partial refers to those that have a place among its tags. -/
theorem refers_iff : partials.Refers a b ↔ b ∈ Tag.inclusionsList (partials.tagsAt a) := by
  unfold Refers tagsAt
  cases valueAt? partials a with
  | none => exact ⟨nofun, nofun⟩
  | some tags => exact ⟨fun ⟨_, h, hb⟩ => by cases h; exact hb, fun hb => ⟨tags, rfl, hb⟩⟩

/-- A partial that has a place among tags is reached from them. -/
theorem reaches_of_mem (h : name ∈ Tag.inclusionsList tags) : partials.Reaches tags name :=
  ⟨name, h, .refl⟩

/-- So is one that has a place in a partial that is reached. -/
theorem Reaches.step (h : partials.Reaches tags a)
    (hb : b ∈ Tag.inclusionsList (partials.tagsAt a)) : partials.Reaches tags b := by
  obtain ⟨first, hfirst, hchain⟩ := h
  exact ⟨first, hfirst, hchain.tail (refers_iff.2 hb)⟩

/-- Names that hold those with a place among the tags, and with a name those with a place in its
partial, are all that are reached. -/
theorem Reaches.mem {names : List Text} (h : partials.Reaches tags name)
    (htags : ∀ a ∈ Tag.inclusionsList tags, a ∈ names)
    (hnames : ∀ a ∈ names, ∀ b ∈ Tag.inclusionsList (partials.tagsAt a), b ∈ names) :
    name ∈ names := by
  obtain ⟨first, hfirst, hchain⟩ := h
  induction hchain with
  | refl => exact htags first hfirst
  | tail _ hstep ih => exact hnames _ ih _ (refers_iff.1 hstep)

end Partials

namespace Template

variable {t u : Template} {name : Text} {tags : List Tag} {names : List Text}
  {texts more : List (Text × Text)}

/-- Two templates output the same against all lambda-free data of whatever type, as far as their
renderings end. -/
def SameOutput (t u : Template) : Prop :=
  ∀ (V : Type) [Renderable V] (v : V), Renderable.LambdaFree v →
    ∀ text, t.Outputs v text ↔ u.Outputs v text

/-- A template reaches a partial from its tags. -/
def Reaches (t : Template) (name : Text) : Prop :=
  t.partials.Reaches t.tags name

/-- Templates that render the same tags for every partial that is reached output the same. -/
theorem SameOutput.of_reaches (htags : u.tags = t.tags) (hoptions : u.options = t.options)
    (h : ∀ name, t.Reaches name → t.partials.tagsAt name = u.partials.tagsAt name) :
    t.SameOutput u := by
  intro V _ v hv text
  have hagree : t.scope.AgreeOn V (fun _ => True) t.Reaches u.scope := by
    refine ⟨fun key _ context => ?_, h, fun name hname => ⟨fun _ _ => trivial, fun b hb => ?_⟩⟩
    · show context.resolve t.options.keyType key = context.resolve u.options.keyType key
      rw [hoptions]
    · exact hname.step hb
  exact outputs_iff hagree htags ⟨fun _ _ => trivial, fun _ => Partials.reaches_of_mem⟩ hv

/-- The same partials are rendered alike. -/
theorem tagsAt_eq_of_find? (h : t.find? name = u.find? name) :
    t.partials.tagsAt name = u.partials.tagsAt name :=
  congrArg (Option.getD · []) h

/-- A partial that is missing is rendered as an empty one. -/
theorem sameOutput_insert_nil (h : t.find? name = none) :
    t.SameOutput (t.insert name [] names) := by
  refine .of_reaches rfl rfl fun other _ => ?_
  by_cases hname : name = other
  · subst hname
    have hinsert : (t.insert name [] names).find? name = some [] := by
      rw [find?_insert, if_pos rfl]
    show (t.find? name).getD [] = ((t.insert name [] names).find? name).getD []
    rw [h, hinsert]
    rfl
  · refine tagsAt_eq_of_find? ?_
    rw [find?_insert, if_neg hname]

/-- Partials that are registered under names that are not reached change nothing. -/
theorem sameOutput_addPartials (h : t.addPartials texts = .ok u)
    (hunreached : ∀ text ∈ texts, ¬ t.Reaches text.1) : t.SameOutput u := by
  obtain ⟨htags, hoptions⟩ := tags_options_addPartials h
  refine .of_reaches htags hoptions fun name hname => tagsAt_eq_of_find? ?_
  refine (find?_addPartials_of_not_mem h fun hin => ?_).symm
  obtain ⟨text, htext, rfl⟩ := List.mem_map.1 hin
  exact hunreached text htext hname

/-- Partials under different names can be registered in any order. -/
theorem sameOutput_of_perm (h : t.addPartials texts = .ok u) (hnodup : (texts.map (·.1)).Nodup)
    (hperm : texts.Perm more) : ∃ v, t.addPartials more = .ok v ∧ u.SameOutput v := by
  obtain ⟨v, hv, hfind⟩ := addPartials_of_perm h hnodup hperm
  obtain ⟨htags, hoptions⟩ := tags_options_addPartials h
  obtain ⟨htags', hoptions'⟩ := tags_options_addPartials hv
  exact ⟨v, hv, .of_reaches (htags'.trans htags.symm) (hoptions'.trans hoptions.symm)
    fun name _ => tagsAt_eq_of_find? (hfind name)⟩

/-- **A template outputs what its tags and the partials that are reached from them say.** Two
templates with the same tags and options output the same if they render the same tags for every
partial that is reached, where a partial that is not there counts as one without tags.

So a partial that is missing is rendered as an empty one, partials that nothing reaches can be
registered without effect, and partials under different names can be registered in any order. -/
theorem outputs_of_reached :
    (∀ t u : Template, u.tags = t.tags → u.options = t.options →
      (∀ name, t.partials.Reaches t.tags name →
        (t.find? name).getD [] = (u.find? name).getD []) → t.SameOutput u) ∧
    (∀ (t : Template) (name : Text) (names : List Text), t.find? name = none →
      t.SameOutput (t.insert name [] names)) ∧
    (∀ (t u : Template) (texts : List (Text × Text)), t.addPartials texts = .ok u →
      (∀ text ∈ texts, ¬ t.partials.Reaches t.tags text.1) → t.SameOutput u) ∧
    ∀ (t u : Template) (texts more : List (Text × Text)), t.addPartials texts = .ok u →
      (texts.map (·.1)).Nodup → texts.Perm more →
      ∃ v, t.addPartials more = .ok v ∧ u.SameOutput v :=
  ⟨fun _ _ => .of_reaches, fun _ _ _ => sameOutput_insert_nil, fun _ _ _ => sameOutput_addPartials,
    fun _ _ _ _ => sameOutput_of_perm⟩

/-- A table with a partial that is missing and one that nothing reaches, a table with an empty
partial instead, and two texts that are registered in either order. -/
theorem outputs_of_reached_tables :
    let row : List Tag := [.escaped ['.'], .inclusion ['q']]
    let t : Template :=
      ⟨[.inclusion ['p']], [(['p'], row), (['r'], [.inclusion ['p']])], [['p'], ['q']], {}⟩
    let u : Template := ⟨[.inclusion ['p']], [(['q'], []), (['p'], row)], [['p']], {}⟩
    let v : Value := .integer 7
    t.Outputs v ['7'] ∧ u.Outputs v ['7'] ∧ (t.insert ['q'] [] []).Outputs v ['7'] ∧
      (∃ w, t.addPartials [(['r'], "{{>s}}".toList), (['s'], ['x'])] = .ok w ∧
        w.Outputs v ['7']) ∧
      ∃ w, t.addPartials [(['s'], ['x']), (['r'], "{{>s}}".toList)] = .ok w ∧
        w.Outputs v ['7'] := by
  intro row t u v
  obtain ⟨hsame, hmissing, hunreached, hperm⟩ := outputs_of_reached
  have ht : t.Outputs v ['7'] := ⟨[.missing ['q']], 3, by decide +kernel⟩
  have hv : Renderable.LambdaFree v := (Value.WithoutLambda.integer 7).lambdaFree
  have hreached : ∀ name, t.partials.Reaches t.tags name → name ∈ [['p'], ['q']] :=
    fun name h => h.mem (by decide +kernel) (by decide +kernel)
  have htables : t.SameOutput u := by
    refine hsame t u rfl rfl fun name hname => ?_
    have hall : ∀ name ∈ [['p'], ['q']], (t.find? name).getD [] = (u.find? name).getD [] := by
      decide +kernel
    exact hall name (hreached name hname)
  let w : Template := (t.insert ['r'] [.inclusion ['s']] [['s']]).insert ['s'] [.literal ['x']] []
  have hadd : t.addPartials [(['r'], "{{>s}}".toList), (['s'], ['x'])] = .ok w := by
    refine addPartials_cons_eq_ok_iff.2 ⟨t.insert ['r'] [.inclusion ['s']] [['s']], ?_, ?_⟩
    · exact addPartial_eq_ok_iff.2 ⟨_, by decide +kernel, rfl⟩
    · exact addPartials_cons_eq_ok_iff.2
        ⟨w, addPartial_eq_ok_iff.2 ⟨_, by decide +kernel, rfl⟩, rfl⟩
  have hnames : ∀ name ∈ [['r'], ['s']], name ∉ [['p'], ['q']] := by decide
  have hw : t.SameOutput w := hunreached t w _ hadd fun text htext h =>
    hnames text.1 (List.mem_map_of_mem htext) (hreached text.1 h)
  obtain ⟨w', hw', hswapped⟩ := hperm t w _ _ hadd (by decide) (.swap ..)
  exact ⟨ht, (htables _ v hv _).1 ht, (hmissing t ['q'] [] rfl _ v hv _).1 ht,
    ⟨w, hadd, (hw _ v hv _).1 ht⟩, w', hw', (hswapped _ v hv _).1 ((hw _ v hv _).1 ht)⟩

end Template

end Mustache
