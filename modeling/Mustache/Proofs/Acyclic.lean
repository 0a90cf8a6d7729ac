import Mathlib.Data.List.Chain
import Mathlib.Data.List.Perm.Subperm
import Mathlib.Logic.Relation
import Mustache.Proofs.LambdaFree

/-!
# Rendering without cycles of partials

A partial refers to the partials that have a place among its tags (`Partials.Refers`). If no cycle
of references can be reached from the tags of a template, a chain of references is at most as long
as the table of partials (`Partials.Acyclic.ends`), as no partial occurs in it twice. How deep
blocks nest in a rendering is then known beforehand: the data say how often a block is rendered, but
not how deep it stands (`Partials.Acyclic.rendered`).
-/

namespace Mustache

/-! ## The nesting of tags -/

namespace Tag

mutual

/-- How deep blocks nest inside a tag, apart from the partials in it. -/
def depth : Tag → Nat
  | .literal _ | .escaped _ | .raw _ | .inclusion _ => 0
  | .block _ _ _ children | .inverted _ children => depthList children

/-- How deep blocks nest in a list of tags, the list itself being the first of them. -/
def depthList : List Tag → Nat
  | [] => 1
  | t :: ts => max (depth t + 1) (depthList ts)

end

variable {t : Tag} {ts : List Tag} {name : Text}

/-- A tag nests less deep than a list that it stands in. -/
theorem depth_lt_depthList (h : t ∈ ts) : t.depth < depthList ts := by
  induction ts with
  | nil => cases h
  | cons u ts ih =>
    simp only [depthList]
    rcases List.mem_cons.1 h with rfl | h
    · exact Nat.lt_of_lt_of_le (Nat.lt_succ_self _) (Nat.le_max_left ..)
    · exact Nat.lt_of_lt_of_le (ih h) (Nat.le_max_right ..)

/-- A list of tags is a block of its own. -/
theorem depthList_pos (ts : List Tag) : 0 < depthList ts := by
  induction ts with
  | nil => exact Nat.zero_lt_one
  | cons t ts ih => exact Nat.lt_of_lt_of_le ih (Nat.le_max_right ..)

/-- A partial that has a place in a tag has one in a list that the tag stands in. -/
theorem mem_inclusionsList (h : t ∈ ts) (hname : name ∈ t.inclusions) :
    name ∈ inclusionsList ts := by
  induction ts with
  | nil => cases h
  | cons u ts ih =>
    simp only [inclusionsList, List.mem_append]
    rcases List.mem_cons.1 h with rfl | h
    · exact .inl hname
    · exact .inr (ih h)

end Tag

/-! ## References between partials -/

namespace Partials

variable {partials : Partials} {tags : List Tag} {a b name : Text} {k : Nat}

/-- The tags of a partial have a place for another one. -/
def Refers (partials : Partials) (a b : Text) : Prop :=
  ∃ tags, valueAt? partials a = some tags ∧ b ∈ Tag.inclusionsList tags

/-- No cycle of references can be reached from the partials that have a place among tags. -/
def Acyclic (partials : Partials) (tags : List Tag) : Prop :=
  ∀ a ∈ Tag.inclusionsList tags, ∀ b, Relation.ReflTransGen partials.Refers a b →
    ¬ Relation.TransGen partials.Refers b b

/-- There is no cycle if every partial refers only to partials of a lower rank. -/
theorem acyclic_of_rank (rank : Text → Nat)
    (h : ∀ e ∈ partials, ∀ b ∈ Tag.inclusionsList e.2, rank b < rank e.1) :
    partials.Acyclic tags := by
  have hfalls : ∀ a b, Relation.TransGen partials.Refers a b → rank b < rank a := by
    intro a b hab
    induction hab with
    | single hstep =>
      obtain ⟨_, hfind, hmem⟩ := hstep
      exact h _ (mem_of_valueAt? hfind) _ hmem
    | tail _ hstep ih =>
      obtain ⟨_, hfind, hmem⟩ := hstep
      exact Nat.lt_trans (h _ (mem_of_valueAt? hfind) _ hmem) ih
  exact fun _ _ b _ hcycle => Nat.lt_irrefl _ (hfalls b b hcycle)

/-- Every chain of references from a partial leads in at most `k` steps to one that is not
there. -/
def Ends (partials : Partials) : (k : Nat) → Text → Prop
  | 0, a => valueAt? partials a = none
  | k + 1, a => ∀ b, partials.Refers a b → partials.Ends k b

/-- A partial from which references go on for longer than `k` steps begins a chain of more than `k`
partials that are all there. -/
theorem exists_chain_of_not_ends (h : ¬ partials.Ends k a) :
    ∃ as : List Text, as.length = k ∧ (a :: as).IsChain partials.Refers ∧
      ∀ b ∈ a :: as, valueAt? partials b ≠ none := by
  induction k generalizing a with
  | zero => exact ⟨[], rfl, .singleton a, fun b hb => List.mem_singleton.1 hb ▸ h⟩
  | succ k ih =>
    simp only [Ends, not_forall] at h
    obtain ⟨b, hrefers, hb⟩ := h
    obtain ⟨as, hlength, hchain, hthere⟩ := ih hb
    have ha : valueAt? partials a ≠ none := by
      obtain ⟨tags, hfind, -⟩ := hrefers
      exact hfind ▸ Option.some_ne_none tags
    exact ⟨b :: as, congrArg Nat.succ hlength, .cons_cons hrefers hchain,
      List.forall_mem_cons.2 ⟨ha, hthere⟩⟩

/-- What is found in a table is the tags of one of its names. -/
theorem mem_names_of_find (h : valueAt? partials a ≠ none) : a ∈ partials.map Prod.fst := by
  obtain ⟨tags, hfind⟩ := Option.ne_none_iff_exists'.1 h
  exact List.mem_map.2 ⟨(a, tags), mem_of_valueAt? hfind, rfl⟩

/-- Where there is no cycle, no chain of references is longer than the table. -/
theorem Acyclic.ends (h : partials.Acyclic tags) (ha : a ∈ Tag.inclusionsList tags) :
    partials.Ends partials.length a := by
  by_contra hends
  obtain ⟨as, hlength, hchain, hthere⟩ := exists_chain_of_not_ends hends
  have hleads : (a :: as).Pairwise (Relation.TransGen partials.Refers) :=
    (hchain.imp fun _ _ => .single).pairwise
  have hreach : ∀ b ∈ a :: as, Relation.ReflTransGen partials.Refers a b :=
    List.forall_mem_cons.2
      ⟨.refl, fun b hb => (List.rel_of_pairwise_cons hleads hb).to_reflTransGen⟩
  have hnodup : (a :: as).Nodup := by
    refine hleads.imp_of_mem fun {b c} hb _ hbc heq => ?_
    subst heq
    exact h a ha b (hreach b hb) hbc
  have hle : (a :: as).length ≤ (partials.map Prod.fst).length :=
    (hnodup.subperm fun b hb => mem_names_of_find (hthere b hb)).length_le
  rw [List.length_cons, hlength, List.length_map] at hle
  exact Nat.not_succ_le_self _ hle

/-! ## The depth of a rendering -/

/-- How deep blocks nest in the partials of a table at most. -/
def depth (partials : Partials) : Nat :=
  (partials.map fun e => Tag.depthList e.2).foldr max 0

/-- Blocks nest as deep in the table as in a partial of it. -/
theorem depthList_le_depth (h : valueAt? partials name = some tags) :
    Tag.depthList tags ≤ partials.depth := by
  have hmem := mem_of_valueAt? h
  clear h
  induction partials with
  | nil => cases hmem
  | cons e partials ih =>
    rcases List.mem_cons.1 hmem with rfl | hmem
    · exact Nat.le_max_left ..
    · exact Nat.le_trans (ih hmem) (Nat.le_max_right ..)

/-- The depth that tags need whose partials refer to each other along no cycle: that of the tags,
and that of the deepest partial for each partial of a chain. -/
def bound (partials : Partials) (tags : List Tag) : Nat :=
  Tag.depthList tags + partials.length * partials.depth

end Partials

/-- A run ends if every item in it does. -/
theorem Rendering.exists_each {α : Type} {render : α → Option Rendering} {as : List α}
    (h : ∀ a ∈ as, ∃ r, render a = some r) : ∃ r, Rendering.each render as = some r := by
  induction as with
  | nil => exact ⟨{}, rfl⟩
  | cons a as ih =>
    obtain ⟨x, hx⟩ := h a (.head _)
    obtain ⟨y, hy⟩ := ih fun b hb => h b (.tail _ hb)
    exact ⟨x ++ y, by simp only [Rendering.each, hx, hy, Option.map_some]⟩

section Rendered

variable {V : Type} [Renderable V] {partials : Partials} {context : Context V} {tags : List Tag}
  {n k : Nat}

/-- Tags are rendered in a lambda-free context within a depth that has room for them and for the
partials along each chain of references. -/
theorem exists_renderBlock (keyType : KeyType) (hn : Tag.depthList tags + k * partials.depth ≤ n)
    (hends : ∀ name ∈ Tag.inclusionsList tags, partials.Ends k name) (hc : context.LambdaFree) :
    ∃ r, renderBlock ⟨keyType, partials⟩ n context tags = some r := by
  -- Each block that is entered takes one from the depth, whether it stands in the tags or in a
  -- partial. How many contexts a section enters makes no difference to it.
  induction n generalizing k tags context with
  | zero =>
    have hpos := Tag.depthList_pos tags
    omega
  | succ n ih =>
    refine Rendering.exists_each fun t ht => ?_
    have hroom : t.depth + k * partials.depth ≤ n := by
      have hdepth := Tag.depth_lt_depthList ht
      omega
    have hname : ∀ name ∈ t.inclusions, partials.Ends k name :=
      fun name hmem => hends name (Tag.mem_inclusionsList ht hmem)
    cases t with
    | literal text => exact ⟨_, rfl⟩
    | escaped key =>
      simp only [renderTag, renderKey_eq hc, Option.map_some]
      exact ⟨_, rfl⟩
    | raw key =>
      simp only [renderTag, renderKey_eq hc]
      exact ⟨_, rfl⟩
    | block key source delimiters children =>
      simp only [renderTag, renderSection_eq hc]
      exact Rendering.exists_each fun c hmem => ih hroom hname (hc.entered c hmem)
    | inverted key children =>
      simp only [renderTag, renderInverted_eq]
      exact Rendering.exists_each fun c hmem =>
        ih hroom hname (Context.eq_of_mem_enteredInverted hmem ▸ hc)
    | inclusion name =>
      have hchain := hname name (.head _)
      simp only [renderTag]
      split
      next us hfind =>
        cases k with
        | zero => rw [Partials.Ends, hfind] at hchain; cases hchain
        | succ k =>
          have hinside : Tag.depthList us + k * partials.depth ≤ n := by
            have hle := Partials.depthList_le_depth hfind
            rw [Nat.succ_mul] at hroom
            omega
          exact ih hinside (fun b hb => hchain b ⟨us, hfind, hb⟩) hc
      next => exact ⟨_, rfl⟩

/-- **Tags from which no cycle of partials can be reached are rendered within a depth that the tags
and the partials alone determine,** whatever lambda-free data of whatever type there are and however
keys find their values, and to the same at every greater depth. -/
theorem Partials.Acyclic.rendered (h : partials.Acyclic tags) (keyType : KeyType)
    (hc : context.LambdaFree) :
    ∃ r, ∀ n, partials.bound tags ≤ n →
      renderBlock ⟨keyType, partials⟩ n context tags = some r := by
  obtain ⟨r, hr⟩ := exists_renderBlock keyType (Nat.le_refl (partials.bound tags))
    (fun name hname => h.ends hname) hc
  exact ⟨r, fun n hn => Bisimulation.of_eq.renderBlock ⟨keyType, partials⟩ hn
    (List.forall₂_same.2 fun _ _ => rfl) hr⟩

/-- Rows of a partial that has a place for a separator, in which a partial is missing. -/
theorem Partials.Acyclic.rendered_rows :
    let tags : List Tag := [.block ['x'] [] {} [.inclusion ['r']]]
    let partials : Partials := [(['r'], [.escaped ['.'], .inverted ['l'] [.inclusion ['s']]]),
      (['s'], [.literal [','], .inclusion ['u']])]
    let v : Value := .hashMap [(['x'], .vector [.integer 1, .text ['&']])]
    partials.bound tags = 6 ∧ partials.Acyclic tags ∧ ∀ n, 6 ≤ n →
      renderBlock ⟨.indexed, partials⟩ n [v] tags =
        some ⟨"1,&amp;,".toList, [.missing ['u'], .missing ['u']]⟩ := by
  intro tags partials v
  have hacyclic : partials.Acyclic tags :=
    acyclic_of_rank (fun name => if name = ['r'] then 2 else if name = ['s'] then 1 else 0)
      (by decide +kernel)
  have hv : v.WithoutLambda := by
    refine .hashMap (List.forall_mem_singleton.2 (.vector ?_))
    exact List.forall_mem_cons.2 ⟨.integer 1, List.forall_mem_singleton.2 (.text ['&'])⟩
  have hfree : Context.LambdaFree [v] := List.forall_mem_singleton.2 hv.lambdaFree
  obtain ⟨r, hr⟩ := hacyclic.rendered .indexed hfree
  have hsix : renderBlock ⟨.indexed, partials⟩ 6 [v] tags =
      some ⟨"1,&amp;,".toList, [.missing ['u'], .missing ['u']]⟩ := by decide +kernel
  obtain rfl : r = _ := Option.some.inj ((hr 6 (Nat.le_refl 6)).symm.trans hsix)
  exact ⟨rfl, hacyclic, hr⟩

end Rendered

end Mustache
