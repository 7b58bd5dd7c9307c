import Mathlib.Data.List.Sort
import Mathlib.Logic.Function.Iterate
import Mathlib.Logic.Relation
import Mathlib.Order.Bounds.Defs
import DeclExtract.Proofs.Merge.Recognisable

/-!
# The tables of a merger agree

A merger is kept in five tables: the slots, their parents, an index of paths, an index of positions,
and the anonymous roots by their ordinals. Whatever batches a merger is offered, and whether it
accepts or refuses them, the tables agree with one another afterwards (`Merger.Consistent`,
`Merger.consistent_offerAll`).

The invariant rests on three that are kept step by step, `Merger.WellFormed` and
`Merger.Recognisable` among them. New here are two.

* No parent exceeds its child (`Forest.Descending`). So a walk along the parents stops, and it stops
  at the smallest slot of the class, where a class is what chains of parents connect
  (`Forest.isLeast_find`).
* What is known under a path shows a path, and what is known under a position shows a position
  (`Merger.Exhibits`): an index leads to a slot that may have been absorbed since, but what absorbed
  it took over what it showed.
-/

namespace DeclExtract

namespace Forest

variable {f : Forest} {slot other : Nat}

/-! ### Parents -/

/-- **No parent exceeds its child.** -/
def Descending (f : Forest) : Prop :=
  ∀ slot, f.parent slot ≤ slot

/-- Two slots are in one class when a chain of parents, up or down, connects them. -/
def SameClass (f : Forest) : Nat → Nat → Prop :=
  Relation.EqvGen fun slot other ↦ f.parent slot = other

theorem descending_empty : Forest.empty.Descending := by
  intro slot
  exact Nat.le_refl slot

theorem Descending.grow (h : f.Descending) : f.grow.Descending := by
  intro slot
  rw [parent_grow]
  exact h slot

theorem Descending.absorb {keep gone : Nat} (h : f.Descending) (hgone : gone < f.size)
    (hle : keep ≤ gone) : (f.absorb keep gone).Descending := by
  intro slot
  rw [parent_absorb hgone]
  split
  next hslot => exact hslot ▸ hle
  next => exact h slot

/-- The parents are a table with an entry for every slot. -/
theorem exists_parent (hslot : slot < f.size) : f.parents[slot]? = some (f.parent slot) := by
  rw [parent, show f.parents[slot]? = some f.parents[slot] from Array.getElem?_eq_getElem hslot,
    Option.getD_some]

/-! ### The walk along the parents -/

/-- **The walk along the parents comes to the representative.** -/
theorem iterate_parent (f : Forest) (slot : Nat) :
    ∃ steps, f.parent^[steps] slot = f.find slot := by
  fun_induction find f slot with
  | case1 slot _ ih =>
    obtain ⟨steps, hsteps⟩ := ih
    exact ⟨steps + 1, hsteps⟩
  | case2 slot _ => exact ⟨0, rfl⟩

/-- A slot is in the class of its representative. -/
theorem sameClass_find (f : Forest) (slot : Nat) : f.SameClass slot (f.find slot) := by
  fun_induction find f slot with
  | case1 slot _ ih => exact .trans _ _ _ (.rel _ _ rfl) ih
  | case2 slot _ => exact .refl _

namespace Descending

variable (h : f.Descending)

include h

/-- A representative is its own parent. -/
theorem parent_find (slot : Nat) : f.parent (f.find slot) = f.find slot := by
  have hle := h (f.find slot)
  have hstuck := f.not_parent_find_lt slot
  omega

theorem find_parent (slot : Nat) : f.find (f.parent slot) = f.find slot := by
  have hle := h slot
  rcases Nat.lt_or_ge (f.parent slot) slot with hlt | hge
  · conv_rhs => rw [find, if_pos hlt]
  · rw [show f.parent slot = slot by omega]

/-- The representatives are the slots that are their own parents. -/
theorem classes_eq : f.classes = (List.range f.size).countP fun slot ↦ f.parent slot = slot := by
  rw [classes, representatives, ← List.countP_eq_length_filter]
  refine List.countP_congr fun slot _ ↦ ?_
  rw [isRepresentative, beq_iff_eq, decide_eq_true_eq]
  constructor
  · intro hself
    have hparent := h.parent_find slot
    rwa [hself] at hparent
  · intro hparent
    exact find_of_not_parent_lt (by omega)

/-- **The slots of a class have one representative.** -/
theorem find_eq_iff : f.find slot = f.find other ↔ f.SameClass slot other := by
  constructor
  · intro heq
    have hother : f.SameClass (f.find slot) other := heq ▸ .symm _ _ (f.sameClass_find other)
    exact .trans _ _ _ (f.sameClass_find slot) hother
  · intro hclass
    induction hclass with
    | rel slot other hparent => rw [← hparent, h.find_parent]
    | refl slot => rfl
    | symm slot other _ ih => exact ih.symm
    | trans slot middle other _ _ hleft hright => exact hleft.trans hright

/-- **The representative is the smallest slot of the class.** -/
theorem isLeast_find (slot : Nat) : IsLeast {other | f.SameClass slot other} (f.find slot) := by
  refine ⟨f.sameClass_find slot, fun other hother ↦ ?_⟩
  rw [h.find_eq_iff.mpr hother]
  exact f.find_le other

end Descending

end Forest

/-! ### Shown identities -/

/-- Whether a node shows an identity of the same sort as the given one: a path, or a position. -/
def Node.showsLike (n : Node) : Identity → Bool
  | .path _ => n.stablePath.isSome
  | .position _ => n.stablePosition.isSome

namespace Node

variable {n a b : Node} {i : Identity}

theorem showsLike_of_mem (hi : i ∈ n.identities) : n.showsLike i = true := by
  cases i with
  | path p => exact Option.isSome_of_eq_some (path_mem_identities.mp hi)
  | position p => exact Option.isSome_of_eq_some (position_mem_identities.mp hi)

theorem Gathers.showsLike (h : n.Gathers a b) (hi : a.showsLike i = true ∨ b.showsLike i = true) :
    n.showsLike i = true := by
  cases i with
  | path p => simpa [Node.showsLike, h.stablePath] using hi
  | position p => simpa [Node.showsLike, h.stablePosition] using hi

theorem ShowsSame.showsLike (h : n.ShowsSame a) (i : Identity) : n.showsLike i = a.showsLike i := by
  cases i with
  | path p => rw [Node.showsLike, h.stablePath, Node.showsLike]
  | position p => rw [Node.showsLike, stablePosition, h.position, Node.showsLike, stablePosition]

theorem hasColumn_iff : n.position.hasColumn = true ↔ n.stablePosition = some n.position := by
  unfold stablePosition
  split <;> simp [*]

end Node

namespace Merger

variable {m : Merger} {n : Node} {r : Recognition} {steps : List Step} {slot : Nat}

/-! ### Parents in a run -/

theorem descending_settleAs (h : m.forest.Descending) (hm : m.WellFormed) (hr : Recognises m n r) :
    (m.settleAs n r).1.forest.Descending := by
  refine hm.settleAs_preserves (P := fun m' ↦ m'.forest.Descending) hr h (fun _ _ _ _ ↦ h)
    (fun {a b} _ ⟨ha, _⟩ ⟨hb, _⟩ ↦ ?_) fun _ _ ↦ h.grow
  have hgone : max a b < m.forest.size := hm.size_forest ▸ Nat.max_lt.mpr ⟨ha, hb⟩
  exact h.absorb hgone (by omega)

/-- **In a run no parent exceeds its child.** -/
theorem Runs.descending (run : empty.Runs steps m) : m.forest.Descending := by
  let P (m : Merger) (_ : List Sighting) : Prop := m.forest.Descending
  have hstart : P empty [] := Forest.descending_empty.grow
  exact run.preserves wellFormed_empty hstart
    (fun _ _ hm h ↦ descending_settleAs h hm (recognises _ _)) fun _ _ h ↦ h

/-! ### Indexed identities are shown -/

/-- **What is known under a path shows a path, and what is known under a position shows a
position.** -/
def Exhibits (m : Merger) : Prop :=
  ∀ i c, m.known? i = some c → (m.node c).showsLike i = true

theorem exhibits_empty : empty.Exhibits := by
  intro i c hknown
  rw [known?, indexed?_empty] at hknown
  cases hknown

namespace Exhibits

/-- A representative may take further identities, since it shows what it takes if it shows none
yet. -/
theorem register (h : m.Exhibits) (hslot : slot < m.slots.size)
    (hself : m.forest.find slot = slot) : (m.register n slot).Exhibits := by
  intro i c hknown
  have hgathers := complete_gathers (m.node slot) n
  rw [node_register hslot]
  rw [known?_register, Option.or_eq_some_iff] at hknown
  rcases hknown with hknown | ⟨-, htaken⟩
  · split
    next hc => exact hc ▸ hgathers.showsLike (Or.inl (hc ▸ h i c hknown))
    next => exact h i c hknown
  · split at htaken
    next hi =>
      obtain rfl : slot = c := hself.symm.trans (Option.some.inj htaken)
      rw [if_pos rfl]
      exact hgathers.showsLike (Or.inr (Node.showsLike_of_mem hi))
    next => cases htaken

/-- The representative of two joined classes shows what either showed. -/
theorem unify {a b : Nat} (h : m.Exhibits) (hm : m.WellFormed) (hne : a ≠ b)
    (ha : a < m.slots.size ∧ m.forest.find a = a) (hb : b < m.slots.size ∧ m.forest.find b = b) :
    (m.unify a b).Exhibits := by
  intro i c hknown
  rw [hm.known?_unify hne ha hb] at hknown
  obtain ⟨c, hc, rfl⟩ := Option.map_eq_some_iff.mp hknown
  have hshown := h i c hc
  have hgathers := inherit_gathers (m.node (min a b)) (m.node (max a b))
  rw [node_unify hne ha.1 hb.1]
  split
  next hgone =>
    rw [if_pos rfl]
    exact hgathers.showsLike (Or.inr (hgone ▸ hshown))
  next hgone =>
    split
    next hkeep => exact hgathers.showsLike (Or.inl (hkeep ▸ hshown))
    next => exact hshown

/-- A new slot is known under nothing yet. -/
theorem extend (h : m.Exhibits) (hm : m.WellFormed) (n : Node) : (m.extend n).Exhibits := by
  intro i c hknown
  rw [known?_extend] at hknown
  have hshown := h i c hknown
  rw [node_extend hm.slots_pos, if_neg (Nat.ne_of_lt (hm.of_known hknown).1)]
  split
  next hroot =>
    have hsame : ({ m.node 0 with uses := (m.node 0).uses ++ [m.slots.size] } : Node).ShowsSame
      (m.node 0) := ⟨rfl, rfl, rfl⟩
    rw [hsame.showsLike, ← hroot.1]
    exact hshown
  next => exact hshown

theorem addEdges {uses owns : List Nat} (h : m.Exhibits) (hslot : slot < m.slots.size) :
    (m.addEdges slot uses owns).Exhibits := by
  intro i c hknown
  rw [known?, indexed?_addEdges, forest_addEdges] at hknown
  have hsame : ((m.addEdges slot uses owns).node c).ShowsSame (m.node c) := by
    rw [node_addEdges (Forest.find_lt hslot)]
    split <;> exact ⟨rfl, rfl, rfl⟩
  rw [hsame.showsLike]
  exact h i c hknown

/-- **However a node is recognised, what is indexed is shown.** -/
theorem settleAs (h : m.Exhibits) (hm : m.WellFormed) (hr : Recognises m n r) :
    (m.settleAs n r).1.Exhibits := by
  refine hm.settleAs_preserves hr h (fun _ hlt hself _ ↦ h.register hlt hself)
    (fun hne ⟨ha, hfinda, _⟩ ⟨hb, hfindb, _⟩ ↦ h.unify hm hne ⟨ha, hfinda⟩ ⟨hb, hfindb⟩)
    fun _ _ ↦ (h.extend hm n).register ?_ ?_
  · rw [size_slots_extend]
    exact Nat.lt_succ_self _
  · rw [forest_extend, Forest.find_grow]
    exact Forest.find_of_size_le (Nat.le_of_eq hm.size_forest)

end Exhibits

/-- **In a run what is indexed is shown.** -/
theorem Runs.exhibits (run : empty.Runs steps m) : m.Exhibits := by
  let P (m : Merger) (_ : List Sighting) : Prop := m.Exhibits
  have hstart : P empty [] := exhibits_empty
  exact run.preserves wellFormed_empty hstart (fun _ _ hm h ↦ h.settleAs hm (recognises _ _))
    fun _ hslot h ↦ h.addEdges hslot

/-! ### Ordinals in a run -/

/-- A sighting hands out the next ordinal or none. -/
theorem anonymousRoots_settleAs (m : Merger) (n : Node) (r : Recognition) :
    (m.settleAs n r).1.anonymousRoots = m.anonymousRoots
      ∨ (m.settleAs n r).1.anonymousRoots = m.anonymousRoots.push m.slots.size := by
  cases r with
  | root => exact Or.inl rfl
  | both a b =>
    rw [settleAs]
    split <;> exact Or.inl rfl
  | path => exact Or.inl rfl
  | position => exact Or.inl rfl
  | fresh =>
    rw [settleAs, anonymousRoots_allocate]
    split
    · exact Or.inl rfl
    · exact Or.inr rfl

theorem roots_prefix_settleAs (m : Merger) (n : Node) (r : Recognition) :
    m.anonymousRoots.toList <+: (m.settleAs n r).1.anonymousRoots.toList := by
  rcases m.anonymousRoots_settleAs n r with hroots | hroots
  · exact hroots ▸ List.prefix_rfl
  · rw [hroots, Array.toList_push]
    exact List.prefix_append _ _

/-- **An ordinal that was handed out keeps its slot.** -/
theorem Runs.roots_prefix {m' : Merger} (run : m.Runs steps m') (hm : m.WellFormed) :
    m.anonymousRoots.toList <+: m'.anonymousRoots.toList := by
  let P (m' : Merger) (_ : List Sighting) : Prop :=
    m.anonymousRoots.toList <+: m'.anonymousRoots.toList
  have hstart : P m [] := List.prefix_rfl
  exact run.preserves hm hstart (fun _ _ _ h ↦ h.trans (roots_prefix_settleAs _ _ _)) fun _ _ h ↦ h

/-! ### Batches that may be refused -/

/-- The merger after a batch was offered to it: a batch that is refused leaves it as it is. -/
def offer (m : Merger) (b : Batch) : Merger :=
  match m.merge b with
  | .ok merged => merged.merger
  | .error _ => m

/-- The merger after batches were offered to it one after the other. -/
def offerAll (m : Merger) (bs : List Batch) : Merger :=
  bs.foldl offer m

/-- **Refused batches might as well not have been offered**: what a merger comes to is what the run
over the accepted ones comes to. -/
theorem exists_runs_offerAll (m : Merger) (bs : List Batch) :
    ∃ steps, steps.map Step.batch = bs.filter (fun b ↦ b.check = .ok ())
      ∧ m.Runs steps (m.offerAll bs) := by
  induction bs generalizing m with
  | nil => exact ⟨[], rfl, .nil m⟩
  | cons b bs ih =>
    rw [offerAll, List.foldl_cons, ← offerAll]
    obtain ⟨steps, hsteps, run⟩ := ih (m.offer b)
    cases hmerge : m.merge b with
    | ok merged =>
      have haccepted := Batch.check_eq_ok_iff.mpr (merge_eq_ok_iff.mp hmerge).1
      rw [offer, hmerge] at run ⊢
      exact ⟨⟨m, b, merged⟩ :: steps, by simp [haccepted, hsteps], .cons hmerge run⟩
    | error e =>
      have hrefused : b.check ≠ .ok () := fun hcheck ↦ by
        rw [merge_eq_ok_iff.mpr ⟨Batch.check_eq_ok_iff.mp hcheck, rfl⟩] at hmerge
        cases hmerge
      rw [offer, hmerge] at run ⊢
      exact ⟨steps, by simp [hrefused, hsteps], run⟩

/-! ### The invariant -/

/-- **The tables of a merger agree.** -/
structure Consistent (m : Merger) : Prop where
  /-- Every slot has a parent, which does not exceed it. -/
  parent_le : ∀ slot < m.slots.size, ∃ parent, m.forest.parents[slot]? = some parent ∧ parent ≤ slot
  /-- The walk along the parents comes to a slot that is its own parent. -/
  walk_stops : ∀ slot, ∃ steps, m.forest.parent^[steps] slot = m.forest.find slot
    ∧ m.forest.parent (m.forest.find slot) = m.forest.find slot
  /-- That is the smallest slot of the class. -/
  isLeast_find : ∀ slot, IsLeast {other | m.forest.SameClass slot other} (m.forest.find slot)
  /-- The root of the graph is alone in its class. -/
  root_alone : ∀ slot, m.forest.SameClass 0 slot ↔ slot = 0
  /-- A path is indexed under a slot whose representative shows a path, and is not the root of the
  graph. -/
  path_shown : ∀ (p : ObjectPath) (slot : Nat), m.byPath[p]? = some slot → slot < m.slots.size
    ∧ m.forest.find slot ≠ 0 ∧ (m.node (m.forest.find slot)).stablePath.isSome = true
  /-- A position is indexed under a slot whose representative shows a column, and is not the root of
  the graph. -/
  position_shown : ∀ (p : Position) (slot : Nat), m.byPosition[p]? = some slot → slot < m.slots.size
    ∧ m.forest.find slot ≠ 0 ∧ (m.node (m.forest.find slot)).position.hasColumn = true
  /-- The path that a representative shows is indexed under its class. -/
  path_indexed :
    ∀ (rep : Nat) (p : ObjectPath), m.forest.find rep = rep → (m.node rep).stablePath = some p →
    ∃ slot, m.byPath[p]? = some slot ∧ m.forest.find slot = rep
  /-- The position that a representative shows is indexed under its class, if it has a column. -/
  position_indexed : ∀ rep, m.forest.find rep = rep → (m.node rep).position.hasColumn = true →
    ∃ slot, m.byPosition[(m.node rep).position]? = some slot ∧ m.forest.find slot = rep
  /-- Nodes of the graph that show one identity are one node. -/
  identity_unique : ∀ {id id' n n' i}, m.graph.node? id = some n → m.graph.node? id' = some n' →
    i ∈ n.identities → i ∈ n'.identities → id = id'
  /-- An ordinal is known just when a representative without identity shows it, and leads to
  that. -/
  ordinal_known : ∀ ordinal slot, m.atOrdinal? ordinal = some slot ↔ slot < m.slots.size
    ∧ m.forest.find slot = slot ∧ (m.node slot).hasIdentity = false
    ∧ (m.node slot).subgraph = some ordinal
  /-- The ordinals that are known are those below the number of representatives without identity. -/
  ordinal_lt : ∀ ordinal, (m.atOrdinal? ordinal).isSome = true ↔
    ordinal < m.forest.representatives.countP fun rep ↦ !(m.node rep).hasIdentity
  /-- No slot has two ordinals. -/
  nodup_roots : m.anonymousRoots.toList.Nodup
  /-- An ordinal is that of a slot which is alone in its class, has no identity, and shows the
  ordinal. -/
  root : ∀ ordinal slot, m.anonymousRoots[ordinal]? = some slot → slot < m.slots.size
    ∧ (∀ other, m.forest.SameClass slot other ↔ other = slot) ∧ (m.node slot).hasIdentity = false
    ∧ (m.node slot).subgraph = some ordinal
  /-- A slot that was absorbed holds no edges. -/
  absorbed_empty :
    ∀ slot, m.forest.find slot ≠ slot → (m.node slot).uses = [] ∧ (m.node slot).owns = []

namespace WellFormed

variable (hm : m.WellFormed) (h : m.Recognisable)

include hm h

/-- An anonymous root shows no identity, since nothing is known under it. -/
theorem hasIdentity_root (hroot : slot ∈ m.anonymousRoots) : (m.node slot).hasIdentity = false := by
  by_contra hidentity
  obtain ⟨i, hi⟩ := Node.exists_identity (Bool.eq_true_of_not_eq_false hidentity)
  exact hm.known_not_root (h.known_eq (hm.find_root hroot) hi) hroot

/-- **What a node of the graph shows is looked up to it.** -/
theorem lookup_of_mem_identities {id : Nat} {i : Identity} (hn : m.graph.node? id = some n)
    (hi : i ∈ n.identities) : m.graph.lookup i = some id := by
  obtain ⟨rep, -, hself, rfl, rfl⟩ := hm.exists_representative hn
  rw [hm.lookup_graph_known, h.known_eq hself hi, Option.map_some]

/-- **What is looked up has an identity**, though it may show another one. -/
theorem hasIdentity_of_lookup {id : Nat} {i : Identity} (hlookup : m.graph.lookup i = some id)
    (hn : m.graph.node? id = some n) : n.hasIdentity = true := by
  rw [hm.lookup_graph_known] at hlookup
  obtain ⟨rep, hknown, rfl⟩ := Option.map_eq_some_iff.mp hlookup
  obtain ⟨hlt, hself, hroot⟩ := hm.of_known hknown
  rw [hm.node?_graph_rank hlt, hself, Option.some_inj] at hn
  exact hn ▸ (h.root_or hlt hself).resolve_left hroot

/-- **Nodes of the graph that show one identity are one node.** -/
theorem eq_of_shared_identity {id id' : Nat} {n' : Node} {i : Identity}
    (hn : m.graph.node? id = some n) (hn' : m.graph.node? id' = some n') (hi : i ∈ n.identities)
    (hi' : i ∈ n'.identities) : id = id' := by
  have hlookup := hm.lookup_of_mem_identities h hn hi
  rw [hm.lookup_of_mem_identities h hn' hi', Option.some_inj] at hlookup
  exact hlookup.symm

end WellFormed

/-- **A run hands out ordinals in the order of its slots.** -/
theorem Runs.pairwise_roots (run : empty.Runs steps m) :
    m.anonymousRoots.toList.Pairwise (· < ·) := by
  let P (m : Merger) (_ : List Sighting) : Prop := m.anonymousRoots.toList.Pairwise (· < ·)
  have hstart : P empty [] := List.pairwise_singleton _ _
  refine run.preserves wellFormed_empty hstart (fun {m past s n} _ _ hm h ↦ ?_) fun _ _ h ↦ h
  show (m.sighted n).anonymousRoots.toList.Pairwise (· < ·)
  rcases m.anonymousRoots_settleAs n (m.recognise n) with hroots | hroots
  · rw [sighted, hroots]
    exact h
  · rw [sighted, hroots, Array.toList_push, List.pairwise_append]
    refine ⟨h, List.pairwise_singleton _ _, fun slot hslot other hother ↦ ?_⟩
    rw [List.mem_singleton.mp hother]
    exact hm.root_lt (Array.mem_toList_iff.mp hslot)

/-- The anonymous roots of a run are the representatives without identity, both in ascending
order. -/
theorem Runs.roots_eq_filter (run : empty.Runs steps m) : m.anonymousRoots.toList
    = m.forest.representatives.filter fun rep ↦ !(m.node rep).hasIdentity := by
  have hm := run.wellFormed wellFormed_empty
  have hshows := run.recognisable
  have hascending :
      (m.forest.representatives.filter fun rep ↦ !(m.node rep).hasIdentity).Pairwise (· < ·) :=
    (List.pairwise_lt_range.filter _).filter _
  refine run.pairwise_roots.eq_of_mem_iff hascending fun rep ↦ ?_
  rw [Array.mem_toList_iff, List.mem_filter, Bool.not_eq_true']
  constructor
  · intro hroot
    refine ⟨?_, hm.hasIdentity_root hshows hroot⟩
    exact Forest.mem_representatives.mpr ⟨hm.size_forest ▸ hm.root_lt hroot, hm.find_root hroot⟩
  · rintro ⟨hrep, hnone⟩
    have hself := (Forest.mem_representatives.mp hrep).2
    refine (hshows.root_or (hm.lt_of_mem_representatives hrep) hself).resolve_right fun hsome ↦ ?_
    rw [hnone] at hsome
    cases hsome

/-- **An ordinal leads to the representative without identity that shows it.** -/
theorem Runs.atOrdinal?_eq_some_iff (run : empty.Runs steps m) {ordinal slot : Nat} :
    m.atOrdinal? ordinal = some slot ↔ slot < m.slots.size ∧ m.forest.find slot = slot
      ∧ (m.node slot).hasIdentity = false ∧ (m.node slot).subgraph = some ordinal := by
  have hm := run.wellFormed wellFormed_empty
  have hshows := run.recognisable
  have hat {o root : Nat} (hroot : m.anonymousRoots[o]? = some root) :
      m.atOrdinal? o = some root := by
    rw [atOrdinal?, hroot, Option.map_some, hm.find_root (Array.mem_of_getElem? hroot)]
  constructor
  · intro hslot
    obtain ⟨root, hroot, -⟩ := Option.map_eq_some_iff.mp hslot
    obtain rfl : root = slot := Option.some.inj ((hat hroot).symm.trans hslot)
    have hmem := Array.mem_of_getElem? hroot
    exact ⟨hm.root_lt hmem, hm.find_root hmem, hm.hasIdentity_root hshows hmem,
      hshows.ordinal_eq hroot⟩
  · rintro ⟨hlt, hself, hnone, hordinal⟩
    have hmem : slot ∈ m.anonymousRoots := (hshows.root_or hlt hself).resolve_right fun hsome ↦ by
      rw [hnone] at hsome
      cases hsome
    -- the slot has an ordinal, and that is the one which it shows
    obtain ⟨o, hroot⟩ := Array.mem_iff_getElem?.mp hmem
    obtain rfl : o = ordinal := Option.some.inj ((hshows.ordinal_eq hroot).symm.trans hordinal)
    exact hat hroot

/-- An anonymous root is alone in its class. -/
theorem WellFormed.sameClass_root_iff (hm : m.WellFormed) (hdescending : m.forest.Descending)
    (hroot : slot ∈ m.anonymousRoots) (other : Nat) :
    m.forest.SameClass slot other ↔ other = slot := by
  rw [← hdescending.find_eq_iff, hm.find_root hroot, eq_comm]
  exact hm.find_eq_root hroot

/-- An index leads to a class that shows an identity of its sort, other than that of the root of the
graph. -/
theorem Exhibits.of_indexed (h : m.Exhibits) (hm : m.WellFormed) {i : Identity}
    (hslot : m.indexed? i = some slot) : slot < m.slots.size ∧ m.forest.find slot ≠ 0
      ∧ (m.node (m.forest.find slot)).showsLike i = true := by
  have hknown : m.known? i = some (m.forest.find slot) :=
    Option.map_eq_some_iff.mpr ⟨slot, hslot, rfl⟩
  refine ⟨hm.indexed_lt hslot, fun hzero ↦ ?_, h i _ hknown⟩
  exact hm.known_not_root hknown (hzero ▸ hm.root_mem)

/-- What a representative shows is indexed under its class. -/
theorem Recognisable.exists_indexed (h : m.Recognisable) {rep : Nat} {i : Identity}
    (hself : m.forest.find rep = rep) (hi : i ∈ (m.node rep).identities) :
    ∃ slot, m.indexed? i = some slot ∧ m.forest.find slot = rep :=
  Option.map_eq_some_iff.mp (h.known_eq hself hi)

/-- **In a run the tables agree.** -/
theorem Runs.consistent (run : empty.Runs steps m) : m.Consistent := by
  have hm := run.wellFormed wellFormed_empty
  have hshows := run.recognisable
  have hdescending := run.descending
  have hexhibits := run.exhibits
  exact {
    parent_le := fun slot hslot ↦
      ⟨_, Forest.exists_parent (hm.size_forest ▸ hslot), hdescending slot⟩
    walk_stops := fun slot ↦ by
      obtain ⟨steps, hsteps⟩ := m.forest.iterate_parent slot
      exact ⟨steps, hsteps, hdescending.parent_find slot⟩
    isLeast_find := hdescending.isLeast_find
    root_alone := hm.sameClass_root_iff hdescending hm.root_mem
    path_shown := fun p slot hslot ↦ hexhibits.of_indexed (i := .path p) hm hslot
    position_shown := fun p slot hslot ↦ by
      obtain ⟨hlt, hroot, hshown⟩ := hexhibits.of_indexed (i := .position p) hm hslot
      refine ⟨hlt, hroot, ?_⟩
      obtain ⟨q, hq⟩ := Option.isSome_iff_exists.mp hshown
      unfold Node.stablePosition at hq
      split at hq
      next hcolumn => exact hcolumn
      next => cases hq
    path_indexed := fun rep p hself hp ↦
      hshows.exists_indexed (i := .path p) hself (Node.path_mem_identities.mpr hp)
    position_indexed := fun rep hself hcolumn ↦
      hshows.exists_indexed (i := .position _) hself
        (Node.position_mem_identities.mpr (Node.hasColumn_iff.mp hcolumn))
    identity_unique := fun hn hn' hi hi' ↦ hm.eq_of_shared_identity hshows hn hn' hi hi'
    ordinal_known := fun ordinal slot ↦ run.atOrdinal?_eq_some_iff
    ordinal_lt := fun ordinal ↦ by
      rw [List.countP_eq_length_filter, ← run.roots_eq_filter, Array.length_toList, atOrdinal?,
        Option.isSome_map]
      simp
    nodup_roots := hm.nodup_roots
    root := fun ordinal slot hslot ↦ by
      have hroot : slot ∈ m.anonymousRoots := Array.mem_of_getElem? hslot
      exact ⟨hm.root_lt hroot, hm.sameClass_root_iff hdescending hroot,
        hm.hasIdentity_root hshows hroot, hshows.ordinal_eq hslot⟩
    absorbed_empty := fun slot hslot ↦ List.append_eq_nil_iff.mp (hm.targets_absorbed hslot) }

/-- **Whatever a merger is offered, its tables agree.** After any batches, accepted or refused, with
ordinals or without, no parent exceeds its child and the walk along the parents comes to the
smallest slot of a class; the root of the graph is alone; an index leads to a class that shows an
identity of its sort, and what a class shows is indexed under it; the ordinals are those below the
number of the representatives without identity, and each leads to one of them, which shows it, is
alone in its class and keeps the ordinal whatever comes later; and absorbed slots are empty. -/
theorem consistent_offerAll (bs : List Batch) : (empty.offerAll bs).Consistent
    ∧ ∀ more, (empty.offerAll bs).anonymousRoots.toList
      <+: (empty.offerAll (bs ++ more)).anonymousRoots.toList := by
  obtain ⟨steps, -, run⟩ := empty.exists_runs_offerAll bs
  refine ⟨run.consistent, fun more ↦ ?_⟩
  obtain ⟨later, -, rest⟩ := (empty.offerAll bs).exists_runs_offerAll more
  have happend : empty.offerAll (bs ++ more) = (empty.offerAll bs).offerAll more :=
    List.foldl_append
  rw [happend]
  exact rest.roots_prefix (run.wellFormed wellFormed_empty)

end Merger

end DeclExtract
