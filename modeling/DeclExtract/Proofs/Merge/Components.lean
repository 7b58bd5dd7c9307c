import Mathlib.Data.Set.Card
import DeclExtract.Proofs.Linked
import DeclExtract.Proofs.Merge.Graph
import DeclExtract.Proofs.Merge.Preservation

/-!
# Declarations are components

A merge meets its nodes one by one, and each time it knows only what it has seen so far. Still, what
it ends with does not depend on how it got there: the classes of a merger are the components of the
nodes that it has seen, and one more class for each node without identity.

`Merger.Reflects` says so of a merger in the middle of a run. A node that meets one class or several
joins them all to one, which is right because it is linked to a node of each; and every identity
that it has is known under that class from then on, so every later node that is linked to it will
meet the class (`Reflects.sighted`). The nodes of a run are assumed to carry no ordinals: an ordinal
tells a merger that two nodes are one without any identity that they share.

The main statement is `UseGraph.lookup_ofBatches`.
-/

namespace DeclExtract

namespace Merger

variable {m m' : Merger} {n : Node} {past : List Sighting} {x y : Sighting} {i j : Identity}
variable {slot : Nat}

/-! ### The invariant -/

/-- **What a merger knows is what it has seen**: `past` are the sightings so far. -/
structure Reflects (m : Merger) (past : List Sighting) : Prop where
  /-- A sighting has a slot of the merger. -/
  slot_lt : ∀ {x}, x ∈ past → x.slot < m.slots.size
  /-- Every identity of a sighting is known under its class. -/
  known_eq : ∀ {x i}, x ∈ past → i ∈ x.node.identities → m.known? i = some (m.forest.find x.slot)
  /-- An identity that is known was carried by a sighting. -/
  exists_carrier : ∀ {i slot}, m.indexed? i = some slot → ∃ x ∈ past, i ∈ x.node.identities
  /-- Sightings with identities are in one class only if a chain of links connects them. -/
  connected : ∀ {x y}, x ∈ past → y ∈ past → x.node.hasIdentity = true → y.node.hasIdentity = true →
    m.forest.find x.slot = m.forest.find y.slot → Connected (past.map Sighting.node) x.node y.node
  /-- A class is that of an anonymous root or of a sighting with an identity. -/
  covered : ∀ {slot}, slot < m.slots.size → m.forest.find slot ∈ m.anonymousRoots
    ∨ ∃ x ∈ past, x.node.hasIdentity = true ∧ m.forest.find x.slot = m.forest.find slot
  /-- Besides the root of the graph there is one anonymous root for each sighting without
  identity. -/
  size_roots : m.anonymousRoots.size = 1 + past.countP fun x ↦ !x.node.hasIdentity

theorem reflects_empty : empty.Reflects [] where
  slot_lt hx := nomatch hx
  known_eq hx := nomatch hx
  exists_carrier hindexed := by rw [indexed?_empty] at hindexed; cases hindexed
  connected hx := nomatch hx
  covered {slot} hslot := by
    obtain rfl : slot = 0 := Nat.lt_one_iff.mp hslot
    exact Or.inl (by rw [Forest.find_zero]; exact wellFormed_empty.root_mem)
  size_roots := rfl

namespace Reflects

/-- A known identity belongs to the class of a sighting that carries it. -/
theorem exists_of_known (h : m.Reflects past) {c : Nat} (hknown : m.known? i = some c) :
    ∃ x ∈ past, i ∈ x.node.identities ∧ m.forest.find x.slot = c := by
  obtain ⟨s, hindexed, rfl⟩ := Option.map_eq_some_iff.mp hknown
  obtain ⟨x, hx, hi⟩ := h.exists_carrier hindexed
  refine ⟨x, hx, hi, ?_⟩
  have hfind := h.known_eq hx hi
  rw [hknown] at hfind
  exact (Option.some.inj hfind).symm

/-- **Sightings in one class are connected, and the other way round.** -/
theorem find_eq_iff (h : m.Reflects past) (hx : x ∈ past) (hy : y ∈ past)
    (hxi : x.node.hasIdentity = true) (hyi : y.node.hasIdentity = true) :
    m.forest.find x.slot = m.forest.find y.slot
      ↔ Connected (past.map Sighting.node) x.node y.node := by
  refine ⟨h.connected hx hy hxi hyi, fun hconnected ↦ ?_⟩
  obtain ⟨i, hi⟩ := Node.exists_identity hxi
  obtain ⟨j, hj⟩ := Node.exists_identity hyi
  -- along a chain all identities are known under one class
  have hvalue : m.known? i = m.known? j := by
    refine hconnected.eq_of_identities (fun l hl i hi j hj ↦ ?_) (List.mem_map_of_mem hx) hi hj
    obtain ⟨z, hz, rfl⟩ := List.mem_map.mp hl
    rw [h.known_eq hz hi, h.known_eq hz hj]
  rw [h.known_eq hx hi, h.known_eq hy hj] at hvalue
  exact Option.some.inj hvalue

/-- What is seen of a merger by the invariant is its forest, its index, its slots and its roots. -/
theorem congr (h : m.Reflects past) (hforest : m'.forest = m.forest)
    (hindexed : ∀ i, m'.indexed? i = m.indexed? i) (hsize : m'.slots.size = m.slots.size)
    (hroots : m'.anonymousRoots = m.anonymousRoots) : m'.Reflects past where
  slot_lt hx := hsize ▸ h.slot_lt hx
  known_eq hx hi := by
    rw [known?, hindexed, hforest]
    exact h.known_eq hx hi
  exists_carrier hi := h.exists_carrier (hindexed _ ▸ hi)
  connected hx hy hxi hyi hfind := by
    rw [hforest] at hfind
    exact h.connected hx hy hxi hyi hfind
  covered hslot := by
    rw [hsize] at hslot
    rw [hforest, hroots]
    exact h.covered hslot
  size_roots := by
    rw [hroots]
    exact h.size_roots

/-! ### One more sighting -/

/-- An older sighting that ends up in the class of the new one was in one of the classes that the
new one met. -/
theorem mem_candidates_of_find_sighted (h : m.Reflects past) (hm : m.WellFormed)
    (hord : n.subgraph = none) (hy : y ∈ past)
    (hfind : (m.sighted n).forest.find y.slot = (m.sighting n).slot) :
    m.forest.find y.slot ∈ m.candidates n := by
  rw [find_sighted hm hord] at hfind
  split at hfind
  next hcand => exact hcand
  next =>
    rcases m.sighted_cases hord with ⟨-, hcand, -, -⟩ | ⟨-, hnew, -, -⟩
    · rwa [hfind]
    · have hlt : m.forest.find y.slot < m.slots.size := Forest.find_lt (h.slot_lt hy)
      omega

/-- **An older sighting that ends up in the class of the new one is connected to it.** -/
theorem connected_of_find_sighted (h : m.Reflects past) (hm : m.WellFormed)
    (hord : n.subgraph = none) (hy : y ∈ past) (hyi : y.node.hasIdentity = true)
    (hfind : (m.sighted n).forest.find y.slot = (m.sighting n).slot) :
    Connected (n :: past.map Sighting.node) n y.node := by
  -- the new node shares an identity with some sighting of that class
  obtain ⟨i, hi, hknown⟩ := mem_candidates.mp (h.mem_candidates_of_find_sighted hm hord hy hfind)
  obtain ⟨z, hz, hzi, hfindz⟩ := h.exists_of_known hknown
  have hstep : Connected (n :: past.map Sighting.node) n z.node :=
    Connected.of_shared List.mem_cons_self (List.mem_cons_of_mem _ (List.mem_map_of_mem hz)) hi hzi
  have hclass := h.connected hz hy (Node.hasIdentity_of_mem hzi) hyi hfindz
  exact hstep.trans (hclass.mono fun l hl ↦ List.mem_cons_of_mem _ hl)

/-- Older sightings that end up in one class are connected: they were in one class before, or both
are connected to the new one. -/
theorem connected_sighted (h : m.Reflects past) (hm : m.WellFormed) (hord : n.subgraph = none)
    (hx : x ∈ past) (hy : y ∈ past) (hxi : x.node.hasIdentity = true)
    (hyi : y.node.hasIdentity = true)
    (hfind : (m.sighted n).forest.find x.slot = (m.sighted n).forest.find y.slot) :
    Connected (n :: past.map Sighting.node) x.node y.node := by
  by_cases hcand : (m.sighted n).forest.find x.slot = (m.sighting n).slot
  · have hn := h.connected_of_find_sighted hm hord hx hxi hcand
    exact hn.symm.trans (h.connected_of_find_sighted hm hord hy hyi (hfind.symm.trans hcand))
  · have hkept {z : Sighting} (hz : (m.sighted n).forest.find z.slot ≠ (m.sighting n).slot) :
        (m.sighted n).forest.find z.slot = m.forest.find z.slot := by
      rw [find_sighted hm hord] at hz ⊢
      split
      next hmem => exact absurd (if_pos hmem) hz
      next => rfl
    have hcandy : (m.sighted n).forest.find y.slot ≠ (m.sighting n).slot := hfind ▸ hcand
    rw [hkept hcand, hkept hcandy] at hfind
    exact (h.connected hx hy hxi hyi hfind).mono fun l hl ↦ List.mem_cons_of_mem _ hl

/-- An older class stays that of an anonymous root or of an older sighting. -/
theorem covered_sighted (h : m.Reflects past) (hm : m.WellFormed) (hord : n.subgraph = none)
    (hslot : slot < m.slots.size) : (m.sighted n).forest.find slot ∈ (m.sighted n).anonymousRoots
      ∨ ∃ x ∈ past, x.node.hasIdentity = true
        ∧ (m.sighted n).forest.find x.slot = (m.sighted n).forest.find slot := by
  rcases h.covered hslot with hroot | ⟨x, hx, hxi, hfind⟩
  · left
    have hkept : m.forest.find slot ∉ m.candidates n :=
      fun hcand ↦ (hm.of_candidate hcand).2.2 hroot
    rw [find_sighted hm hord, if_neg hkept]
    rcases m.sighted_cases hord with ⟨-, -, -, hroots⟩ | ⟨-, -, -, hroots⟩
    · rwa [hroots]
    · rw [hroots]
      split
      · exact hroot
      · exact Array.mem_push.mpr (Or.inl hroot)
  · exact Or.inr ⟨x, hx, hxi, (refines_sighted hm n).find_eq hfind⟩

/-- **A sighting keeps the invariant.** -/
theorem sighted (h : m.Reflects past) (hm : m.WellFormed) (hord : n.subgraph = none) :
    (m.sighted n).Reflects (m.sighting n :: past) where
  slot_lt hx := by
    rcases List.mem_cons.mp hx with rfl | hx
    · exact slot_sighting_lt hm n
    · exact Nat.lt_of_lt_of_le (h.slot_lt hx) (m.size_slots_le_sighted n)
  known_eq {x i} hx hi := by
    rw [known?_sighted hm hord]
    rcases List.mem_cons.mp hx with rfl | hx
    · rw [if_pos (show i ∈ n.identities from hi), find_slot_sighting hm]
    · rw [h.known_eq hx hi, Option.map_some, refines_sighted hm n]
      split
      next hin =>
        have hcand : m.forest.find x.slot ∈ m.candidates n :=
          mem_candidates.mpr ⟨i, hin, h.known_eq hx hi⟩
        rw [find_sighted hm hord, if_pos hcand]
      next => rfl
  exists_carrier {i s} hindexed := by
    rw [indexed?_sighted hord, Option.or_eq_some_iff] at hindexed
    rcases hindexed with hindexed | ⟨-, hnew⟩
    · obtain ⟨x, hx, hi⟩ := h.exists_carrier hindexed
      exact ⟨x, List.mem_cons_of_mem _ hx, hi⟩
    · split at hnew
      next hi => exact ⟨m.sighting n, List.mem_cons_self, hi⟩
      next => cases hnew
  connected {x y} hx hy hxi hyi hfind := by
    have hself := find_slot_sighting hm n
    rcases List.mem_cons.mp hx with rfl | hx
    · rcases List.mem_cons.mp hy with rfl | hy
      · exact Connected.refl _ _
      · exact h.connected_of_find_sighted hm hord hy hyi (hfind.symm.trans hself)
    · rcases List.mem_cons.mp hy with rfl | hy
      · exact (h.connected_of_find_sighted hm hord hx hxi (hfind.trans hself)).symm
      · exact h.connected_sighted hm hord hx hy hxi hyi hfind
  covered {s} hs := by
    by_cases hold : s < m.slots.size
    · refine (h.covered_sighted hm hord hold).imp_right ?_
      rintro ⟨x, hx, hxi, hfind⟩
      exact ⟨x, List.mem_cons_of_mem _ hx, hxi, hfind⟩
    · -- the slot is new, so it is that of the sighting
      rcases m.sighted_cases hord with ⟨-, -, hsize, -⟩ | ⟨-, hslot, hsize, hroots⟩
      · omega
      · obtain rfl : s = (m.sighting n).slot := by omega
        by_cases hn : n.hasIdentity = true
        · exact Or.inr ⟨m.sighting n, List.mem_cons_self, hn, rfl⟩
        · left
          rw [find_slot_sighting hm, hroots, if_neg hn, hslot]
          exact Array.mem_push_self
  size_roots := by
    rw [List.countP_cons]
    rcases m.sighted_cases hord with ⟨hn, -, -, hroots⟩ | ⟨-, -, -, hroots⟩
    · have hold := h.size_roots
      simp [hroots, sighting, hn, hold]
    · have hold := h.size_roots
      by_cases hn : n.hasIdentity = true
      · simp [hroots, sighting, hn, hold]
      · simp [hroots, sighting, hn, hold]
        omega

/-! ### Runs -/

/-- It does not matter in which order the sightings are listed. -/
theorem perm {listed : List Sighting} (h : m.Reflects past) (hperm : past.Perm listed) :
    m.Reflects listed where
  slot_lt hx := h.slot_lt (hperm.mem_iff.mpr hx)
  known_eq hx := h.known_eq (hperm.mem_iff.mpr hx)
  exists_carrier hindexed := by
    obtain ⟨x, hx, hi⟩ := h.exists_carrier hindexed
    exact ⟨x, hperm.mem_iff.mp hx, hi⟩
  connected hx hy hxi hyi hfind := by
    have hconnected := h.connected (hperm.mem_iff.mpr hx) (hperm.mem_iff.mpr hy) hxi hyi hfind
    exact hconnected.mono fun n hn ↦ (hperm.map Sighting.node).mem_iff.mp hn
  covered hslot := by
    refine (h.covered hslot).imp_right ?_
    rintro ⟨x, hx, hxi, hfind⟩
    exact ⟨x, hperm.mem_iff.mp hx, hxi, hfind⟩
  size_roots := by rw [h.size_roots, hperm.countP_eq]

/-- A sighting keeps the invariant, and is put down as the last one. -/
theorem append_sighted (h : m.Reflects past) (hm : m.WellFormed) (hord : n.subgraph = none) :
    (m.sighted n).Reflects (past ++ [m.sighting n]) :=
  (h.sighted hm hord).perm (List.perm_append_singleton _ _).symm

/-- Edges change nothing that the invariant speaks of. -/
theorem addEdges {uses owns : List Nat} (h : m.Reflects past) :
    (m.addEdges slot uses owns).Reflects past :=
  h.congr rfl (indexed?_addEdges _ _ _ _) (size_slots_addEdges _ _ _ _)
  (anonymousRoots_addEdges _ _ _ _)

end Reflects

/-- **What a run ends with reflects all of its sightings.** -/
theorem Runs.reflects {steps : List Step} (run : m.Runs steps m') (h : m.Reflects past)
    (hm : m.WellFormed) (hord : ∀ s ∈ steps, ∀ n ∈ s.batch.nodes, n.subgraph = none) :
    m'.Reflects (past ++ steps.flatMap Step.sightings) :=
  run.preserves hm h (fun hs hn hm h ↦ h.append_sighted hm (hord _ hs _ hn)) fun _ _ h ↦ h.addEdges

/-! ### Counting declarations -/

namespace Reflects

/-- The component of a sighting consists of the sightings in its class. -/
theorem component_eq (h : m.Reflects past) (hx : x ∈ past) (hxi : x.node.hasIdentity = true) :
    component (past.map Sighting.node) x.node
      = {k | ∃ y ∈ past, y.node = k ∧ k.hasIdentity = true
          ∧ m.forest.find y.slot = m.forest.find x.slot} := by
  ext k
  constructor
  · rintro ⟨hk, hconnected⟩
    obtain ⟨y, hy, rfl⟩ := List.mem_map.mp hk
    have hyi := hconnected.hasIdentity hxi
    exact ⟨y, hy, rfl, hyi, ((h.find_eq_iff hx hy hxi hyi).mpr hconnected).symm⟩
  · rintro ⟨y, hy, rfl, hyi, hfind⟩
    exact ⟨List.mem_map_of_mem hy, (h.find_eq_iff hx hy hxi hyi).mp hfind.symm⟩

/-- The representatives that are no anonymous roots are those of the sightings with identities. -/
theorem identified_iff (h : m.Reflects past) (hm : m.WellFormed) {rep : Nat} :
    rep ∈ m.forest.representatives ∧ rep ∉ m.anonymousRoots
      ↔ ∃ x ∈ past, x.node.hasIdentity = true ∧ m.forest.find x.slot = rep := by
  constructor
  · rintro ⟨hrep, hroot⟩
    have hfind := (Forest.mem_representatives.mp hrep).2
    rcases h.covered (hm.lt_of_mem_representatives hrep) with hcovered | hx
    · exact absurd (hfind ▸ hcovered) hroot
    · rwa [hfind] at hx
  · rintro ⟨x, hx, hxi, rfl⟩
    obtain ⟨i, hi⟩ := Node.exists_identity hxi
    refine ⟨Forest.find_mem_representatives (hm.size_forest ▸ h.slot_lt hx), ?_⟩
    exact hm.known_not_root (h.known_eq hx hi)

/-- **There are as many components as classes of sightings with identities.** -/
theorem ncard_components (h : m.Reflects past) (hm : m.WellFormed) :
    (components (past.map Sighting.node)).ncard
      = {rep | rep ∈ m.forest.representatives ∧ rep ∉ m.anonymousRoots}.ncard := by
  -- a component is given by the representative of its class
  let members (rep : Nat) : Set Node :=
    {k | ∃ y ∈ past, y.node = k ∧ k.hasIdentity = true ∧ m.forest.find y.slot = rep}
  have himage : components (past.map Sighting.node)
      = members '' {rep | rep ∈ m.forest.representatives ∧ rep ∉ m.anonymousRoots} := by
    ext c
    constructor
    · rintro ⟨n, ⟨hn, hni⟩, rfl⟩
      obtain ⟨x, hx, rfl⟩ := List.mem_map.mp hn
      exact ⟨_, (h.identified_iff hm).mpr ⟨x, hx, hni, rfl⟩, (h.component_eq hx hni).symm⟩
    · rintro ⟨rep, hrep, rfl⟩
      obtain ⟨x, hx, hxi, rfl⟩ := (h.identified_iff hm).mp hrep
      exact ⟨x.node, ⟨List.mem_map_of_mem hx, hxi⟩, h.component_eq hx hxi⟩
  rw [himage]
  refine Set.InjOn.ncard_image fun rep hrep other hother heq ↦ ?_
  obtain ⟨x, hx, hxi, rfl⟩ := (h.identified_iff hm).mp hrep
  have hmember : x.node ∈ members other := by
    rw [← heq]
    exact ⟨x, hx, rfl, hxi, rfl⟩
  obtain ⟨y, hy, hnode, hyi, rfl⟩ := hmember
  refine (h.find_eq_iff hx hy hxi (hnode ▸ hyi)).mpr ?_
  rw [hnode]
  exact Connected.refl _ _

/-- **The number of declarations**: the root of the graph, the components, and the anonymous
roots. -/
theorem classes_eq (h : m.Reflects past) (hm : m.WellFormed) :
    m.forest.classes
      = 1 + (components (past.map Sighting.node)).ncard
        + past.countP fun x ↦ !x.node.hasIdentity := by
  -- a representative is an anonymous root, or that of a sighting with an identity
  have hnodup := m.forest.nodup_representatives
  have hroots : (m.forest.representatives.filter (· ∈ m.anonymousRoots)).length
      = m.anonymousRoots.size := by
    rw [← Array.length_toList]
    refine List.Perm.length_eq
      ((List.perm_ext_iff_of_nodup (hnodup.filter _) hm.nodup_roots).mpr ?_)
    intro rep
    rw [List.mem_filter, decide_eq_true_iff, Forest.mem_representatives, Array.mem_toList_iff]
    refine ⟨fun hrep ↦ hrep.2, fun hroot ↦ ⟨⟨?_, hm.find_root hroot⟩, hroot⟩⟩
    exact hm.size_forest ▸ hm.root_lt hroot
  have hothers : (m.forest.representatives.filter (· ∉ m.anonymousRoots)).length
      = (components (past.map Sighting.node)).ncard := by
    rw [h.ncard_components hm, ← List.toFinset_card_of_nodup (hnodup.filter _),
      ← Set.ncard_coe_finset]
    congr 1
    ext rep
    simp
  have hsplit := m.forest.representatives.length_eq_length_filter_add (· ∈ m.anonymousRoots)
  rw [hroots, h.size_roots] at hsplit
  rw [Forest.classes, hsplit, ← hothers]
  simp
  omega

/-! ### The graph -/

/-- Every identity of a sighting is looked up to the declaration of its slot. -/
theorem lookup_graph (h : m.Reflects past) (hm : m.WellFormed) (hx : x ∈ past)
    (hi : i ∈ x.node.identities) :
    m.graph.lookup i = some (m.forest.rank x.slot) ∧ m.forest.rank x.slot < m.graph.size := by
  rw [hm.lookup_graph_known, h.known_eq hx hi, Option.map_some, Forest.rank_find]
  exact ⟨rfl, hm.size_graph ▸ hm.rank_lt (h.slot_lt hx)⟩

/-- **Sightings are looked up to one declaration just when they are connected.** -/
theorem lookup_graph_eq_iff (h : m.Reflects past) (hm : m.WellFormed) (hx : x ∈ past)
    (hy : y ∈ past) (hi : i ∈ x.node.identities) (hj : j ∈ y.node.identities) :
    m.graph.lookup i = m.graph.lookup j ↔ Connected (past.map Sighting.node) x.node y.node := by
  rw [(h.lookup_graph hm hx hi).1, (h.lookup_graph hm hy hj).1, Option.some_inj,
    hm.rank_inj (h.slot_lt hx)]
  exact h.find_eq_iff hx hy (Node.hasIdentity_of_mem hi) (Node.hasIdentity_of_mem hj)

/-- An identity that no sighting has is looked up to nothing, and neither is one that cannot tell
declarations apart. -/
theorem lookup_graph_eq_none (h : m.Reflects past) (hm : m.WellFormed)
    (hi : i.isStable = false ∨ ∀ n ∈ past.map Sighting.node, i ∉ n.identities) :
    m.graph.lookup i = none := by
  rw [hm.lookup_graph, Option.map_eq_none_iff]
  by_contra hsome
  obtain ⟨slot, hindexed⟩ := Option.ne_none_iff_exists'.mp hsome
  rcases hi with hunstable | hnone
  · have hstable := hm.stable_of_indexed hindexed
    rw [hunstable] at hstable
    cases hstable
  · obtain ⟨x, hx, hxi⟩ := h.exists_carrier hindexed
    exact hnone x.node (List.mem_map_of_mem hx) hxi

end Reflects

end Merger

/-! ### Roots without identity -/

/-- Whether the root of a batch has no identity. -/
def Batch.hasAnonymousRoot (b : Batch) : Bool :=
  b.nodes.head?.any fun root ↦ !root.hasIdentity

/-- In an accepted batch without ordinals only the root has no identity. -/
theorem Batch.Accepted.countP_nodes {b : Batch} (hb : b.Accepted)
    (hord : ∀ n ∈ b.nodes, n.subgraph = none) :
    b.nodes.countP (fun n ↦ !n.hasIdentity) = if b.hasAnonymousRoot then 1 else 0 := by
  rw [hasAnonymousRoot]
  cases hnodes : b.nodes with
  | nil => rfl
  | cons root rest =>
    have hrest : rest.countP (fun n ↦ !n.hasIdentity) = 0 := by
      refine List.countP_eq_zero.mpr fun n hn hnone ↦ ?_
      rw [hb.hasIdentity_of_mem_tail hnodes hord hn] at hnone
      cases hnone
    rw [List.countP_cons, hrest, Nat.zero_add]
    rfl

theorem countP_flatMap_nodes {bs : List Batch} (hb : ∀ b ∈ bs, b.Accepted)
    (hord : ∀ b ∈ bs, ∀ n ∈ b.nodes, n.subgraph = none) :
    (bs.flatMap Batch.nodes).countP (fun n ↦ !n.hasIdentity)
      = bs.countP Batch.hasAnonymousRoot := by
  induction bs with
  | nil => rfl
  | cons b bs ih =>
    rw [List.flatMap_cons, List.countP_append, List.countP_cons,
      (hb b List.mem_cons_self).countP_nodes (hord b List.mem_cons_self),
      ih (fun b h ↦ hb b (List.mem_cons_of_mem _ h)) (fun b h ↦ hord b (List.mem_cons_of_mem _ h)),
      Nat.add_comm]

/-- The nodes of the sightings of a run are those of its batches. -/
theorem map_node_flatMap_sightings (steps : List Step) :
    (steps.flatMap Step.sightings).map Sighting.node
      = (steps.map Step.batch).flatMap Batch.nodes := by
  rw [List.map_flatMap, List.flatMap_map]
  exact congrArg (steps.flatMap ·) (funext fun s ↦ s.before.map_node_sightings s.batch.nodes)

/-- **Declarations are the components of what was seen.** When accepted batches without ordinals are
merged one after the other, every identity of a node is looked up to the declaration that the node
was recognised as; two identities are looked up to one declaration just when a chain of links
connects the nodes that have them; and an identity that no node has, such as one that cannot tell
declarations apart, is looked up to none. Besides the root of the graph and these declarations there
are only the roots of batches that have no identity. -/
theorem UseGraph.lookup_ofBatches {bs : List Batch} (hcheck : ∀ b ∈ bs, b.check = .ok ())
    (hord : ∀ b ∈ bs, ∀ n ∈ b.nodes, n.subgraph = none) :
    ∃ steps m, steps.map Step.batch = bs ∧ Merger.empty.Runs steps m
      ∧ (UseGraph.ofBatches bs).result = .ok m.graph
      ∧ (∀ s ∈ steps, ∀ n ∈ s.batch.nodes, ∀ i ∈ n.identities,
          ∃ id, m.HasNumber (s.merged.slotOf n.id) id ∧ m.graph.lookup i = some id
            ∧ id < m.graph.size)
      ∧ (∀ n ∈ bs.flatMap Batch.nodes, ∀ k ∈ bs.flatMap Batch.nodes,
          ∀ i ∈ n.identities, ∀ j ∈ k.identities,
            (m.graph.lookup i = m.graph.lookup j ↔ Connected (bs.flatMap Batch.nodes) n k))
      ∧ (∀ i : Identity, (i.isStable = false ∨ ∀ n ∈ bs.flatMap Batch.nodes, i ∉ n.identities) →
          m.graph.lookup i = none)
      ∧ m.graph.size
        = 1 + (components (bs.flatMap Batch.nodes)).ncard + bs.countP Batch.hasAnonymousRoot := by
  have haccepted : ∀ b ∈ bs, b.Accepted := fun b hb ↦ Batch.check_eq_ok_iff.mp (hcheck b hb)
  obtain ⟨steps, m, rfl, run, hgraph⟩ := UseGraph.exists_run_ofBatches hcheck
  have hm := run.wellFormed Merger.wellFormed_empty
  have hreflects : m.Reflects (steps.flatMap Step.sightings) :=
    run.reflects Merger.reflects_empty Merger.wellFormed_empty fun s hs ↦
      hord _ (List.mem_map_of_mem hs)
  have hseen := map_node_flatMap_sightings steps
  refine ⟨steps, m, rfl, run, hgraph, ?_, ?_, ?_, ?_⟩
  · intro s hs n hn i hi
    obtain ⟨x, hx, rfl, hslot⟩ := run.exists_sighting Merger.wellFormed_empty hs hn
    refine ⟨_, run.hasNumber hs x.node.id, ?_⟩
    rw [hslot]
    exact hreflects.lookup_graph hm (List.mem_flatMap.mpr ⟨s, hs, hx⟩) hi
  · intro n hn k hk i hi j hj
    rw [← hseen] at hn hk ⊢
    obtain ⟨x, hx, rfl⟩ := List.mem_map.mp hn
    obtain ⟨y, hy, rfl⟩ := List.mem_map.mp hk
    exact hreflects.lookup_graph_eq_iff hm hx hy hi hj
  · intro i hi
    rw [← hseen] at hi
    exact hreflects.lookup_graph_eq_none hm hi
  · have hanonymous : (steps.flatMap Step.sightings).countP (fun x ↦ !x.node.hasIdentity)
        = (steps.map Step.batch).countP Batch.hasAnonymousRoot := by
      rw [← countP_flatMap_nodes haccepted hord, ← hseen, List.countP_map]
      rfl
    rw [hm.size_graph, hreflects.classes_eq hm, hanonymous, hseen]

/-- Three batches of which the last one joins two declarations. -/
theorem UseGraph.lookup_bridged : (∀ b ∈ bridged, b.check = .ok ())
    ∧ (∀ b ∈ bridged, ∀ n ∈ b.nodes, n.subgraph = none)
    ∧ ∃ steps m, steps.map Step.batch = bridged ∧ Merger.empty.Runs steps m
      ∧ (UseGraph.ofBatches bridged).result = .ok m.graph
      ∧ (∀ s ∈ steps, ∀ n ∈ s.batch.nodes, ∀ i ∈ n.identities,
          ∃ id, m.HasNumber (s.merged.slotOf n.id) id ∧ m.graph.lookup i = some id
            ∧ id < m.graph.size)
      ∧ (∀ n ∈ bridged.flatMap Batch.nodes, ∀ k ∈ bridged.flatMap Batch.nodes,
          ∀ i ∈ n.identities, ∀ j ∈ k.identities,
            (m.graph.lookup i = m.graph.lookup j ↔ Connected (bridged.flatMap Batch.nodes) n k))
      ∧ (∀ i : Identity,
          (i.isStable = false ∨ ∀ n ∈ bridged.flatMap Batch.nodes, i ∉ n.identities) →
            m.graph.lookup i = none)
      ∧ m.graph.size = 1 + (components (bridged.flatMap Batch.nodes)).ncard
        + bridged.countP Batch.hasAnonymousRoot :=
  ⟨check_bridged, by decide, UseGraph.lookup_ofBatches check_bridged (by decide)⟩

end DeclExtract
