import DeclExtract.Proofs.Merge.Edges
import DeclExtract.Proofs.Merge.Origin
import DeclExtract.Proofs.Merge.Reordering

/-!
# What the root of a graph uses

The root of a graph stands for everything that was merged, and is there to use the roots of the
batches. It gains a use when the root of a batch is new, at the moment when the root is given a
slot, and at no other moment (`node_root_settleAs`): the edges of a batch lead from the slots of its
nodes, none of which is that of the root unless an ordinal says so. A root is new if it shares no
identity with a node of an earlier batch (`Reflects.recognise_eq_fresh_iff`). So the uses of the
root can be told from the batches, up to the ids (`UseGraph.rootUses_ofBatches`): they are the roots
that are new, in the order of their batches.

This is not one use for each root of a batch.

* A root that was seen before as an ordinary node of another batch is not new, and is left out
  (`UseGraph.rootUses_seenBefore`).
* Two roots that were new when they came may turn out to be one declaration later. Its id is then
  listed twice (`UseGraph.rootUses_joinedLater`).
-/

namespace DeclExtract

/-- The sightings of roots that had not been seen before. -/
def newRoots (past : List Sighting) : List Sighting :=
  past.filter Sighting.isNewRoot

@[simp] theorem newRoots_append (past more : List Sighting) :
    newRoots (past ++ more) = newRoots past ++ newRoots more :=
  List.filter_append past more

theorem mem_newRoots {past : List Sighting} {x : Sighting} :
    x ∈ newRoots past ↔ x ∈ past ∧ x.recognition = .fresh ∧ x.node.id = 0 := by
  rw [newRoots, List.mem_filter, Sighting.isNewRoot, decide_eq_true_iff]

/-- The roots of batches that share no identity with the nodes of earlier batches: `seen` are the
nodes of the batches before. -/
def unseenRoots (seen : List Node) : List Batch → List Node
  | [] => []
  | b :: bs =>
    (b.nodes.take 1).filter (fun root ↦ ∀ k ∈ seen, ¬ root.Linked k)
      ++ unseenRoots (seen ++ b.nodes) bs

namespace Merger

variable {m m' : Merger} {n : Node} {r : Recognition} {b : Batch} {past : List Sighting}
variable {x y : Sighting} {steps : List Step}

/-! ### The uses of the root in a run -/

/-- **The root of the graph gains a use when a root is new**, and by no other sighting. Nothing else
about it changes. -/
theorem node_root_settleAs (hm : m.WellFormed) (hr : Recognises m n r) :
    (m.settleAs n r).1.node 0 = { m.node 0 with
      uses := (m.node 0).uses ++ (newRoots [⟨n, r, (m.settleAs n r).2⟩]).map Sighting.slot } := by
  have hold (hr : r ≠ .fresh) :
      (m.node 0).uses ++ (newRoots [⟨n, r, (m.settleAs n r).2⟩]).map Sighting.slot
        = (m.node 0).uses := by
    simp [newRoots, Sighting.isNewRoot, hr]
  -- what is known is in no class of the root
  have hzero {c : Nat} (hc : c ∉ m.anonymousRoots) : 0 ≠ c := fun heq ↦ hc (heq ▸ hm.root_mem)
  have hregister {a : Nat} (hcand : m.candidates n = [a]) : (m.register n a).node 0 = m.node 0 := by
    obtain ⟨hlt, -, hroot⟩ := hm.of_candidate (n := n) (c := a) (by simp [hcand])
    rw [node_register hlt, if_neg (hzero hroot)]
  cases hr with
  | root => rw [hold (by simp), settleAs]
  | @both a b hcand =>
    obtain ⟨ha, -, hroota⟩ := hm.of_candidate (n := n) (c := a) (by simp [hcand])
    obtain ⟨hb, -, hrootb⟩ := hm.of_candidate (n := n) (c := b) (by simp [hcand])
    rw [hold (by simp), settleAs]
    split
    next => rfl
    next hne =>
      have hmin := min_rec' (fun c ↦ c ∉ m.anonymousRoots) hroota hrootb
      have hmax := max_rec' (fun c ↦ c ∉ m.anonymousRoots) hroota hrootb
      rw [node_unify hne ha hb, if_neg (hzero hmin), if_neg (hzero hmax)]
  | path hcand =>
    rw [hold (by simp)]
    exact hregister hcand
  | position hcand =>
    rw [hold (by simp)]
    exact hregister hcand
  | fresh =>
    have hpos := hm.slots_pos
    rw [settleAs, node_allocate hpos, if_neg (Nat.ne_of_lt hpos)]
    by_cases hid : n.id = 0 <;> simp [newRoots, Sighting.isNewRoot, hid]

theorem uses_root_foldl_sighted (hm : m.WellFormed) (ns : List Node) :
    ((ns.foldl sighted m).node 0).uses
      = (m.node 0).uses ++ (newRoots (m.sightings ns)).map Sighting.slot := by
  induction ns generalizing m with
  | nil => exact (List.append_nil _).symm
  | cons n ns ih =>
    have hsplit : newRoots (m.sightings (n :: ns))
        = newRoots [m.sighting n] ++ newRoots ((m.sighted n).sightings ns) :=
      newRoots_append [m.sighting n] _
    rw [List.foldl_cons, ih (hm.sighted n), hsplit, List.map_append, ← List.append_assoc]
    exact congrArg (fun root ↦ root.uses ++ _) (node_root_settleAs hm (m.recognises n))

/-- A node without an ordinal is not given the slot of the root. -/
theorem slot_sighting_ne_zero (hm : m.WellFormed) (hord : n.subgraph = none) :
    (m.sighting n).slot ≠ 0 := by
  have hpos := hm.slots_pos
  rcases m.sighted_cases hord with ⟨-, hcand, -, -⟩ | ⟨-, hnew, -, -⟩
  · intro hzero
    exact (hm.of_candidate hcand).2.2 (hzero ▸ hm.root_mem)
  · omega

theorem slot_ne_zero_of_mem_sightings (hm : m.WellFormed) {ns : List Node}
    (hord : ∀ n ∈ ns, n.subgraph = none) (hx : x ∈ m.sightings ns) : x.slot ≠ 0 := by
  induction ns generalizing m with
  | nil => cases hx
  | cons n ns ih =>
    rcases List.mem_cons.mp hx with rfl | hx
    · exact slot_sighting_ne_zero hm (hord n List.mem_cons_self)
    · exact ih (hm.sighted n) (fun k hk ↦ hord k (List.mem_cons_of_mem _ hk)) hx

/-- Edges that leave other declarations than the root leave the root as it is. -/
theorem node_root_connectAll {slotOf : Nat → Nat} {ns : List Node}
    (hlt : ∀ localId, slotOf localId < m.slots.size)
    (hroot : ∀ n ∈ ns, m.forest.find (slotOf n.id) ≠ 0) :
    (m.connectAll slotOf ns).node 0 = m.node 0 := by
  have hnone : (ns.filter fun n ↦ m.forest.find (slotOf n.id) = 0) = [] :=
    List.filter_eq_nil_iff.mpr fun n hn ↦ by simpa using hroot n hn
  rw [node_connectAll_eq (fun n _ ↦ Forest.find_lt (hlt n.id)), hnone]
  simp

/-- **A batch without ordinals adds the uses of its new roots to the root of the graph**, and
nothing else. -/
theorem uses_root_mergeSound (hm : m.WellFormed) (hb : b.Accepted)
    (hord : ∀ n ∈ b.nodes, n.subgraph = none) : ((m.mergeSound b).merger.node 0).uses
      = (m.node 0).uses ++ (newRoots (m.sightings b.nodes)).map Sighting.slot := by
  have hfirst := hm.foldl_sighted b.nodes
  rw [merger_mergeSound, node_root_connectAll (slotOf_lt hm b) fun n hn ↦ ?_,
    uses_root_foldl_sighted hm]
  rw [← m.map_node_sightings b.nodes, List.mem_map] at hn
  obtain ⟨x, hx, rfl⟩ := hn
  rw [slotOf_id hb hx, ne_eq, hfirst.find_eq_root hfirst.root_mem]
  exact slot_ne_zero_of_mem_sightings hm hord hx

/-- **A run without ordinals adds the uses of its new roots to the root of the graph**, and nothing
else. -/
theorem Runs.uses_root (run : m.Runs steps m') (hm : m.WellFormed)
    (hord : ∀ s ∈ steps, ∀ n ∈ s.batch.nodes, n.subgraph = none) :
    (m'.node 0).uses = (m.node 0).uses
      ++ (newRoots (steps.flatMap Step.sightings)).map Sighting.slot := by
  induction run with
  | nil => exact (List.append_nil _).symm
  | @cons m m' b merged steps hmerge rest ih =>
    obtain ⟨hb, rfl⟩ := merge_eq_ok_iff.mp hmerge
    rw [ih (hm.mergeSound b) fun s hs ↦ hord s (List.mem_cons_of_mem _ hs),
      uses_root_mergeSound hm hb (hord _ List.mem_cons_self), List.flatMap_cons, newRoots_append,
      List.map_append, List.append_assoc]
    rfl

/-! ### Which roots are new -/

/-- **A node is new when it is linked to nothing that was seen.** -/
theorem Reflects.recognise_eq_fresh_iff (h : m.Reflects past) (hord : n.subgraph = none) :
    m.recognise n = .fresh ↔ ∀ k ∈ past.map Sighting.node, ¬ n.Linked k := by
  have hordinal : ∀ o, n.subgraph = some o → m.atOrdinal? o = none := fun o ho ↦ by
    rw [hord] at ho
    cases ho
  rw [Merger.recognise_eq_fresh_iff, and_iff_right hordinal]
  constructor
  · rintro hnil k hk ⟨i, hi, hik⟩
    obtain ⟨x, hx, rfl⟩ := List.mem_map.mp hk
    have hmem : m.forest.find x.slot ∈ m.candidates n :=
      mem_candidates.mpr ⟨i, hi, h.known_eq hx hik⟩
    rw [hnil] at hmem
    cases hmem
  · intro hnone
    refine List.eq_nil_iff_forall_not_mem.mpr fun c hc ↦ ?_
    obtain ⟨i, hi, hknown⟩ := mem_candidates.mp hc
    obtain ⟨x, hx, hxi, -⟩ := h.exists_of_known hknown
    exact hnone x.node (List.mem_map_of_mem hx) ⟨i, hi, hxi⟩

/-- **The new root of a batch**, if there is one, is its first node. -/
theorem Reflects.map_node_newRoots (h : m.Reflects past) (hb : b.Accepted)
    (hord : ∀ n ∈ b.nodes, n.subgraph = none) : (newRoots (m.sightings b.nodes)).map Sighting.node
      = (b.nodes.take 1).filter fun root ↦ ∀ k ∈ past.map Sighting.node, ¬ root.Linked k := by
  cases hnodes : b.nodes with
  | nil => rfl
  | cons root rest =>
    have hid : root.id = 0 := hb.id_eq (by rw [hnodes, List.getElem?_cons_zero])
    have hrest : newRoots ((m.sighted root).sightings rest) = [] := by
      refine List.filter_eq_nil_iff.mpr fun x hx ↦ not_isNewRoot_of_mem_tail (m := m) hb ?_
      rwa [hnodes]
    have hfresh := h.recognise_eq_fresh_iff (hord root (hnodes ▸ List.mem_cons_self))
    have hnew :
        (m.sighting root).isNewRoot = true ↔ ∀ k ∈ past.map Sighting.node, ¬ root.Linked k := by
      rw [← hfresh, Sighting.isNewRoot, decide_eq_true_iff]
      exact and_iff_left hid
    have hsplit : newRoots (m.sightings (root :: rest)) = newRoots [m.sighting root] := by
      rw [sightings, ← List.singleton_append, newRoots_append, hrest, List.append_nil]
    rw [hsplit, newRoots, List.take_succ_cons, List.take_zero, List.filter_singleton,
      List.filter_singleton]
    by_cases hunseen : ∀ k ∈ past.map Sighting.node, ¬ root.Linked k
    · rw [hnew.mpr hunseen, decide_eq_true hunseen]
      rfl
    · rw [Bool.eq_false_of_not_eq_true fun hx ↦ hunseen (hnew.mp hx), decide_eq_false hunseen]
      rfl

/-- **The new roots of a run are the unseen roots of its batches.** -/
theorem Runs.map_node_newRoots (run : m.Runs steps m') (hm : m.WellFormed) (h : m.Reflects past)
    (hord : ∀ s ∈ steps, ∀ n ∈ s.batch.nodes, n.subgraph = none) :
    (newRoots (steps.flatMap Step.sightings)).map Sighting.node
      = unseenRoots (past.map Sighting.node) (steps.map Step.batch) := by
  induction run generalizing past with
  | nil => rfl
  | @cons m m' b merged steps hmerge rest ih =>
    obtain ⟨hb, rfl⟩ := merge_eq_ok_iff.mp hmerge
    have hordb : ∀ n ∈ b.nodes, n.subgraph = none := hord _ List.mem_cons_self
    have hstep : (m.mergeSound b).merger.Reflects (past ++ m.sightings b.nodes) := by
      have hone := (Runs.cons hmerge (.nil _)).reflects h hm fun s hs ↦
        List.mem_singleton.mp hs ▸ hordb
      rwa [List.flatMap_cons, List.flatMap_nil, List.append_nil] at hone
    rw [List.flatMap_cons, newRoots_append, List.map_append,
      ih (hm.mergeSound b) hstep fun s hs ↦ hord s (List.mem_cons_of_mem _ hs), List.map_append,
      m.map_node_sightings, List.map_cons, unseenRoots]
    exact congrArg (· ++ _) (h.map_node_newRoots hb hordb)

/-! ### Roots that turn out to be one declaration -/

/-- New roots have slots in ascending order. -/
theorem Runs.pairwise_newRoots (run : empty.Runs steps m) :
    (newRoots (steps.flatMap Step.sightings)).Pairwise fun x y ↦ x.slot < y.slot :=
  (run.originates.ascending.filter _).imp_of_mem fun _ hy hlt ↦ hlt (mem_newRoots.mp hy).2.1

/-- Of two nodes that were given different slots, one without identity has a number of its own in
the end, and two with identities have one number if they are connected. -/
theorem Runs.rank_ne_iff (run : empty.Runs steps m)
    (hord : ∀ s ∈ steps, ∀ n ∈ s.batch.nodes, n.subgraph = none)
    (hx : x ∈ steps.flatMap Step.sightings) (hy : y ∈ steps.flatMap Step.sightings)
    (hne : x.slot ≠ y.slot) :
    m.forest.rank x.slot ≠ m.forest.rank y.slot ↔ (x.node.hasIdentity = true →
      ¬ Connected ((steps.flatMap Step.sightings).map Sighting.node) x.node y.node) := by
  have hm := run.wellFormed wellFormed_empty
  have hreflects : m.Reflects (steps.flatMap Step.sightings) :=
    run.reflects reflects_empty wellFormed_empty hord
  have hroots := run.anonymousRoots_eq hord
  rw [ne_eq, hm.rank_inj (hreflects.slot_lt hx)]
  cases hxi : x.node.hasIdentity with
  | false =>
    rw [eq_comm, hreflects.find_eq_iff_of_anonymous hm hroots hx hxi]
    simp [hne.symm]
  | true =>
    rw [hreflects.find_eq_iff_of_hasIdentity hm hroots hx hy hxi]
    simp

/-- **A declaration is listed twice when two new roots turn out to be connected.** -/
theorem Runs.nodup_newRoots_iff (run : empty.Runs steps m)
    (hord : ∀ s ∈ steps, ∀ n ∈ s.batch.nodes, n.subgraph = none) :
    ((newRoots (steps.flatMap Step.sightings)).map fun x ↦ m.forest.rank x.slot).Nodup ↔
      ((newRoots (steps.flatMap Step.sightings)).map Sighting.node).Pairwise fun root other ↦
        root.hasIdentity = true →
          ¬ Connected ((steps.flatMap Step.sightings).map Sighting.node) root other := by
  have hsorted := run.pairwise_newRoots
  have hiff {x y : Sighting} (hx : x ∈ newRoots (steps.flatMap Step.sightings))
      (hy : y ∈ newRoots (steps.flatMap Step.sightings)) (hlt : x.slot < y.slot) :=
    run.rank_ne_iff hord (mem_newRoots.mp hx).1 (mem_newRoots.mp hy).1 (Nat.ne_of_lt hlt)
  rw [List.Nodup, List.pairwise_map, List.pairwise_map]
  constructor
  · intro h
    exact (hsorted.and h).imp_of_mem fun hx hy ⟨hlt, hne⟩ ↦ (hiff hx hy hlt).mp hne
  · intro h
    exact (hsorted.and h).imp_of_mem fun hx hy ⟨hlt, hapart⟩ ↦ (hiff hx hy hlt).mpr hapart

/-- **The root of the graph of a run uses the new roots**, under the ids of their declarations. -/
theorem Runs.uses_declaration_root (run : empty.Runs steps m)
    (hord : ∀ s ∈ steps, ∀ n ∈ s.batch.nodes, n.subgraph = none) : (m.declaration 0).uses
      = (newRoots (steps.flatMap Step.sightings)).map fun x ↦ m.forest.rank x.slot := by
  have hslots := run.uses_root wellFormed_empty hord
  rw [show (empty.node 0).uses = [] from rfl, List.nil_append] at hslots
  rw [declaration, hslots, List.map_map]
  rfl

end Merger

namespace UseGraph

open Merger

/-- **What the root of a finished graph uses.** When accepted batches without ordinals are merged
one after the other, the root of the graph uses the new roots of the batches, in their order, and
nothing else. These are the roots that share no identity with a node of an earlier batch. The list
has no duplicates unless two of them are connected by what was seen in the end. -/
theorem rootUses_ofBatches {bs : List Batch} (hcheck : ∀ b ∈ bs, b.check = .ok ())
    (hord : ∀ b ∈ bs, ∀ n ∈ b.nodes, n.subgraph = none) : ∃ steps m root,
    steps.map Step.batch = bs ∧ Merger.empty.Runs steps m ∧ (ofBatches bs).result = .ok m.graph
      ∧ m.graph.node? 0 = some root
      ∧ root.uses = (newRoots (steps.flatMap Step.sightings)).map (fun x ↦ m.forest.rank x.slot)
      ∧ (∀ s ∈ steps, ∀ x ∈ s.sightings, s.merged.slotOf x.node.id = x.slot
        ∧ m.HasNumber x.slot (m.forest.rank x.slot))
      ∧ (newRoots (steps.flatMap Step.sightings)).map Sighting.node = unseenRoots [] bs
      ∧ (root.uses.Nodup ↔ (unseenRoots [] bs).Pairwise fun root other ↦
        root.hasIdentity = true → ¬ Connected (bs.flatMap Batch.nodes) root other) := by
  obtain ⟨steps, m, rfl, run, hgraph⟩ := exists_run_ofBatches hcheck
  have hm := run.wellFormed wellFormed_empty
  have hordsteps : ∀ s ∈ steps, ∀ n ∈ s.batch.nodes, n.subgraph = none := fun s hs ↦
    hord _ (List.mem_map_of_mem hs)
  have huses := run.uses_declaration_root hordsteps
  have hnodes := run.map_node_newRoots wellFormed_empty reflects_empty hordsteps
  refine ⟨steps, m, m.declaration 0, rfl, run, hgraph, hm.node?_graph_zero, huses,
    fun s hs x hx ↦ ?_, hnodes, ?_⟩
  · obtain ⟨-, hb, hmerged, -⟩ := run.of_mem wellFormed_empty hs
    have hslot : s.merged.slotOf x.node.id = x.slot := hmerged ▸ slotOf_id hb hx
    exact ⟨hslot, hslot ▸ run.hasNumber hs x.node.id⟩
  · rw [huses, run.nodup_newRoots_iff hordsteps, hnodes, map_node_flatMap_sightings]
    rfl

/-- The roots of three batches have no identity, so each of them is new. -/
theorem rootUses_bridged :
    (∀ b ∈ bridged, b.check = .ok ()) ∧ (∀ b ∈ bridged, ∀ n ∈ b.nodes, n.subgraph = none)
    ∧ ∃ steps m root, steps.map Step.batch = bridged ∧ Merger.empty.Runs steps m
      ∧ (ofBatches bridged).result = .ok m.graph ∧ m.graph.node? 0 = some root
      ∧ root.uses = (newRoots (steps.flatMap Step.sightings)).map (fun x ↦ m.forest.rank x.slot)
      ∧ (∀ s ∈ steps, ∀ x ∈ s.sightings, s.merged.slotOf x.node.id = x.slot
        ∧ m.HasNumber x.slot (m.forest.rank x.slot))
      ∧ (newRoots (steps.flatMap Step.sightings)).map Sighting.node = unseenRoots [] bridged
      ∧ (root.uses.Nodup ↔ (unseenRoots [] bridged).Pairwise fun root other ↦
        root.hasIdentity = true → ¬ Connected (bridged.flatMap Batch.nodes) root other) :=
  ⟨check_bridged, by decide, rootUses_ofBatches check_bridged (by decide)⟩

/-! ### A root that is left out, and a root that is listed twice -/

/-- A function that is known by its path. -/
def knownByPath : Node where
  id := 0
  name := "F"
  exported := true
  kind := .function
  path := some ⟨"pkg", "F"⟩

/-- The same function, known by its position as well. -/
def knownByBoth : Node :=
  { knownByPath with position := { file := "f.go", line := 1, column := some 6 } }

/-- A batch that shows the function among others, and one of which it is the root. -/
def seenBefore : List Batch :=
  [⟨[Node.root, { knownByPath with id := 1 }]⟩, ⟨[knownByPath]⟩]

/-- Three batches of which the function is the root. Only the last one shows that they have one
root. -/
def joinedLater : List Batch :=
  [⟨[knownByPath]⟩, ⟨[{ knownByBoth with path := none }]⟩, ⟨[knownByBoth]⟩]

/-- **The root of the second batch is missing from the uses of the root of the graph**, because its
declaration was first seen as an ordinary node. -/
theorem rootUses_seenBefore :
    (∀ b ∈ seenBefore, b.check = .ok ()) ∧ (∀ b ∈ seenBefore, b.nodes ≠ [])
    ∧ (∀ b ∈ seenBefore, ∀ n ∈ b.nodes, n.subgraph = none)
    ∧ ∃ steps m root, steps.map Step.batch = seenBefore ∧ Merger.empty.Runs steps m
      ∧ (ofBatches seenBefore).result = .ok m.graph ∧ m.graph.node? 0 = some root
      ∧ ∃ s ∈ steps, ∃ id, m.HasNumber (s.merged.slotOf 0) id ∧ id ∉ root.uses := by
  have hcheck : ∀ b ∈ seenBefore, b.check = .ok () := by decide
  have hnone : ∀ b ∈ seenBefore, ∀ n ∈ b.nodes, n.subgraph = none := by decide
  obtain ⟨steps, m, hsteps, run, hgraph⟩ := exists_run_ofBatches hcheck
  have hm := run.wellFormed wellFormed_empty
  have hord : ∀ s ∈ steps, ∀ n ∈ s.batch.nodes, n.subgraph = none := fun s hs ↦
    hnone _ (hsteps ▸ List.mem_map_of_mem hs)
  obtain ⟨s, hs, hbatch⟩ : ∃ s ∈ steps, s.batch = ⟨[knownByPath]⟩ := by
    rw [← List.mem_map, hsteps]
    decide
  obtain ⟨y, hy, hnode, hslot⟩ := run.exists_sighting wellFormed_empty hs (n := knownByPath)
    (hbatch ▸ List.mem_cons_self)
  have hypast : y ∈ steps.flatMap Step.sightings := List.mem_flatMap.mpr ⟨s, hs, hy⟩
  have hreflects : m.Reflects (steps.flatMap Step.sightings) :=
    run.reflects reflects_empty wellFormed_empty hord
  refine ⟨hcheck, by decide, hnone, steps, m, m.declaration 0, hsteps, run, hgraph,
    hm.node?_graph_zero, s, hs, m.forest.rank y.slot, ?_, fun hmem ↦ ?_⟩
  · rw [show (0 : Nat) = knownByPath.id from rfl, hslot]
    exact hm.hasNumber (hreflects.slot_lt hypast)
  rw [run.uses_declaration_root hord, List.mem_map] at hmem
  obtain ⟨x, hx, hrank⟩ := hmem
  have hxpast := (mem_newRoots.mp hx).1
  -- the only root that is listed has no identity, so the function is not connected to it
  have hanonymous : x.node.hasIdentity = false := by
    have hunseen : ∀ root ∈ unseenRoots [] seenBefore, root.hasIdentity = false := by decide
    refine hunseen x.node ?_
    rw [← hsteps, ← List.map_nil (f := Sighting.node),
      ← run.map_node_newRoots wellFormed_empty reflects_empty hord]
    exact List.mem_map_of_mem hx
  have hidentity : y.node.hasIdentity = true := hnode ▸ rfl
  rw [hm.rank_inj (hreflects.slot_lt hxpast), eq_comm,
    hreflects.find_eq_iff_of_hasIdentity hm
    (run.anonymousRoots_eq hord) hypast hxpast hidentity] at hrank
  rw [hrank.hasIdentity hidentity] at hanonymous
  cases hanonymous

/-- **The root of the three batches is listed twice**, because two of them were merged before it was
known that they have one root. -/
theorem rootUses_joinedLater : (∀ b ∈ joinedLater, b.check = .ok ())
    ∧ (∀ b ∈ joinedLater, ∀ n ∈ b.nodes, n.subgraph = none)
    ∧ ∃ steps m root, steps.map Step.batch = joinedLater ∧ Merger.empty.Runs steps m
      ∧ (ofBatches joinedLater).result = .ok m.graph ∧ m.graph.node? 0 = some root
      ∧ ¬ root.uses.Nodup := by
  have hcheck : ∀ b ∈ joinedLater, b.check = .ok () := by decide
  have hnone : ∀ b ∈ joinedLater, ∀ n ∈ b.nodes, n.subgraph = none := by decide
  obtain ⟨steps, m, hsteps, run, hgraph⟩ := exists_run_ofBatches hcheck
  have hord : ∀ s ∈ steps, ∀ n ∈ s.batch.nodes, n.subgraph = none := fun s hs ↦
    hnone _ (hsteps ▸ List.mem_map_of_mem hs)
  refine ⟨hcheck, hnone, steps, m, m.declaration 0, hsteps, run, hgraph,
    (run.wellFormed wellFormed_empty).node?_graph_zero, fun hnodup ↦ ?_⟩
  rw [run.uses_declaration_root hord, run.nodup_newRoots_iff hord,
    run.map_node_newRoots wellFormed_empty reflects_empty hord, map_node_flatMap_sightings,
    hsteps] at hnodup
  let byPosition : Node := { knownByBoth with path := none }
  have hroots : unseenRoots (([] : List Sighting).map Sighting.node) joinedLater
      = [knownByPath, byPosition] := by
    decide
  rw [hroots] at hnodup
  have hapart := (List.pairwise_cons.mp hnodup).1 byPosition List.mem_cons_self (by decide)
  -- the node that shows both identities connects the two roots
  have hpath : Connected (joinedLater.flatMap Batch.nodes) knownByPath knownByBoth :=
    .of_shared (by decide) (by decide) (i := .path ⟨"pkg", "F"⟩) (by decide) (by decide)
  have hposition : Connected (joinedLater.flatMap Batch.nodes) knownByBoth byPosition :=
    .of_shared (by decide) (by decide) (i := .position knownByBoth.position) (by decide) (by decide)
  exact hapart (hpath.trans hposition)

end UseGraph

end DeclExtract
