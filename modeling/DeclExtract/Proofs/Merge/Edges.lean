import Mathlib.Algebra.BigOperators.Group.Finset.Piecewise
import Mathlib.Algebra.Order.Group.Multiset
import Mathlib.Data.Multiset.Bind
import DeclExtract.Proofs.Merge.Graph
import DeclExtract.UseGraph.Dot

/-!
# Edges are conserved

The edges of a merger are kept in its slots, and written in slots. A slot may be absorbed by another
one at any time, before or after edges were put into it, and whoever refers to it goes on referring
to it. To follow the edges through all of this they are read with the numbers of a later forest `f`,
in which everything has been joined that ever will be: `Merger.edgesIn f` is the multiset of the
edges in all slots, with every slot replaced by its rank in `f`.

Seen like that, joining two classes changes nothing (`edgesIn_unify`): the edges move to a slot of
the same number. A new root adds the one edge that the report counts (`edgesIn_settleAs`), and the
second pass over a batch adds the edges of the batch (`edgesIn_connectAll`). The graph that is taken
at the end holds the edges of all slots (`coe_edges_graph`), since an absorbed slot is empty.

The main statement is `UseGraph.edges_ofBatches`.
-/

namespace DeclExtract

/-! ### Renumbered edges -/

/-- The edge between the images of its ends. -/
def Edge.map (number : Nat → Nat) (e : Edge) : Edge :=
  ⟨number e.source, number e.target, e.kind⟩

/-- The edges of a batch, in its own ids. -/
def Batch.edges (b : Batch) : List Edge :=
  b.nodes.flatMap fun n ↦ UseGraph.edgesFrom n true

/-- Edges that leave `source`, between renumbered ids. -/
def edgesOf (number : Nat → Nat) (source : Nat) (uses owns : List Nat) : Multiset Edge :=
  (uses.map fun t ↦ (⟨number source, number t, .uses⟩ : Edge) : List Edge)
    + (owns.map fun t ↦ (⟨number source, number t, .owns⟩ : Edge) : List Edge)

section Numbering

variable {number : Nat → Nat} {source other : Nat}

@[simp] theorem edgesOf_nil : edgesOf number source [] [] = 0 := rfl

theorem edgesOf_append (uses owns moreUses moreOwns : List Nat) :
    edgesOf number source (uses ++ moreUses) (owns ++ moreOwns)
      = edgesOf number source uses owns + edgesOf number source moreUses moreOwns := by
  simp only [edgesOf, List.map_append, ← Multiset.coe_add]
  exact add_add_add_comm _ _ _ _

/-- Slots with one number are the same source. -/
theorem edgesOf_congr (h : number source = number other) (uses owns : List Nat) :
    edgesOf number source uses owns = edgesOf number other uses owns := by
  rw [edgesOf, edgesOf, h]

theorem map_edgesFrom (number : Nat → Nat) (n : Node) :
    (UseGraph.edgesFrom n true : Multiset Edge).map (Edge.map number)
      = edgesOf number n.id n.uses n.owns := by
  simp [UseGraph.edgesFrom, edgesOf, Edge.map, Function.comp_def]

end Numbering

theorem coe_flatMap {α β : Type} (l : List α) (g : α → List β) :
    (l.flatMap g : Multiset β) = (l.map fun a ↦ (g a : Multiset β)).sum := by
  rw [← Multiset.coe_bind, Multiset.bind, Multiset.join, Multiset.map_coe, Multiset.sum_coe]

/-- The edges of a batch, renumbered, node by node. -/
theorem Batch.map_edges (b : Batch) (number : Nat → Nat) :
    (b.edges : Multiset Edge).map (Edge.map number)
      = (b.nodes.map fun n ↦ edgesOf number n.id n.uses n.owns).sum := by
  rw [edges, coe_flatMap, ← Multiset.coe_mapAddMonoidHom, map_list_sum, List.map_map]
  exact congrArg List.sum (List.map_congr_left fun n _ ↦ map_edgesFrom number n)

/-- The ids that a node has an edge of the given kind to. -/
def Node.along (n : Node) : EdgeKind → List Nat
  | .uses => n.uses
  | .owns => n.owns

theorem Node.along_subset_targets (n : Node) (kind : EdgeKind) :
    ∀ t ∈ n.along kind, t ∈ n.targets := by
  cases kind with
  | uses => exact fun t ht ↦ List.mem_append_left _ ht
  | owns => exact fun t ht ↦ List.mem_append_right _ ht

/-- The edges that leave a node. -/
theorem UseGraph.mem_edgesFrom_iff {n : Node} {e : Edge} :
    e ∈ UseGraph.edgesFrom n true ↔ e.source = n.id ∧ e.target ∈ n.along e.kind := by
  obtain ⟨source, target, kind⟩ := e
  cases kind <;> simp [UseGraph.edgesFrom, Node.along, eq_comm, and_comm]

/-- Edges of a batch lead from nodes of the batch to nodes of the batch. -/
theorem Batch.Accepted.edge_lt {b : Batch} (hb : b.Accepted) {e : Edge} (he : e ∈ b.edges) :
    e.source < b.size ∧ e.target < b.size := by
  obtain ⟨n, hn, hedge⟩ := List.mem_flatMap.mp he
  obtain ⟨hsource, htarget⟩ := UseGraph.mem_edgesFrom_iff.mp hedge
  obtain ⟨index, hindex⟩ := List.mem_iff_getElem?.mp hn
  refine ⟨?_, hb.target_lt hn (n.along_subset_targets e.kind _ htarget)⟩
  rw [hsource, hb.id_eq hindex]
  exact (List.getElem?_eq_some_iff.mp hindex).1

/-- The edges of a graph are those of its nodes. -/
theorem UseGraph.WellFormed.mem_edges_iff {g : UseGraph} (h : g.WellFormed) {source target : Nat}
    {kind : EdgeKind} : (⟨source, target, kind⟩ : Edge) ∈ g.edges true ↔
      ∃ n, g.node? source = some n ∧ target ∈ n.along kind := by
  rw [UseGraph.edges, List.mem_flatMap]
  constructor
  · rintro ⟨n, hn, hedge⟩
    obtain ⟨hsource, htarget⟩ := mem_edgesFrom_iff.mp hedge
    obtain ⟨id, hid⟩ := Array.mem_iff_getElem?.mp (Array.mem_toList_iff.mp hn)
    have hplace : source = id := hsource.trans (h.id_eq hid)
    exact ⟨n, hplace ▸ hid, htarget⟩
  · rintro ⟨n, hn, htarget⟩
    exact ⟨n, Array.mem_toList_iff.mpr (Array.mem_of_getElem? hn),
      mem_edgesFrom_iff.mpr ⟨(h.id_eq hn).symm, htarget⟩⟩

/-- Whether a sighting is that of the root of a batch which had not been seen before. -/
def Sighting.isNewRoot (x : Sighting) : Bool :=
  x.recognition = .fresh ∧ x.node.id = 0

namespace Merger

variable {f : Forest} {m m' : Merger} {n : Node} {r : Recognition} {slot : Nat}

/-! ### The edges of a merger -/

/-- The edges in a slot, with the numbers of a forest. -/
def edgesAt (f : Forest) (m : Merger) (slot : Nat) : Multiset Edge :=
  edgesOf f.rank slot (m.node slot).uses (m.node slot).owns

/-- The edges in all slots, with the numbers of a forest. -/
def edgesIn (f : Forest) (m : Merger) : Multiset Edge :=
  ∑ s ∈ Finset.range m.slots.size, m.edgesAt f s

theorem edgesAt_of_targets_eq_nil (h : (m.node slot).targets = []) : m.edgesAt f slot = 0 := by
  obtain ⟨huses, howns⟩ := List.append_eq_nil_iff.mp h
  rw [edgesAt, huses, howns, edgesOf_nil]

/-- A sum changes by what one of its terms changes. -/
theorem sum_range_add_ite {size s : Nat} (hs : s < size) (edges : Nat → Multiset Edge)
    (added : Multiset Edge) :
    ∑ k ∈ Finset.range size, (edges k + if k = s then added else 0)
      = ∑ k ∈ Finset.range size, edges k + added := by
  rw [Finset.sum_add_distrib, Finset.sum_ite_eq', if_pos (Finset.mem_range.mpr hs)]

@[simp] theorem edgesIn_empty (f : Forest) : empty.edgesIn f = 0 := by
  rw [edgesIn, show empty.slots.size = 1 from rfl, Finset.sum_range_one]
  rfl

theorem edgesIn_register (hslot : slot < m.slots.size) :
    (m.register n slot).edgesIn f = m.edgesIn f := by
  rw [edgesIn, edgesIn, size_slots_register]
  refine Finset.sum_congr rfl fun s _ ↦ ?_
  rw [edgesAt, node_register hslot]
  split <;> rfl

/-- **Joining two classes moves edges between slots of one number.** -/
theorem edgesIn_unify {a b : Nat} (hne : a ≠ b) (ha : a < m.slots.size) (hb : b < m.slots.size)
    (hrank : f.rank a = f.rank b) : (m.unify a b).edgesIn f = m.edgesIn f := by
  have hmoved : f.rank (max a b) = f.rank (min a b) := by
    rcases Nat.le_total a b with hle | hle
    · rw [Nat.min_eq_left hle, Nat.max_eq_right hle, hrank]
    · rw [Nat.min_eq_right hle, Nat.max_eq_left hle, hrank]
  have hlt : min a b < max a b := by omega
  have hgone : max a b < m.slots.size := by omega
  -- what the absorbed slot loses is what the surviving one gains
  have hnode (s : Nat) :
      (m.unify a b).edgesAt f s + (if s = max a b then m.edgesAt f (max a b) else 0)
        = m.edgesAt f s + if s = min a b then m.edgesAt f (max a b) else 0 := by
    by_cases hkeep : s = min a b
    · subst hkeep
      rw [if_neg (Nat.ne_of_lt hlt), if_pos rfl, add_zero, edgesAt, node_unify hne ha hb,
        if_pos rfl, edgesAt, edgesAt, edgesOf_congr hmoved]
      exact edgesOf_append _ _ _ _
    · rw [if_neg hkeep, add_zero]
      by_cases hs : s = max a b
      · subst hs
        rw [if_pos rfl, edgesAt_of_targets_eq_nil, zero_add]
        rw [node_unify hne ha hb, if_neg hkeep, if_pos rfl, targets_blank]
      · rw [if_neg hs, add_zero, edgesAt, node_unify hne ha hb, if_neg hkeep, if_neg hs, edgesAt]
  have hsum := Finset.sum_congr (rfl : Finset.range m.slots.size = _) fun s _ ↦ hnode s
  rw [sum_range_add_ite hgone, sum_range_add_ite (Nat.lt_trans hlt hgone)] at hsum
  rw [edgesIn, edgesIn, size_slots_unify]
  exact add_right_cancel hsum

/-- A new slot has no edges of its own; the root uses it if it belongs to the root of a batch. -/
theorem edgesIn_extend (h : m.WellFormed) (n : Node) :
    (m.extend n).edgesIn f
      = m.edgesIn f + if n.id = 0 then {⟨f.rank 0, f.rank m.slots.size, .uses⟩} else 0 := by
  -- of the slots that were there, only that of the root can gain an edge
  have hold (s : Nat) (hs : s < m.slots.size) :
      (m.extend n).edgesAt f s
        = m.edgesAt f s
          + if s = 0 then (if n.id = 0 then {⟨f.rank 0, f.rank m.slots.size, .uses⟩} else 0)
          else 0 := by
    rw [edgesAt, node_extend h.slots_pos, if_neg (Nat.ne_of_lt hs), edgesAt]
    by_cases hroot : s = 0
    · subst hroot
      by_cases hid : n.id = 0
      · rw [if_pos ⟨rfl, hid⟩, if_pos rfl, if_pos hid]
        have happend := @edgesOf_append f.rank 0 (m.node 0).uses (m.node 0).owns [m.slots.size] []
        rwa [List.append_nil] at happend
      · rw [if_neg fun h ↦ hid h.2, if_pos rfl, if_neg hid, add_zero]
    · rw [if_neg fun h ↦ hroot h.1, if_neg hroot, add_zero]
  have hnew : (m.extend n).edgesAt f m.slots.size = 0 := by
    refine edgesAt_of_targets_eq_nil ?_
    rw [node_extend h.slots_pos, if_pos rfl, targets_settle]
  rw [edgesIn, edgesIn, size_slots_extend, Finset.sum_range_succ, hnew, add_zero,
    Finset.sum_congr rfl fun s hs ↦ hold s (Finset.mem_range.mp hs), sum_range_add_ite h.slots_pos]

theorem edgesIn_addEdges {uses owns : List Nat} (hslot : slot < m.slots.size)
    (href : m.forest.Refines f) :
    (m.addEdges slot uses owns).edgesIn f = m.edgesIn f + edgesOf f.rank slot uses owns := by
  have hfind : m.forest.find slot < m.slots.size := Forest.find_lt hslot
  have hnode (s : Nat) :
      (m.addEdges slot uses owns).edgesAt f s
        = m.edgesAt f s + if s = m.forest.find slot then edgesOf f.rank slot uses owns else 0 := by
    rw [edgesAt, node_addEdges hfind, edgesAt]
    split
    next hs =>
      rw [edgesOf_congr (hs ▸ (href.rank_find slot).symm : f.rank slot = f.rank s)]
      exact edgesOf_append _ _ _ _
    next => rw [add_zero]
  rw [edgesIn, edgesIn, size_slots_addEdges, Finset.sum_congr rfl fun s _ ↦ hnode s,
    sum_range_add_ite hfind]

/-! ### The edges that a batch adds -/

/-- The edges that a sighting adds: the root of the graph uses every new root of a batch. -/
def rootEdges (f : Forest) (x : Sighting) : Multiset Edge :=
  if x.isNewRoot then {⟨f.rank 0, f.rank x.slot, .uses⟩} else 0

/-- **A sighting adds the edge to a new root, and no other.** -/
theorem edgesIn_settleAs (h : m.WellFormed) (hr : Recognises m n r)
    (href : (m.settleAs n r).1.forest.Refines f) :
    (m.settleAs n r).1.edgesIn f = m.edgesIn f + rootEdges f ⟨n, r, (m.settleAs n r).2⟩ := by
  have hknown (hr : r ≠ .fresh) : rootEdges f ⟨n, r, (m.settleAs n r).2⟩ = 0 := by
    simp [rootEdges, Sighting.isNewRoot, hr]
  cases hr with
  | root => rw [hknown (by simp), add_zero, settleAs]
  | @both a b hcand =>
    obtain ⟨ha, hb⟩ := of_candidates_eq h hcand
    rw [hknown (by simp), add_zero]
    rw [settleAs] at href ⊢
    split at href
    next heq => rw [if_pos heq]
    next hne =>
      -- the two are found in one place now, so `f` gives them one number
      have hjoined : (m.unify a b).forest.find a = (m.unify a b).forest.find b := by
        rw [h.find_unify hne ha hb, h.find_unify hne ha hb, ha.2, hb.2]
        split <;> split <;> omega
      rw [if_neg hne]
      refine edgesIn_unify hne ha.1 hb.1 ?_
      rw [← href.rank_find a, hjoined, href.rank_find]
  | @path a hcand =>
    rw [hknown (by simp), add_zero]
    exact edgesIn_register (h.of_candidate (n := n) (by simp [hcand])).1
  | @position a hcand =>
    rw [hknown (by simp), add_zero]
    exact edgesIn_register (h.of_candidate (n := n) (by simp [hcand])).1
  | fresh =>
    rw [settleAs, allocate, edgesIn_register (by rw [size_slots_extend]; exact Nat.lt_succ_self _),
      edgesIn_extend h]
    simp [rootEdges, Sighting.isNewRoot]

theorem edgesIn_foldl_sighted (h : m.WellFormed) (ns : List Node)
    (href : (ns.foldl sighted m).forest.Refines f) :
    (ns.foldl sighted m).edgesIn f = m.edgesIn f + ((m.sightings ns).map (rootEdges f)).sum := by
  induction ns generalizing m with
  | nil => rw [sightings, List.map_nil, List.sum_nil, add_zero, List.foldl_nil]
  | cons n ns ih =>
    have hfirst : (m.sighted n).edgesIn f = m.edgesIn f + rootEdges f (m.sighting n) :=
      edgesIn_settleAs h (m.recognises n) ((refines_foldl_sighted (h.sighted n) ns).trans href)
    calc ((n :: ns).foldl sighted m).edgesIn f
        = (m.sighted n).edgesIn f + (((m.sighted n).sightings ns).map (rootEdges f)).sum :=
          ih (h.sighted n) href
      _ = m.edgesIn f + (rootEdges f (m.sighting n)
            + (((m.sighted n).sightings ns).map (rootEdges f)).sum) := by
          rw [← add_assoc, hfirst]
      _ = m.edgesIn f + ((m.sightings (n :: ns)).map (rootEdges f)).sum := by
          rw [sightings, List.map_cons, List.sum_cons]

/-- **The second pass adds the edges of the nodes.** -/
theorem edgesIn_connectAll {slotOf : Nat → Nat} (hslot : ∀ localId, slotOf localId < m.slots.size)
    (href : m.forest.Refines f) (ns : List Node) :
    (m.connectAll slotOf ns).edgesIn f
      = m.edgesIn f
        + (ns.map fun n ↦ edgesOf
          (fun localId ↦ f.rank (slotOf localId)) n.id n.uses n.owns).sum := by
  induction ns generalizing m with
  | nil => rw [List.map_nil, List.sum_nil, add_zero, connectAll, List.foldl_nil]
  | cons n ns ih =>
    have hrest := ih (m := m.addEdges (slotOf n.id) (n.uses.map slotOf) (n.owns.map slotOf))
      (fun localId ↦ by rw [size_slots_addEdges]; exact hslot localId) href
    have hfirst : edgesOf f.rank (slotOf n.id) (n.uses.map slotOf) (n.owns.map slotOf)
        = edgesOf (fun localId ↦ f.rank (slotOf localId)) n.id n.uses n.owns := by
      simp [edgesOf, Function.comp_def]
    rw [List.map_cons, List.sum_cons, ← add_assoc, ← hfirst, ← edgesIn_addEdges (hslot n.id) href]
    exact hrest

/-- The report counts the edges to new roots. -/
theorem rootEdges_foldl_count (report : MergeReport) (xs : List Sighting) :
    (xs.foldl Sighting.count report).rootEdges
      = report.rootEdges + xs.countP Sighting.isNewRoot := by
  have hcount (report : MergeReport) (x : Sighting) :
      (Sighting.count report x).rootEdges = report.rootEdges + if x.isNewRoot then 1 else 0 := by
    obtain ⟨n, r, slot⟩ := x
    cases r with
    | fresh =>
      by_cases hid : n.id = 0 <;> simp [Sighting.count, Recognition.count, Sighting.isNewRoot, hid]
    | _ => simp [Sighting.count, Recognition.count, Sighting.isNewRoot]
  induction xs generalizing report with
  | nil => rfl
  | cons x xs ih =>
    rw [List.foldl_cons, ih, hcount, List.countP_cons]
    omega

/-- Only the first node of an accepted batch can be a new root. -/
theorem not_isNewRoot_of_mem_tail {b : Batch} (hb : b.Accepted) {x : Sighting}
    (hx : x ∈ (m.sightings b.nodes).tail) : ¬ x.isNewRoot = true := by
  intro hnew
  obtain ⟨index, hindex⟩ := List.mem_iff_getElem?.mp hx
  rw [List.getElem?_tail] at hindex
  have hlater : x.node.id = index + 1 := id_of_getElem?_sightings hb hindex
  have hzero : x.node.id = 0 := (of_decide_eq_true hnew).2
  omega

/-- When the new roots among some sightings have one slot, their edges are copies of one edge. -/
theorem sum_rootEdges {xs : List Sighting} (hslot : ∀ x ∈ xs, x.isNewRoot → x.slot = slot) :
    (xs.map (rootEdges f)).sum
      = Multiset.replicate (xs.countP Sighting.isNewRoot) ⟨f.rank 0, f.rank slot, .uses⟩ := by
  induction xs with
  | nil => rfl
  | cons x xs ih =>
    rw [List.map_cons, List.sum_cons, ih fun y hy ↦ hslot y (List.mem_cons_of_mem _ hy),
      List.countP_cons, rootEdges]
    split
    next hx =>
      rw [hslot x List.mem_cons_self hx, Multiset.singleton_add, Multiset.replicate_succ]
    next => rw [zero_add, add_zero]

end Merger

/-- The edges that a step of a run puts into the graph: those of its batch, and as many edges from
the root of the graph to the root of the batch as the report counts. -/
def Step.edges (f : Forest) (s : Step) : Multiset Edge :=
  (s.batch.edges : Multiset Edge).map (Edge.map fun localId ↦ f.rank (s.merged.slotOf localId))
    + Multiset.replicate s.merged.report.rootEdges ⟨0, f.rank (s.merged.slotOf 0), .uses⟩

/-- An edge that does not leave the root of the graph is one of the batch. -/
theorem Step.mem_edges_iff {f : Forest} {s : Step} {e : Edge} (he : e.source ≠ 0) :
    e ∈ Step.edges f s ↔
    ∃ d ∈ s.batch.edges, d.map (fun localId ↦ f.rank (s.merged.slotOf localId)) = e := by
  have hroot : e ∉ Multiset.replicate s.merged.report.rootEdges
      (⟨0, f.rank (s.merged.slotOf 0), .uses⟩ : Edge) :=
    fun hmem ↦ he (congrArg Edge.source (Multiset.eq_of_mem_replicate hmem))
  rw [Step.edges, Multiset.mem_add, Multiset.mem_map]
  simp [hroot]

namespace Merger

variable {f : Forest} {m m' : Merger} {steps : List Step}

/-- **Merging a batch adds the edges of the batch, and those that the report counts.** -/
theorem edgesIn_mergeSound {b : Batch} (h : m.WellFormed) (hb : b.Accepted)
    (href : (m.mergeSound b).merger.forest.Refines f) (hzero : f.rank 0 = 0) :
    (m.mergeSound b).merger.edgesIn f = m.edgesIn f + Step.edges f ⟨m, b, m.mergeSound b⟩ := by
  have hroot : ∀ x ∈ m.sightings b.nodes, x.isNewRoot → x.slot = (m.mergeSound b).slotOf 0 := by
    intro x hx hnew
    have hid : x.node.id = 0 := (of_decide_eq_true hnew).2
    rw [← slotOf_id hb hx, hid]
  have hsights := href
  rw [forest_mergeSound] at hsights
  rw [merger_mergeSound, edgesIn_connectAll (slotOf_lt h b) hsights,
    edgesIn_foldl_sighted h _ hsights, sum_rootEdges hroot, hzero, Step.edges, Batch.map_edges,
    report_mergeSound, rootEdges_foldl_count, Nat.zero_add, add_assoc]
  exact congrArg _ (add_comm _ _)

/-- **A run adds the edges of its steps.** -/
theorem Runs.edgesIn (run : m.Runs steps m') (h : m.WellFormed) (href : m'.forest.Refines f)
    (hzero : f.rank 0 = 0) : m'.edgesIn f = m.edgesIn f + (steps.map (Step.edges f)).sum := by
  induction run with
  | nil => rw [List.map_nil, List.sum_nil, add_zero]
  | @cons m m' b _ _ hmerge rest ih =>
    obtain ⟨hb, rfl⟩ := merge_eq_ok_iff.mp hmerge
    have hmerged := h.mergeSound b
    -- whatever the rest of the run joins has one number in `f` already
    rw [ih hmerged href, edgesIn_mergeSound h hb ((rest.refines hmerged).trans href) hzero,
      List.map_cons, List.sum_cons, add_assoc]

/-! ### The edges of the graph -/

/-- **The graph has the edges of all slots**, since absorbed slots have none. -/
theorem WellFormed.coe_edges_graph (h : m.WellFormed) :
    (m.graph.edges true : Multiset Edge) = m.edgesIn m.forest := by
  have hdeclaration (rep : Nat) : (UseGraph.edgesFrom (m.declaration rep) true : Multiset Edge)
      = m.edgesAt m.forest rep := by
    simp [UseGraph.edgesFrom, declaration, edgesAt, edgesOf, Function.comp_def]
  -- the slots that are left out have nothing to add
  have habsorbed (size : Nat) :
      (((List.range size).filter m.forest.isRepresentative).map (m.edgesAt m.forest)).sum
        = ∑ s ∈ Finset.range size, m.edgesAt m.forest s := by
    induction size with
    | zero => rfl
    | succ size ih =>
      rw [List.range_succ, List.filter_append, List.map_append, List.sum_append, ih,
        Finset.sum_range_succ]
      by_cases hrep : m.forest.find size = size
      · simp [Forest.isRepresentative, hrep]
      · simp [Forest.isRepresentative, hrep, edgesAt_of_targets_eq_nil (h.targets_absorbed hrep)]
  rw [UseGraph.edges, h.nodes_graph, coe_flatMap, List.map_map, Forest.representatives,
    h.size_forest]
  exact (congrArg List.sum (List.map_congr_left fun rep _ ↦ hdeclaration rep)).trans (habsorbed _)

/-- **The edges of the graph are those that the steps of the run put into it.** -/
theorem Runs.coe_edges_graph (run : empty.Runs steps m) :
    (m.graph.edges true : Multiset Edge) = (steps.map (Step.edges m.forest)).sum := by
  have hm := run.wellFormed wellFormed_empty
  rw [hm.coe_edges_graph, run.edgesIn wellFormed_empty (Forest.Refines.refl _) hm.rank_zero,
    edgesIn_empty, zero_add]

/-- An edge of the graph is one that some step put into it. -/
theorem Runs.mem_edges_iff (run : empty.Runs steps m) {e : Edge} :
    e ∈ m.graph.edges true ↔ ∃ s ∈ steps, e ∈ Step.edges m.forest s := by
  rw [← Multiset.mem_coe, run.coe_edges_graph, ← Multiset.sum_coe]
  show e ∈ Multiset.join _ ↔ _
  simp [Multiset.mem_join]

/-- **What a node uses in its batch, its declaration uses in the graph.** -/
theorem Runs.exists_mem_uses (run : empty.Runs steps m) {s : Step} (hs : s ∈ steps) {k : Node}
    (hk : k ∈ s.batch.nodes) {used : Nat} (hused : used ∈ k.uses) :
    ∃ n, m.graph.node? (m.forest.rank (s.merged.slotOf k.id)) = some n
      ∧ m.forest.rank (s.merged.slotOf used) ∈ n.uses := by
  let number (localId : Nat) := m.forest.rank (s.merged.slotOf localId)
  have hbatch : (⟨k.id, used, .uses⟩ : Edge) ∈ s.batch.edges :=
    List.mem_flatMap.mpr ⟨k, hk, List.mem_append_left _ (List.mem_map.mpr ⟨used, hused, rfl⟩)⟩
  have hstep : (⟨number k.id, number used, .uses⟩ : Edge) ∈ Step.edges m.forest s :=
    Multiset.mem_add.mpr (Or.inl (Multiset.mem_map.mpr ⟨_, Multiset.mem_coe.mpr hbatch, rfl⟩))
  exact ((run.wellFormed wellFormed_empty).wellFormed_graph.mem_edges_iff).mp
    (run.mem_edges_iff.mpr ⟨s, hs, hstep⟩)

/-! ### The numbers of the slots -/

/-- The slots that are replaced by numbers when the graph is taken. -/
inductive Renumbered (m : Merger) : Nat → Prop
  | representative {rep : Nat} (hrep : rep ∈ m.forest.representatives) : Renumbered m rep
  | target {rep t : Nat} (hrep : rep ∈ m.forest.representatives) (ht : t ∈ (m.node rep).targets) :
      Renumbered m t
  | index {i : Identity} {slot : Nat} (hindexed : m.indexed? i = some slot) : Renumbered m slot

theorem WellFormed.lt_of_renumbered (h : m.WellFormed) {slot : Nat} (hslot : m.Renumbered slot) :
    slot < m.slots.size := by
  cases hslot with
  | representative hrep => exact h.lt_of_mem_representatives hrep
  | target _ ht => exact h.target_lt ht
  | index hindexed => exact h.indexed_lt hindexed

end Merger

/-- **Merging loses no edge, adds none and redirects none.** When accepted batches are merged one
after the other, the edges of the graph are those of the batches between the declarations that their
nodes were recognised as, and one edge from the root for each that a report counts. Every slot that
a node was given, and every slot that is replaced when the graph is taken, has a number in the table
of ranks. -/
theorem UseGraph.edges_ofBatches {bs : List Batch} (h : ∀ b ∈ bs, b.check = .ok ()) :
    ∃ steps m, steps.map Step.batch = bs ∧ Merger.empty.Runs steps m
      ∧ (UseGraph.ofBatches bs).result = .ok m.graph
      ∧ (m.graph.edges true : Multiset Edge) = (steps.map (Step.edges m.forest)).sum
      ∧ (∀ s ∈ steps, ∀ localId,
          m.HasNumber (s.merged.slotOf localId) (m.forest.rank (s.merged.slotOf localId)))
      ∧ ∀ slot, m.Renumbered slot → m.HasNumber slot (m.forest.rank slot) := by
  obtain ⟨steps, m, hsteps, run, hgraph⟩ := UseGraph.exists_run_ofBatches h
  have hm := run.wellFormed Merger.wellFormed_empty
  refine ⟨steps, m, hsteps, run, hgraph, ?_, ?_, ?_⟩
  · exact run.coe_edges_graph
  · intro s hs localId
    exact run.hasNumber hs localId
  · intro slot hslot
    exact hm.hasNumber (hm.lt_of_renumbered hslot)

/-- The edges of three batches, of which the last one joins two declarations that have edges
already. -/
theorem UseGraph.edges_bridged : (∀ b ∈ bridged, b.check = .ok ())
    ∧ ∃ steps m, steps.map Step.batch = bridged ∧ Merger.empty.Runs steps m
      ∧ (UseGraph.ofBatches bridged).result = .ok m.graph
      ∧ (m.graph.edges true : Multiset Edge) = (steps.map (Step.edges m.forest)).sum
      ∧ (∀ s ∈ steps, ∀ localId,
          m.HasNumber (s.merged.slotOf localId) (m.forest.rank (s.merged.slotOf localId)))
      ∧ ∀ slot, m.Renumbered slot → m.HasNumber slot (m.forest.rank slot) :=
  ⟨check_bridged, UseGraph.edges_ofBatches check_bridged⟩

end DeclExtract
