import DeclExtract.Proofs.Merge.Contents
import DeclExtract.Proofs.Merge.Recognisable
import DeclExtract.Proofs.Selection.Correspondence

/-!
# Merging a graph into the merger that it was taken from

The nodes of a graph can be merged like any batch, also into the merger that the graph was taken
from. The merger learns nothing from them: what a slot shows is enough to recognise it
(`Merger.Recognisable`), so each node is recognised, none of them joins two declarations, and
registering it for its declaration fills in nothing (`Recognisable.sameAs_sighted`). The first pass
over the batch leaves the merger as it was (`SameAs`), up to what can be seen of it.

The second pass adds the edges of the graph once more. If the merger has only seen batches without
ordinals, each node was recognised as its own declaration, and so every list of edges is there twice
(`Node.doubled`), which no selection depends on. With ordinals a node may have been recognised as an
anonymous root instead, and its edges go there.
-/

namespace DeclExtract

/-- Whether a node that is recognised in this way tells nothing of declarations: it belongs to one,
and joins no two. -/
def Recognition.isRepeat : Recognition → Bool
  | .both a b => a = b
  | .fresh => false
  | .root .. | .path _ | .position _ => true

/-- A repeated sighting adds no node, joins no declarations and adds no edge of the root. -/
theorem Recognition.count_of_isRepeat {r : Recognition} (h : r.isRepeat = true)
    (report : MergeReport) (n : Node) :
    (r.count report n).added = report.added ∧ (r.count report n).unified = report.unified
      ∧ (r.count report n).rootEdges = report.rootEdges := by
  cases r with
  | both a b =>
    have heq : a = b := of_decide_eq_true h
    exact ⟨rfl, if_pos heq, rfl⟩
  | fresh => cases h
  | root | path | position => exact ⟨rfl, rfl, rfl⟩

theorem foldl_count_of_isRepeat {xs : List Sighting} (h : ∀ x ∈ xs, x.recognition.isRepeat = true)
    (report : MergeReport) : (xs.foldl Sighting.count report).added = report.added
      ∧ (xs.foldl Sighting.count report).unified = report.unified
      ∧ (xs.foldl Sighting.count report).rootEdges = report.rootEdges := by
  induction xs generalizing report with
  | nil => exact ⟨rfl, rfl, rfl⟩
  | cons x xs ih =>
    obtain ⟨hadded, hunified, hroots⟩ :=
      ih (fun y hy ↦ h y (List.mem_cons_of_mem _ hy)) (x.count report)
    obtain ⟨hadded', hunified', hroots'⟩ :=
      Recognition.count_of_isRepeat (h x List.mem_cons_self) report x.node
    exact ⟨hadded.trans hadded', hunified.trans hunified', hroots.trans hroots'⟩

/-- The node with each of its edges listed twice. -/
def Node.doubled (n : Node) : Node :=
  { n with uses := n.uses ++ n.uses, owns := n.owns ++ n.owns }

theorem Node.mem_along_doubled {n : Node} {kind : EdgeKind} {t : Nat} :
    t ∈ n.doubled.along kind ↔ t ∈ n.along kind := by
  cases kind <;> simp [doubled, along]

namespace Merger

variable {m k : Merger} {n : Node} {rep slot : Nat} {reps : List Nat} {slotOf : Nat → Nat}

/-! ### Mergers that cannot be told apart -/

/-- **Two mergers have the same classes, the same index and the same slots.** -/
structure SameAs (k m : Merger) : Prop where
  forest_eq : k.forest = m.forest
  roots_eq : k.anonymousRoots = m.anonymousRoots
  size_eq : k.slots.size = m.slots.size
  node_eq : ∀ s, k.node s = m.node s
  indexed_eq : ∀ i, k.indexed? i = m.indexed? i

theorem SameAs.refl (m : Merger) : m.SameAs m :=
  ⟨rfl, rfl, rfl, fun _ ↦ rfl, fun _ ↦ rfl⟩

theorem SameAs.trans {l : Merger} (hkm : k.SameAs m) (hml : m.SameAs l) : k.SameAs l where
  forest_eq := hkm.forest_eq.trans hml.forest_eq
  roots_eq := hkm.roots_eq.trans hml.roots_eq
  size_eq := hkm.size_eq.trans hml.size_eq
  node_eq s := (hkm.node_eq s).trans (hml.node_eq s)
  indexed_eq i := (hkm.indexed_eq i).trans (hml.indexed_eq i)

theorem SameAs.unnumbered (h : k.SameAs m) (hm : m.Unnumbered) : k.Unnumbered := fun o s ho ↦ by
  rw [h.roots_eq]
  exact hm o s (h.node_eq s ▸ ho)

/-- A declaration is completed by nothing that it has already. -/
theorem complete_eq_self {known : Node} (h : known.path = known.stablePath)
    (hpath : n.stablePath.isSome = true → known.stablePath.isSome = true)
    (hcolumn : n.position.hasColumn = true → known.position.hasColumn = true)
    (htype : n.namedType.isSome = true → known.namedType.isSome = true) :
    complete known n = known := by
  have hkeptPath : (if known.stablePath.isSome then known.path else n.stablePath) = known.path := by
    split
    next => rfl
    next hnone =>
      rw [h, Option.not_isSome_iff_eq_none.mp hnone]
      exact Option.not_isSome_iff_eq_none.mp fun hsome ↦ hnone (hpath hsome)
  have hkeptPosition : (if known.position.hasColumn then known.position else
      if n.position.hasColumn then n.position else known.position) = known.position := by
    split
    next => rfl
    next hnone => exact if_neg fun hsome ↦ hnone (hcolumn hsome)
  have hkeptType : known.namedType.or n.namedType = known.namedType := by
    cases hknown : known.namedType with
    | some type => rfl
    | none =>
      refine Option.not_isSome_iff_eq_none.mp fun hsome ↦ ?_
      have hmissing := htype hsome
      rw [hknown] at hmissing
      cases hmissing
  calc complete known n
      = { known with
          path := if known.stablePath.isSome then known.path else n.stablePath
          position := if known.position.hasColumn then known.position else
            if n.position.hasColumn then n.position else known.position
          namedType := known.namedType.or n.namedType } := rfl
    _ = known := by rw [hkeptPath, hkeptPosition, hkeptType]

/-- Registering a node changes nothing if its identities are known and it completes nothing. -/
theorem sameAs_register_of_known (hlt : slot < m.slots.size)
    (hcomplete : complete (m.node slot) n = m.node slot)
    (hknown : ∀ i ∈ n.identities, m.known? i ≠ none) : (m.register n slot).SameAs m where
  forest_eq := rfl
  roots_eq := rfl
  size_eq := m.size_slots_register n slot
  node_eq s := by
    rw [node_register hlt]
    split
    next hs => rw [hs, hcomplete]
    next => rfl
  indexed_eq i := by
    rw [indexed?_register]
    split
    next hi =>
      obtain ⟨s, hs⟩ :=
        Option.ne_none_iff_exists'.mp fun hnone ↦ hknown i hi (known?_eq_none_iff.mpr hnone)
      rw [hs, Option.some_or]
    next => exact Option.or_none

/-! ### A node that a graph shows -/

/-- A node that shows what a representative shows. -/
def Shows (m : Merger) (rep : Nat) (n : Node) : Prop :=
  n = { m.node rep with id := n.id, uses := n.uses, owns := n.owns }

theorem shows_declaration (m : Merger) (rep : Nat) : m.Shows rep (m.declaration rep) := rfl

theorem SameAs.shows (h : k.SameAs m) (hn : m.Shows rep n) : k.Shows rep n := by
  rw [Shows, h.node_eq]
  exact hn

/-- An ordinal is asked for before anything else. -/
theorem recognise_of_ordinal {o : Nat} (hord : n.subgraph = some o)
    (hslot : m.atOrdinal? o = some slot) : m.recognise n = .root slot o := by
  rw [recognise, hord]
  simp [hslot]

namespace Recognisable

variable (h : m.Recognisable)

include h

/-- Registering a representative for itself changes nothing. -/
theorem sameAs_register (hself : m.forest.find rep = rep) (hlt : rep < m.slots.size)
    (hn : m.Shows rep n) : (m.register n rep).SameAs m := by
  refine sameAs_register_of_known hlt ?_ fun i hi ↦ ?_
  · rw [hn]
    exact complete_eq_self (h.path_eq rep) id id id
  · rw [h.known_eq hself (by rwa [hn] at hi)]
    exact Option.some_ne_none rep

/-- **What a representative shows leaves the merger as it is.** It is recognised as a repetition,
and as the representative itself unless it shows the ordinal of another one. -/
theorem sameAs_sighted (hm : m.WellFormed) (hrep : rep ∈ m.forest.representatives)
    (hn : m.Shows rep n) : (m.sighting n).recognition.isRepeat = true ∧ (m.sighted n).SameAs m
      ∧ (m.Unnumbered → (m.sighting n).slot = rep) := by
  have hself := (Forest.mem_representatives.mp hrep).2
  have hlt := hm.lt_of_mem_representatives hrep
  have hord : n.subgraph = (m.node rep).subgraph := by rw [hn]
  have hidentities : n.identities = (m.node rep).identities := by rw [hn]; rfl
  by_cases hroot : rep ∈ m.anonymousRoots
  · obtain ⟨o, ho⟩ := Array.mem_iff_getElem?.mp hroot
    have hrecognised :=
      recognise_of_ordinal (hord.trans (h.ordinal_eq ho)) ((hm.atOrdinal?_eq o).trans ho)
    rw [sighting, sighted, hrecognised]
    exact ⟨rfl, SameAs.refl m, fun _ ↦ rfl⟩
  -- all candidates are the representative, and there are some
  have hcandidate {c : Nat} (hc : c ∈ m.candidates n) : c = rep := by
    obtain ⟨i, hi, hknown⟩ := mem_candidates.mp hc
    rw [h.known_eq hself (hidentities ▸ hi), Option.some_inj] at hknown
    exact hknown.symm
  have hr := m.recognises n
  rw [sighting, sighted]
  generalize m.recognise n = r at hr ⊢
  cases hr with
  | @root slot o hord' hslot =>
    refine ⟨rfl, SameAs.refl m, fun hunnumbered ↦ ?_⟩
    exact absurd (Array.mem_of_getElem? (hunnumbered o rep (hord ▸ hord'))) hroot
  | @both a b hcand =>
    obtain rfl : a = rep := hcandidate (by simp [hcand])
    obtain rfl : b = a := hcandidate (by simp [hcand])
    rw [Merger.settleAs, if_pos rfl]
    exact ⟨decide_eq_true rfl, SameAs.refl m, fun _ ↦ rfl⟩
  | @path a hcand =>
    obtain rfl : a = rep := hcandidate (by simp [hcand])
    exact ⟨rfl, h.sameAs_register hself hlt hn, fun _ ↦ rfl⟩
  | @position a hcand =>
    obtain rfl : a = rep := hcandidate (by simp [hcand])
    exact ⟨rfl, h.sameAs_register hself hlt hn, fun _ ↦ rfl⟩
  | fresh hcand =>
    obtain ⟨i, hi⟩ := Node.exists_identity ((h.root_or hlt hself).resolve_left hroot)
    have hmem : rep ∈ m.candidates n :=
      mem_candidates.mpr ⟨i, hidentities ▸ hi, h.known_eq hself hi⟩
    rw [hcand] at hmem
    cases hmem

end Recognisable

/-- **The first pass over what representatives show leaves the merger as it is.** -/
theorem sameAs_foldl_sighted (hsame : k.SameAs m) (hk : k.WellFormed) (h : k.Recognisable)
    (hreps : ∀ rep ∈ reps, rep ∈ m.forest.representatives) :
    (∀ x ∈ k.sightings (reps.map m.declaration), x.recognition.isRepeat = true)
      ∧ ((reps.map m.declaration).foldl sighted k).SameAs m
      ∧ (m.Unnumbered → (k.sightings (reps.map m.declaration)).map Sighting.slot = reps) := by
  induction reps generalizing k with
  | nil => exact ⟨fun x hx ↦ (nomatch hx), hsame, fun _ ↦ rfl⟩
  | cons rep reps ih =>
    obtain ⟨hrepeat, hfirst, hslot⟩ := h.sameAs_sighted hk
      (hsame.forest_eq ▸ hreps rep List.mem_cons_self) (hsame.shows (m.shows_declaration rep))
    obtain ⟨hrepeats, hrest, hslots⟩ := ih (hfirst.trans hsame) (hk.sighted _)
      (h.settleAs hk (k.recognises _)) fun other hother ↦
        hreps other (List.mem_cons_of_mem _ hother)
    refine ⟨fun x hx ↦ ?_, hrest, fun hunnumbered ↦ ?_⟩
    · rcases List.mem_cons.mp hx with rfl | hx
      · exact hrepeat
      · exact hrepeats x hx
    · rw [List.map_cons, sightings, List.map_cons, hslot (hsame.unnumbered hunnumbered),
        hslots hunnumbered]

/-! ### The second pass -/

/-- **Each representative gains the edges of its own node** in the second pass. -/
theorem node_connectAll {nodeOf : Nat → Node} (hnodup : reps.Nodup)
    (hreps : ∀ rep ∈ reps, rep < m.slots.size ∧ m.forest.find (slotOf (nodeOf rep).id) = rep)
    (s : Nat) : (m.connectAll slotOf (reps.map nodeOf)).node s
      = if s ∈ reps then
          { m.node s with
            uses := (m.node s).uses ++ (nodeOf s).uses.map slotOf
            owns := (m.node s).owns ++ (nodeOf s).owns.map slotOf }
        else m.node s := by
  -- the nodes whose edges go to the slot
  have hsources : (reps.map nodeOf).filter (fun n ↦ m.forest.find (slotOf n.id) = s)
      = (reps.filter (· = s)).map nodeOf := by
    rw [List.filter_map]
    refine congrArg (List.map nodeOf) (List.filter_congr fun rep hrep ↦ ?_)
    rw [Function.comp_apply, (hreps rep hrep).2]
  have hlt : ∀ n ∈ reps.map nodeOf, m.forest.find (slotOf n.id) < m.slots.size := by
    intro n hn
    obtain ⟨rep, hrep, rfl⟩ := List.mem_map.mp hn
    rw [(hreps rep hrep).2]
    exact (hreps rep hrep).1
  rw [node_connectAll_eq hlt, hsources]
  split
  next hs =>
    rw [List.filter_eq, List.count_eq_one_of_mem hnodup hs]
    simp
  next hs =>
    have hnone : reps.filter (· = s) = [] := List.filter_eq_nil_iff.mpr fun rep hrep heq ↦
      hs (of_decide_eq_true heq ▸ hrep)
    rw [hnone]
    simp

/-! ### The graph as a batch -/

theorem getElem?_toBatch (g : UseGraph) (index : Nat) : g.toBatch.nodes[index]? = g.node? index :=
  Array.getElem?_toList

theorem node?_of_mem_toBatch {g : UseGraph} (hg : g.WellFormed) (hn : n ∈ g.toBatch.nodes) :
    g.node? n.id = some n := by
  obtain ⟨index, hindex⟩ := List.mem_iff_getElem?.mp hn
  rw [getElem?_toBatch] at hindex
  rw [hg.id_eq hindex, hindex]

theorem WellFormed.nodes_toBatch (hm : m.WellFormed) :
    m.graph.toBatch.nodes = m.forest.representatives.map m.declaration := by
  rw [UseGraph.toBatch, hm.nodes_graph]

namespace Recognisable

variable (h : m.Recognisable) (hm : m.WellFormed)

include h hm

/-- **A graph is accepted as a batch**: what shows no identity shows an ordinal. -/
theorem accepted_toBatch : m.graph.toBatch.Accepted where
  id_eq {index n} hn := hm.wellFormed_graph.id_eq (getElem?_toBatch m.graph index ▸ hn)
  target_lt {n t} hn ht :=
    hm.wellFormed_graph.target_lt (node?_of_mem_toBatch hm.wellFormed_graph hn) ht
  id_eq_zero {n} hn hnone hord := by
    rw [hm.nodes_toBatch] at hn
    obtain ⟨rep, hrep, rfl⟩ := List.mem_map.mp hn
    have hidentity : (m.node rep).hasIdentity = false := hnone
    rcases h.root_or (hm.lt_of_mem_representatives hrep) (Forest.mem_representatives.mp hrep).2
      with hroot | hsome
    · obtain ⟨o, ho⟩ := Array.mem_iff_getElem?.mp hroot
      have hshown : (m.node rep).subgraph = none := hord
      rw [h.ordinal_eq ho] at hshown
      cases hshown
    · rw [hidentity] at hsome
      cases hsome

/-- The first pass over a graph leaves the merger that it was taken from as it is. -/
theorem sameAs_foldl_toBatch :
    (∀ x ∈ m.sightings m.graph.toBatch.nodes, x.recognition.isRepeat = true)
      ∧ (m.graph.toBatch.nodes.foldl sighted m).SameAs m
      ∧ (m.Unnumbered →
        (m.sightings m.graph.toBatch.nodes).map Sighting.slot = m.forest.representatives) := by
  rw [hm.nodes_toBatch]
  exact sameAs_foldl_sighted (SameAs.refl m) hm h fun rep hrep ↦ hrep

theorem forest_remerged : (m.mergeSound m.graph.toBatch).merger.forest = m.forest := by
  rw [forest_mergeSound]
  exact (h.sameAs_foldl_toBatch hm).2.1.forest_eq

/-- **A graph is absorbed by the merger that it was taken from**: nothing is looked up elsewhere. -/
theorem lookup_remerged (i : Identity) :
    (m.mergeSound m.graph.toBatch).merger.graph.lookup i = m.graph.lookup i := by
  have hindexed : (m.mergeSound m.graph.toBatch).merger.indexed? i = m.indexed? i := by
    rw [merger_mergeSound, indexed?_connectAll]
    exact (h.sameAs_foldl_toBatch hm).2.1.indexed_eq i
  rw [(hm.mergeSound _).lookup_graph, hm.lookup_graph, hindexed, h.forest_remerged hm]

/-- Without ordinals a node of the graph is recognised as its own declaration. -/
theorem slotOf_remerged (hunnumbered : m.Unnumbered) (hslot : slot < m.slots.size) :
    (m.mergeSound m.graph.toBatch).slotOf (m.forest.rank slot) = m.forest.find slot := by
  rw [Merged.slotOf, placed_mergeSound, (h.sameAs_foldl_toBatch hm).2.2 hunnumbered,
    List.getElem?_toArray, Forest.getElem?_representatives_rank (hm.size_forest ▸ hslot),
    Option.getD_some]

/-- **Each declaration is there with its edges doubled.** -/
theorem declaration_remerged (hunnumbered : m.Unnumbered) (hrep : rep ∈ m.forest.representatives) :
    (m.mergeSound m.graph.toBatch).merger.declaration rep = (m.declaration rep).doubled := by
  obtain ⟨-, hsame, -⟩ := h.sameAs_foldl_toBatch hm
  have hforest := h.forest_remerged hm
  -- the second half of a list of edges is that of the first pass, brought to representatives
  have hmap {ts : List Nat} (hts : ∀ t ∈ ts, t < m.slots.size) :
      (ts ++ (ts.map m.forest.rank).map (m.mergeSound m.graph.toBatch).slotOf).map m.forest.rank
        = ts.map m.forest.rank ++ ts.map m.forest.rank := by
    rw [List.map_append, List.map_map, List.map_map]
    refine congrArg _ (List.map_congr_left fun t ht ↦ ?_)
    rw [Function.comp_apply, Function.comp_apply, h.slotOf_remerged hm hunnumbered (hts t ht),
      Forest.rank_find]
  have hreps : ∀ other ∈ m.forest.representatives,
      other < (m.graph.toBatch.nodes.foldl sighted m).slots.size
        ∧ (m.graph.toBatch.nodes.foldl sighted m).forest.find
          ((m.mergeSound m.graph.toBatch).slotOf (m.declaration other).id) = other := by
    intro other hother
    have hlt := hm.lt_of_mem_representatives hother
    have hself := (Forest.mem_representatives.mp hother).2
    refine ⟨hsame.size_eq ▸ hlt, ?_⟩
    rw [hsame.forest_eq, show (m.declaration other).id = m.forest.rank other from rfl,
      h.slotOf_remerged hm hunnumbered hlt, hself, hself]
  have hnode : (m.mergeSound m.graph.toBatch).merger.node rep
      = { m.node rep with
          uses := (m.node rep).uses
            ++ ((m.node rep).uses.map m.forest.rank).map (m.mergeSound m.graph.toBatch).slotOf
          owns := (m.node rep).owns
            ++ ((m.node rep).owns.map m.forest.rank).map
            (m.mergeSound m.graph.toBatch).slotOf } := by
    have hconnected := node_connectAll m.forest.nodup_representatives hreps rep
    rw [if_pos hrep, hsame.node_eq, ← hm.nodes_toBatch, ← merger_mergeSound] at hconnected
    exact hconnected
  rw [declaration, hnode, hforest]
  dsimp only
  rw [hmap fun t ht ↦ hm.target_lt (List.mem_append_left _ ht),
    hmap fun t ht ↦ hm.target_lt (List.mem_append_right _ ht)]
  rfl

theorem node?_remerged (hunnumbered : m.Unnumbered) (id : Nat) :
    (m.mergeSound m.graph.toBatch).merger.graph.node? id = (m.graph.node? id).map Node.doubled := by
  rw [(hm.mergeSound _).node?_graph, hm.node?_graph, h.forest_remerged hm, Option.map_map]
  exact Option.map_congr fun rep hrep ↦ h.declaration_remerged hm hunnumbered
    (List.mem_of_getElem? hrep)

/-- Doubled edges make no other graph, as far as selections are concerned. -/
theorem resembles_remerged (hunnumbered : m.Unnumbered) :
    m.graph.Resembles (m.mergeSound m.graph.toBatch).merger.graph where
  size_eq := by rw [hm.size_graph, (hm.mergeSound _).size_graph, h.forest_remerged hm]
  lookup_eq i := (h.lookup_remerged hm i).symm
  node {id n} hn := by
    refine ⟨n.doubled, ?_, ⟨⟨rfl, rfl, rfl⟩, rfl⟩, rfl, fun kind t ↦ Node.mem_along_doubled.symm⟩
    rw [h.node?_remerged hm hunnumbered, hn, Option.map_some]

end Recognisable

/-- **Merging the graph of a merger into the merger tells it nothing.** After any sequence of
accepted batches the merge succeeds; it adds no node, joins no declarations and adds no edge of the
root; the number of declarations stays as it is, and so does what identities are looked up to. If
none of the batches has an ordinal, each node of the new graph is that of the old one with its edges
listed twice, and all selections are the same. -/
theorem merge_graph_toBatch {bs : List Batch}
    (hmerged : (Merger.empty.mergeAll bs).result = .ok m) :
    ∃ merged, m.merge m.graph.toBatch = .ok merged
      ∧ merged.report.added = 0 ∧ merged.report.unified = 0 ∧ merged.report.rootEdges = 0
      ∧ merged.merger.size = m.size
      ∧ (∀ i, merged.merger.graph.lookup i = m.graph.lookup i)
      ∧ ((∀ b ∈ bs, ∀ n ∈ b.nodes, n.subgraph = none) →
        (∀ id, merged.merger.graph.node? id = (m.graph.node? id).map Node.doubled)
          ∧ ∀ t, merged.merger.graph.select t = m.graph.select t) := by
  obtain ⟨steps, rfl, run⟩ := mergeAll_eq_ok_iff.mp hmerged
  have hm := run.wellFormed wellFormed_empty
  have h := run.recognisable
  obtain ⟨hrepeats, -, -⟩ := h.sameAs_foldl_toBatch hm
  obtain ⟨hadded, hunified, hroots⟩ := foldl_count_of_isRepeat hrepeats {}
  rw [← report_mergeSound] at hadded hunified hroots
  refine ⟨m.mergeSound m.graph.toBatch, merge_eq_ok_iff.mpr ⟨h.accepted_toBatch hm, rfl⟩,
    hadded, hunified, hroots, ?_, h.lookup_remerged hm, fun hord ↦ ?_⟩
  · rw [size, size, h.forest_remerged hm]
  · have hunnumbered := run.unnumbered fun s hs ↦ hord _ (List.mem_map_of_mem hs)
    have hrooted := hm.rooted_graph (run.describes wellFormed_empty describes_empty)
    exact ⟨h.node?_remerged hm hunnumbered, fun t ↦
      ((h.resembles_remerged hm hunnumbered).select_eq hm.wellFormed_graph
        (hm.mergeSound _).wellFormed_graph hrooted t).symm⟩

/-- The graph of three batches, of which the last one joins two declarations, is absorbed. -/
theorem merge_graph_toBatch_bridged : ∃ m, (Merger.empty.mergeAll bridged).result = .ok m
    ∧ ∃ merged, m.merge m.graph.toBatch = .ok merged
      ∧ merged.report.added = 0 ∧ merged.report.unified = 0 ∧ merged.report.rootEdges = 0
      ∧ merged.merger.size = m.size
      ∧ (∀ i, merged.merger.graph.lookup i = m.graph.lookup i)
      ∧ (∀ id, merged.merger.graph.node? id = (m.graph.node? id).map Node.doubled)
      ∧ ∀ t, merged.merger.graph.select t = m.graph.select t := by
  obtain ⟨steps, m, hsteps, run, -⟩ := UseGraph.exists_run_ofBatches check_bridged
  have hresult := mergeAll_eq_ok_iff.mpr ⟨steps, hsteps, run⟩
  obtain ⟨merged, hmerge, hadded, hunified, hroots, hsize, hlookup, hrest⟩ :=
    merge_graph_toBatch hresult
  obtain ⟨hnodes, hselect⟩ := hrest (by decide)
  exact ⟨m, hresult, merged, hmerge, hadded, hunified, hroots, hsize, hlookup, hnodes, hselect⟩

end Merger

end DeclExtract
