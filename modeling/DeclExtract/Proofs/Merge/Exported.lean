import DeclExtract.Proofs.Selection.Rebuilt

/-!
# Batches that are graphs already

The nodes of a finished graph are a batch, and a batch may be such a list of nodes to begin with:
its root is that of a graph, no two of its nodes share an identity, and ordinals stand for want of
an identity only (`Batch.Exported`). It is then its own graph. Merged by itself it gives a graph
with the same nodes at the same places, in which an identity is looked up to the node that shows it
(`Batch.Exported.exists_graph`).

Whether a batch is like that can be decided, and what it comes to is then read off its nodes: which
sets of ids are closed in the graph (`Batch.Exported.closed`) and, where no named types are around,
the whole selection (`Batch.Exported.select_eq`).
-/

namespace DeclExtract

open UseGraph

/-- The nodes of a batch as a graph in which nothing is looked up. -/
def Batch.toGraph (b : Batch) : UseGraph :=
  ⟨b.nodes.toArray, ∅, ∅⟩

/-- **A batch that could be the nodes of a graph.** -/
structure Batch.Exported (b : Batch) : Prop extends b.Accepted where
  /-- The first node is the root of a graph. -/
  root : b.nodes.head?.map Node.unlinked = some Merger.graphRoot
  /-- A node shows no path that could not tell declarations apart. -/
  path_eq : ∀ n ∈ b.nodes, n.path = n.stablePath
  /-- A node shows an ordinal just for want of an identity, and that is the one which comes next. -/
  subgraph_eq : ∀ n ∈ b.nodes,
    n.subgraph = if n.hasIdentity then none else some (b.toGraph.anonymousBefore n.id)
  /-- No two nodes show one identity. -/
  pairwise : b.nodes.Pairwise fun n k ↦ ∀ i ∈ n.identities, i ∉ k.identities

namespace Batch

variable {b : Batch} {id : Nat} {n : Node} {i : Identity}

instance : Decidable b.Exported :=
  decidable_of_iff
    (b.check = .ok () ∧ b.nodes.head?.map Node.unlinked = some Merger.graphRoot
      ∧ (∀ n ∈ b.nodes, n.path = n.stablePath)
      ∧ (∀ n ∈ b.nodes,
        n.subgraph = if n.hasIdentity then none else some (b.toGraph.anonymousBefore n.id))
      ∧ b.nodes.Pairwise fun n k ↦ ∀ i ∈ n.identities, i ∉ k.identities)
    ⟨fun ⟨hcheck, hroot, hpath, hsubgraph, hpairwise⟩ ↦
      ⟨check_eq_ok_iff.mp hcheck, hroot, hpath, hsubgraph, hpairwise⟩,
      fun h ↦ ⟨check_eq_ok_iff.mpr h.toAccepted, h.root, h.path_eq, h.subgraph_eq, h.pairwise⟩⟩

theorem node?_toGraph (b : Batch) (id : Nat) : b.toGraph.node? id = b.nodes[id]? :=
  List.getElem?_toArray

theorem lookup_toGraph (b : Batch) (i : Identity) : b.toGraph.lookup i = none := by
  cases i <;> simp [toGraph, UseGraph.lookup]

/-- The graph of such a batch can be rebuilt from its nodes. -/
theorem Exported.rebuildable (h : b.Exported) : b.toGraph.Rebuildable where
  id_eq hn := h.id_eq (b.node?_toGraph _ ▸ hn)
  target_lt hn ht := h.target_lt (List.mem_of_getElem? (b.node?_toGraph _ ▸ hn)) ht
  lookup_lt hlookup := by
    rw [lookup_toGraph] at hlookup
    cases hlookup
  exists_root := by
    rw [node?_toGraph, ← List.head?_eq_getElem?]
    exact Option.map_eq_some_iff.mp h.root
  path_eq hn := h.path_eq _ (List.mem_of_getElem? (b.node?_toGraph _ ▸ hn))
  subgraph_eq {id n} hn := by
    rw [node?_toGraph] at hn
    rw [h.subgraph_eq n (List.mem_of_getElem? hn), h.id_eq hn]
  eq_of_shared {id id' n n' i} hn hn' hi hi' := by
    rw [node?_toGraph] at hn hn'
    obtain ⟨hlt, rfl⟩ := List.getElem?_eq_some_iff.mp hn
    obtain ⟨hlt', rfl⟩ := List.getElem?_eq_some_iff.mp hn'
    have hapart := List.pairwise_iff_getElem.mp h.pairwise
    rcases Nat.lt_trichotomy id id' with hless | heq | hless
    · exact absurd hi' (hapart id id' hlt hlt' hless i hi)
    · exact heq
    · exact absurd hi (hapart id' id hlt' hlt hless i hi')

/-- **Such a batch is its own graph.** -/
theorem Exported.exists_graph (h : b.Exported) : ∃ g, (ofBatches [b]).result = .ok g
    ∧ (∀ id, g.node? id = b.nodes[id]?)
    ∧ ∀ i id, g.lookup i = some id ↔ ∃ n, b.nodes[id]? = some n ∧ i ∈ n.identities := by
  have hg := h.rebuildable
  have hbatch : b.toGraph.toBatch = b := rfl
  have hmerge : Merger.empty.merge b = .ok (Merger.empty.mergeSound b) :=
    Merger.merge_eq_ok_iff.mpr ⟨h.toAccepted, rfl⟩
  refine ⟨_, ofBatches_eq_ok_iff.mpr ⟨_, _, rfl, .cons hmerge (.nil _), rfl⟩, fun id ↦ ?_,
    fun i id ↦ ?_⟩
  · rw [← b.node?_toGraph, node?, node?, ← hg.nodes_rebuilt, hbatch]
  · rw [← b.node?_toGraph, ← hg.lookup_rebuilt, hbatch]

/-! ### Selections in such a graph -/

/-- A node takes another one along: its named type lists it under an identity that it shows, it is a
method that the node contains, or it is used and does not stay behind the boundary. -/
def Takes (t : Targets) (n k : Node) : Prop :=
  (∃ i ∈ (n.namedType.map NamedType.methods).getD [], i ∈ k.identities)
    ∨ (n.kind = .type ∧ k.id ∈ n.owns ∧ k.kind = .method)
    ∨ (k.id ∈ n.uses ∧ k.kind ≠ .root ∧ (k.exported = false ∨ k.name ∈ t.names))

instance {t : Targets} {n k : Node} : Decidable (Takes t n k) :=
  inferInstanceAs (Decidable (_ ∨ _ ∨ _))

/-- Ids that hold the nodes which targets name and all that their nodes take along. -/
structure Covers (b : Batch) (t : Targets) (ids : List Nat) : Prop where
  target : ∀ n ∈ b.nodes, n.kind ≠ .root → n.name ∈ t.names → n.id ∈ ids
  takes : ∀ n ∈ b.nodes, n.id ∈ ids → ∀ k ∈ b.nodes, Takes t n k → k.id ∈ ids

instance {t : Targets} {ids : List Nat} : Decidable (b.Covers t ids) :=
  decidable_of_iff
    ((∀ n ∈ b.nodes, n.kind ≠ .root → n.name ∈ t.names → n.id ∈ ids)
      ∧ ∀ n ∈ b.nodes, n.id ∈ ids → ∀ k ∈ b.nodes, Takes t n k → k.id ∈ ids)
    ⟨fun ⟨htarget, htakes⟩ ↦ ⟨htarget, htakes⟩, fun h ↦ ⟨h.target, h.takes⟩⟩

section

variable {g : UseGraph} {t : Targets} (h : b.Exported) (hnodes : ∀ id, g.node? id = b.nodes[id]?)

include h hnodes

/-- What covers the batch is closed in its graph. -/
theorem Exported.closed {ids : List Nat}
    (hlookup : ∀ i id, g.lookup i = some id ↔ ∃ n, b.nodes[id]? = some n ∧ i ∈ n.identities)
    (hcovers : b.Covers t ids) : g.Closed t {id | id ∈ ids} := by
  have hnode {id : Nat} {n : Node} (hn : g.node? id = some n) : n ∈ b.nodes ∧ n.id = id := by
    rw [hnodes] at hn
    exact ⟨List.mem_of_getElem? hn, h.id_eq hn⟩
  refine ⟨fun {id n} hn hkind hname ↦ ?_, fun {id other} hid hmethod ↦ ?_,
    fun {id n other k} hid hn hused hk hkind hside ↦ ?_⟩
  · obtain ⟨hmem, rfl⟩ := hnode hn
    exact hcovers.target n hmem hkind hname
  · obtain ⟨n, hn, ⟨type, htype, i, hi, hfound⟩ | ⟨hkind, howns, k, hk, hkmethod⟩⟩ :=
      mem_methods.mp hmethod
    all_goals obtain ⟨hmem, rfl⟩ := hnode hn
    · obtain ⟨k, hk, hshown⟩ := (hlookup i other).mp hfound
      obtain rfl := h.id_eq hk
      exact hcovers.takes n hmem hid k (List.mem_of_getElem? hk)
        (.inl ⟨i, by simpa [htype], hshown⟩)
    · obtain ⟨hkmem, rfl⟩ := hnode hk
      exact hcovers.takes n hmem hid k hkmem (.inr (.inl ⟨hkind, howns, hkmethod⟩))
  · obtain ⟨hmem, rfl⟩ := hnode hn
    obtain ⟨hkmem, rfl⟩ := hnode hk
    exact hcovers.takes n hmem hid k hkmem (.inr (.inr ⟨hused, hkind, hside⟩))

/-- **Without named types nothing has to be looked up**, so a selection can be computed from the
nodes alone. -/
theorem Exported.select_eq (hg : g.WellFormed) (huntyped : ∀ n ∈ b.nodes, n.namedType = none)
    (t : Targets) : g.select t = b.toGraph.select t := by
  have hnarrows : b.toGraph.Narrows g := by
    refine ⟨Array.ext_getElem? fun id ↦ ?_, fun {i id} hlookup ↦ ?_⟩
    · exact (b.node?_toGraph id).trans (hnodes id).symm
    · rw [lookup_toGraph] at hlookup
      cases hlookup
  refine (hnarrows.select_eq_of_lookup h.rebuildable.toWellFormed hg t ?_).symm
  intro id _ n type i other hn htype
  rw [huntyped n (List.mem_of_getElem? (hnodes id ▸ hn))] at htype
  cases htype

end

/-! ### A named type and its method -/

/-- A variable with a named type that lists a method by its path. -/
def listingVariable : Node where
  id := 1
  name := "v"
  exported := false
  kind := .var
  path := some ⟨"pkg", "v"⟩
  namedType := some ⟨"T", [.path ⟨"pkg", "T.M"⟩]⟩

/-- The method. -/
def listedMethod : Node where
  id := 2
  name := "M"
  exported := true
  kind := .method
  path := some ⟨"pkg", "T.M"⟩
  position := { file := "m.go", line := 5, column := some 13 }

/-- A function that has nothing to do with them. -/
def strayFunction : Node where
  id := 3
  name := "f"
  exported := false
  kind := .function
  position := { file := "f.go", line := 9, column := some 6 }

/-- A batch with the three. -/
def listing : Batch :=
  ⟨[Merger.graphRoot, listingVariable, listedMethod, strayFunction]⟩

theorem exported_listing : listing.Exported := by
  decide

/-- The method is copied with the variable that lists it, and the function is left out. -/
theorem select_listing {g : UseGraph} (hg : g.WellFormed)
    (hnodes : ∀ id, g.node? id = listing.nodes[id]?)
    (hlookup : ∀ i id, g.lookup i = some id ↔
      ∃ n, listing.nodes[id]? = some n ∧ i ∈ n.identities) :
    g.Lists 1 2 ∧ (g.select movedTargets).seen = [1, 2] := by
  have hleast := hg.isLeast_seen movedTargets
  have hnode : g.node? 1 = some listingVariable := hnodes 1
  have hmethod : g.lookup (.path ⟨"pkg", "T.M"⟩) = some 2 :=
    (hlookup _ 2).mpr ⟨listedMethod, rfl, by decide⟩
  have hlists : g.Lists 1 2 := ⟨_, _, hnode, rfl, _, List.mem_singleton_self _, hmethod⟩
  have hvariable : 1 ∈ (g.select movedTargets).seen :=
    hleast.1.target hnode (by decide) (by decide)
  refine ⟨hlists, (g.pairwise_seen movedTargets).eq_of_mem_iff (by decide) fun id ↦
    ⟨fun hid ↦ ?_, ?_⟩⟩
  · exact hleast.2 (exported_listing.closed hnodes hlookup (by decide)) hid
  · intro hid
    obtain rfl | rfl : id = 1 ∨ id = 2 := by simpa using hid
    · exact hvariable
    · exact hleast.1.method hvariable hlists.mem_methods

end Batch

end DeclExtract
