import DeclExtract.Proofs.Merge.Origin
import DeclExtract.Proofs.Merge.Rebuild
import DeclExtract.Proofs.Merge.Reordering
import DeclExtract.Proofs.Selection.Narrowing

/-!
# Selections in a rebuilt graph

A graph knows every identity under which a declaration was seen, and a node shows at most one path
and one position. So a graph that is rebuilt from the nodes of another one has the same nodes, and
knows of the identities just those that are shown (`Rebuildable.lookup_rebuilt`): it narrows the
first graph.

What a selection in the rebuilt graph may miss is a method that a named type refers to by another
identity, such as the place that the method was moved to (`select_moved_ne`). Where copied nodes
refer to methods as these show themselves, the selections are the same.
-/

namespace DeclExtract

namespace UseGraph

open Merger

variable {g rebuilt : UseGraph} {id other : Nat} {i : Identity} {n : Node} {t : Targets}

/-! ### What a rebuilt graph knows -/

/-- **A rebuilt graph looks up what its nodes show**, and nothing else. -/
theorem Rebuildable.lookup_rebuilt (hg : g.Rebuildable) :
    (Merger.empty.mergeSound g.toBatch).merger.graph.lookup i = some id
      ↔ ∃ n, g.node? id = some n ∧ i ∈ n.identities := by
  have hm := wellFormed_empty.mergeSound g.toBatch
  obtain ⟨hfirst, -⟩ := rebuilds_foldl_sighted hg
  constructor
  · intro hlookup
    rw [hm.lookup_graph, merger_mergeSound, indexed?_connectAll] at hlookup
    obtain ⟨slot, hindexed, hrank⟩ := Option.map_eq_some_iff.mp hlookup
    obtain ⟨hlt, n, hn, hi⟩ := hfirst.exists_carrier hindexed
    rw [← merger_mergeSound, hg.rank_merged hlt] at hrank
    exact ⟨n, hrank ▸ hn, hi⟩
  · rintro ⟨n, hn, hi⟩
    have hmerge : Merger.empty.merge g.toBatch = .ok (Merger.empty.mergeSound g.toBatch) :=
      merge_eq_ok_iff.mpr ⟨hg.accepted, rfl⟩
    have run := Runs.cons hmerge (.nil _)
    refine hm.lookup_of_mem_identities run.recognisable ?_ hi
    rw [node?, hg.nodes_rebuilt]
    exact hn

/-- Every identity by which a node refers to a method is shown by the node of the method, if there
is one. -/
def RefersAsShown (g : UseGraph) (n : Node) : Prop :=
  ∀ type, n.namedType = some type → ∀ i ∈ type.methods, ∀ other, g.lookup i = some other →
    ∃ k, g.node? other = some k ∧ i ∈ k.identities

/-- A graph with the same nodes that knows just the identities that are shown. -/
structure RebuiltFrom (rebuilt g : UseGraph) : Prop where
  nodes_eq : rebuilt.nodes = g.nodes
  lookup_iff : ∀ i id, rebuilt.lookup i = some id ↔
    g.lookup i = some id ∧ ∃ n, g.node? id = some n ∧ i ∈ n.identities

/-- A rebuilt graph narrows the graph that it was rebuilt from. -/
theorem RebuiltFrom.narrows (h : rebuilt.RebuiltFrom g) : rebuilt.Narrows g where
  nodes_eq := h.nodes_eq
  lookup_of_lookup hlookup := ((h.lookup_iff _ _).mp hlookup).1

/-- What a node does not show, the rebuilt graph does not look up to it, nor to any other one. -/
theorem RebuiltFrom.lookup_eq_none (h : rebuilt.RebuiltFrom g) (hlookup : g.lookup i = some id)
    (hn : g.node? id = some n) (hi : i ∉ n.identities) : rebuilt.lookup i = none := by
  refine Option.eq_none_iff_forall_ne_some.mpr fun other hother ↦ hi ?_
  obtain ⟨hsame, k, hk, hshown⟩ := (h.lookup_iff _ _).mp hother
  obtain rfl : id = other := Option.some.inj (hlookup.symm.trans hsame)
  obtain rfl : n = k := Option.some.inj (hn.symm.trans hk)
  exact hshown

end UseGraph

/-- **The graph of a run is rebuilt** from its nodes, apart from the identities that are not
shown. -/
theorem Merger.Runs.rebuilds {m : Merger} {steps : List Step} (run : Merger.empty.Runs steps m)
    (hord : ∀ s ∈ steps, ∀ n ∈ s.batch.nodes, n.subgraph = none) :
    ∃ rebuilt, (UseGraph.ofBatches [m.graph.toBatch]).result = .ok rebuilt
      ∧ rebuilt.RebuiltFrom m.graph := by
  have hg := run.rebuildable hord
  have hmerge :
      Merger.empty.merge m.graph.toBatch = .ok (Merger.empty.mergeSound m.graph.toBatch) :=
    merge_eq_ok_iff.mpr ⟨hg.accepted, rfl⟩
  refine ⟨_, UseGraph.ofBatches_eq_ok_iff.mpr ⟨_, _, rfl, .cons hmerge (.nil _), rfl⟩,
    hg.nodes_rebuilt, fun i id ↦ ?_⟩
  rw [hg.lookup_rebuilt]
  refine ⟨fun hshown ↦ ⟨?_, hshown⟩, fun h ↦ h.2⟩
  obtain ⟨n, hn, hi⟩ := hshown
  exact (run.wellFormed wellFormed_empty).lookup_of_mem_identities run.recognisable hn hi

/-- **Where all nodes of one name show the identity by which a method of that name is listed**,
nodes refer to methods as these show themselves: a declaration shows what its first sighting
showed. -/
theorem Merger.Runs.refersAsShown {m : Merger} {steps : List Step}
    (run : Merger.empty.Runs steps m) (hord : ∀ s ∈ steps, ∀ n ∈ s.batch.nodes, n.subgraph = none)
    (hagree : Unanimous ((steps.map Step.batch).flatMap Batch.nodes))
    (hshown : ∀ n ∈ (steps.map Step.batch).flatMap Batch.nodes,
      ∀ i ∈ (n.namedType.map NamedType.methods).getD [],
      ∀ k ∈ (steps.map Step.batch).flatMap Batch.nodes, i ∈ k.identities →
      ∀ k' ∈ (steps.map Step.batch).flatMap Batch.nodes, k'.name = k.name → i ∈ k'.identities)
    {id : Nat} {n : Node} (hn : m.graph.node? id = some n) : m.graph.RefersAsShown n := by
  have hcollects := run.collects hord hagree
  have hm := hcollects.wellFormed
  have hmem {x : Sighting} (hx : x ∈ steps.flatMap Step.sightings) :
      x.node ∈ (steps.map Step.batch).flatMap Batch.nodes := by
    rw [← map_node_flatMap_sightings]
    exact List.mem_map_of_mem hx
  intro type htype i hi other hlookup
  -- the named type is that of a sighting
  obtain ⟨x, hx, hxtype⟩ : ∃ x ∈ steps.flatMap Step.sightings, x.node.namedType = some type := by
    rcases hcollects.exists_sighting (UseGraph.lt_size_of_node? hn) with rfl | ⟨x, hx, rfl⟩
    · obtain ⟨root, hroot, hagrees⟩ := hcollects.exists_agrees_root
      obtain rfl := Option.some.inj (hn.symm.trans hroot)
      rw [hagrees.namedType] at htype
      cases htype
    · obtain ⟨k, hk, hagrees⟩ := hcollects.exists_agrees hx
      obtain rfl := Option.some.inj (hn.symm.trans hk)
      exact ⟨x, hx, hagrees.namedType ▸ htype⟩
  -- the identity leads to a class with a sighting that showed it
  rw [hm.lookup_graph_known] at hlookup
  obtain ⟨rep, hknown, rfl⟩ := Option.map_eq_some_iff.mp hlookup
  obtain ⟨hlt, hself, hroot⟩ := hm.of_known hknown
  obtain ⟨y, hy, hyi, hclass⟩ := hcollects.reflects.exists_of_known hknown
  have hrep : rep ∈ m.forest.representatives :=
    hself ▸ Forest.find_mem_representatives (hm.size_forest ▸ hlt)
  obtain ⟨before, z, after, hsplit, -, -, rfl, hretains⟩ :=
    run.exists_first hrep fun hzero ↦ hroot (hzero ▸ hm.root_mem)
  have hz : z ∈ steps.flatMap Step.sightings := hsplit ▸ List.mem_append_right _ List.mem_cons_self
  have hname := (hcollects.agrees_of_find_eq hz hy (hself.trans hclass.symm)).name
  refine ⟨_, hm.node?_graph_rank hlt, ?_⟩
  rw [hself]
  exact hretains.mem_identities i
    (hshown _ (hmem hx) i (by simpa [hxtype]) _ (hmem hy) hyi _ (hmem hz) hname)

namespace UseGraph

open Merger

variable {g rebuilt : UseGraph} {id : Nat} {n : Node}

/-- **What exporting a graph and rebuilding it preserves.** When accepted batches without ordinals
are merged, the graph that is rebuilt from the nodes of their graph has the same nodes, and looks up
the identities that are shown, to the nodes that show them. A selection in the rebuilt graph copies
nothing more than the selection in the first one. The two are equal just when what is copied is
closed under the methods of the first graph; and so they are if copied nodes refer to methods by
identities that these show. -/
theorem select_ofBatches_toBatch {bs : List Batch} (hcheck : ∀ b ∈ bs, b.check = .ok ())
    (hord : ∀ b ∈ bs, ∀ n ∈ b.nodes, n.subgraph = none) : ∃ g, (ofBatches bs).result = .ok g
      ∧ ∃ rebuilt, (ofBatches [g.toBatch]).result = .ok rebuilt ∧ rebuilt.nodes = g.nodes
      ∧ (∀ i id, rebuilt.lookup i = some id ↔
        g.lookup i = some id ∧ ∃ n, g.node? id = some n ∧ i ∈ n.identities)
      ∧ ∀ t, (∀ id ∈ (rebuilt.select t).seen, id ∈ (g.select t).seen)
        ∧ (rebuilt.select t = g.select t ↔
          ∀ id ∈ (rebuilt.select t).seen, ∀ other ∈ g.methods id, other ∈ (rebuilt.select t).seen)
        ∧ ((∀ id ∈ (rebuilt.select t).seen, ∀ n, g.node? id = some n → g.RefersAsShown n) →
          rebuilt.select t = g.select t) := by
  obtain ⟨steps, m, rfl, run, hgraph⟩ := exists_run_ofBatches hcheck
  obtain ⟨rebuilt, hresult, h⟩ := run.rebuilds fun s hs ↦ hord _ (List.mem_map_of_mem hs)
  have hg := (run.wellFormed wellFormed_empty).wellFormed_graph
  have hrebuilt := wellFormed_of_ofBatches hresult
  refine ⟨m.graph, hgraph, rebuilt, hresult, h.nodes_eq, h.lookup_iff, fun t ↦
    ⟨h.narrows.seen_subset hrebuilt hg t, h.narrows.select_eq_iff hrebuilt hg t, fun hshown ↦ ?_⟩⟩
  refine h.narrows.select_eq_of_lookup hrebuilt hg t
    fun id hid {n type i other} hn htype hi hlookup ↦ ?_
  exact (h.lookup_iff i other).mpr ⟨hlookup, hshown id hid n hn type htype i hi other hlookup⟩

/-- The variable with the named type, which refers to the moved method by its path. -/
def pathUser : Node :=
  { movedUser with namedType := some ⟨"T", [.path ⟨"pkg", "M"⟩]⟩ }

/-- Two batches between which the method was moved. Its path is the same in both. -/
def movedByPath : List Batch :=
  [⟨[Node.root, movedFrom]⟩, ⟨[Node.root, pathUser, movedTo]⟩]

theorem check_movedByPath : ∀ b ∈ movedByPath, b.check = .ok () := by
  decide

theorem unanimous_movedByPath : Unanimous (movedByPath.flatMap Batch.nodes) :=
  unanimous_of_linked (by decide)

/-- The variable that refers to the method. -/
def movedTargets : Targets where
  names := ["v"]
  names_ne_nil := by decide
  ne_empty := by decide
  pairwise := by decide

/-- The variable refers to the method by the path that the method shows, so the selection in the
rebuilt graph is the same: the method is copied with the variable. -/
theorem select_toBatch_movedByPath : (∀ b ∈ movedByPath, b.check = .ok ())
    ∧ (∀ b ∈ movedByPath, ∀ n ∈ b.nodes, n.subgraph = none)
    ∧ ∃ g, (ofBatches movedByPath).result = .ok g
      ∧ ∃ rebuilt, (ofBatches [g.toBatch]).result = .ok rebuilt ∧ rebuilt.nodes = g.nodes
      ∧ (∃ id other, g.Lists id other ∧ id ∈ (g.select movedTargets).seen
        ∧ other ∈ (g.select movedTargets).seen)
      ∧ (∀ i id, rebuilt.lookup i = some id ↔
        g.lookup i = some id ∧ ∃ n, g.node? id = some n ∧ i ∈ n.identities)
      ∧ rebuilt.select movedTargets = g.select movedTargets := by
  have hord : ∀ b ∈ movedByPath, ∀ n ∈ b.nodes, n.subgraph = none := by decide
  obtain ⟨g, hg, rebuilt, hrebuilt, hnodes, hlookup, hselect⟩ :=
    select_ofBatches_toBatch check_movedByPath hord
  obtain ⟨steps, m, hsteps, run, rfl⟩ := ofBatches_eq_ok_iff.mp hg
  have hordinals : ∀ s ∈ steps, ∀ n ∈ s.batch.nodes, n.subgraph = none := fun s hs ↦
    hord _ (hsteps ▸ List.mem_map_of_mem hs)
  have hcollects := run.collects hordinals (hsteps ▸ unanimous_movedByPath)
  have hsighting {n : Node} (hn : n ∈ movedByPath.flatMap Batch.nodes) :
      ∃ x ∈ steps.flatMap Step.sightings, x.node = n := by
    rwa [← List.mem_map, map_node_flatMap_sightings, hsteps]
  obtain ⟨x, hx, hxnode⟩ : ∃ x ∈ steps.flatMap Step.sightings, x.node = pathUser :=
    hsighting (by decide)
  obtain ⟨y, hy, hynode⟩ : ∃ y ∈ steps.flatMap Step.sightings, y.node = movedTo :=
    hsighting (by decide)
  obtain ⟨user, huser, hagrees⟩ := hcollects.exists_agrees hx
  rw [hxnode] at hagrees
  obtain ⟨hmethod, -⟩ := hcollects.reflects.lookup_graph hcollects.wellFormed hy
    (i := .path ⟨"pkg", "M"⟩) (by rw [hynode]; decide)
  have hlists : m.graph.Lists (m.forest.rank x.slot) (m.forest.rank y.slot) :=
    ⟨user, _, huser, hagrees.namedType, _, List.mem_singleton_self _, hmethod⟩
  have hclosed := (hcollects.wellFormed.wellFormed_graph.isLeast_seen movedTargets).1
  have hcopied : m.forest.rank x.slot ∈ (m.graph.select movedTargets).seen :=
    hclosed.target huser (by rw [hagrees.kind]; decide) (by rw [hagrees.name]; decide)
  refine ⟨check_movedByPath, hord, m.graph, hg, rebuilt, hrebuilt, hnodes,
    ⟨_, _, hlists, hcopied, hclosed.method hcopied hlists.mem_methods⟩, hlookup,
    (hselect movedTargets).2.2 fun id _ n hn ↦ ?_⟩
  exact run.refersAsShown hordinals (hsteps ▸ unanimous_movedByPath) (by rw [hsteps]; decide) hn

/-! ### A method that is missed -/

/-- A node with the name of the variable says what the variable says, and uses nothing. -/
theorem agrees_movedUser {m : Merger} {steps : List Step} (run : Merger.empty.Runs steps m)
    (hsteps : steps.map Step.batch = moved) (hn : m.graph.node? id = some n)
    (hname : n.name = "v") : n.Agrees movedUser ∧ n.uses = [] := by
  have hord : ∀ s ∈ steps, ∀ n ∈ s.batch.nodes, n.subgraph = none := fun s hs ↦
    subgraph_moved _ (hsteps ▸ List.mem_map_of_mem hs)
  have hcollects := run.collects hord (hsteps ▸ unanimous_moved)
  rcases hcollects.exists_sighting (lt_size_of_node? hn) with rfl | ⟨x, hx, rfl⟩
  · obtain ⟨root, hroot, hagrees⟩ := hcollects.exists_agrees_root
    rw [hroot, Option.some_inj] at hn
    rw [← hn, hagrees.name] at hname
    exact absurd hname (by decide)
  obtain ⟨k, hk, hagrees⟩ := hcollects.exists_agrees hx
  rw [hn, Option.some_inj] at hk
  subst hk
  have hmem : x.node ∈ moved.flatMap Batch.nodes := by
    rw [← hsteps, ← map_node_flatMap_sightings]
    exact List.mem_map_of_mem hx
  have honly : ∀ k ∈ moved.flatMap Batch.nodes, k.name = "v" → k = movedUser := by decide
  refine ⟨honly x.node hmem (hagrees.name ▸ hname) ▸ hagrees, List.eq_nil_iff_forall_not_mem.mpr
    fun used hused ↦ ?_⟩
  -- the batches have no edges
  have hedge : (⟨m.forest.rank x.slot, used, .uses⟩ : Edge) ∈ m.graph.edges true :=
    (hcollects.wellFormed.wellFormed_graph.mem_edges_iff).mpr ⟨n, hn, hused⟩
  obtain ⟨s, hs, hstep⟩ := run.mem_edges_iff.mp hedge
  obtain ⟨d, hd, -⟩ := (Step.mem_edges_iff (hcollects.rank_ne_zero hx)).mp hstep
  have hnone : ∀ b ∈ moved, b.edges = [] := by decide
  rw [hnone s.batch (hsteps ▸ List.mem_map_of_mem hs)] at hd
  cases hd

/-- The variable is copied with the method that it refers to. -/
theorem mem_seen_moved {m : Merger} {steps : List Step} (run : Merger.empty.Runs steps m)
    (hsteps : steps.map Step.batch = moved)
    (hlookup : m.graph.lookup (.position movedTo.position) = some id) :
    id ∈ (m.graph.select movedTargets).seen := by
  have hcollects := run.collects (fun s hs ↦ subgraph_moved _ (hsteps ▸ List.mem_map_of_mem hs))
    (hsteps ▸ unanimous_moved)
  obtain ⟨x, hx, hxnode⟩ : ∃ x ∈ steps.flatMap Step.sightings, x.node = movedUser := by
    rw [← List.mem_map, map_node_flatMap_sightings, hsteps]
    decide
  obtain ⟨user, huser, hagrees⟩ := hcollects.exists_agrees hx
  rw [hxnode] at hagrees
  have hclosed := (hcollects.wellFormed.wellFormed_graph.isLeast_seen movedTargets).1
  have htarget := hclosed.target huser (by rw [hagrees.kind]; decide) (by rw [hagrees.name]; decide)
  refine hclosed.method htarget (mem_methods.mpr ⟨user, huser, Or.inl ⟨_, hagrees.namedType, ?_⟩⟩)
  exact ⟨_, List.mem_cons_self, hlookup⟩

/-- Where the later place of the method is not known, nothing is copied with the variable. -/
theorem closed_moved {m : Merger} {steps : List Step} (run : Merger.empty.Runs steps m)
    (hsteps : steps.map Step.batch = moved) (h : rebuilt.RebuiltFrom m.graph)
    (hmissed : rebuilt.lookup (.position movedTo.position) = none) :
    rebuilt.Closed movedTargets {id | ∃ k, m.graph.node? id = some k ∧ k.name = "v"} where
  target hk _ hname := ⟨_, h.narrows.node?_eq _ ▸ hk, List.mem_singleton.mp hname⟩
  method {id other} hid hother := by
    obtain ⟨k, hk, hname⟩ := hid
    obtain ⟨hagrees, -⟩ := agrees_movedUser run hsteps hk hname
    obtain ⟨k', hk', hcases⟩ := mem_methods.mp hother
    rw [h.narrows.node?_eq] at hk'
    obtain rfl : k = k' := Option.some.inj (hk.symm.trans hk')
    rcases hcases with ⟨type, htype, i, hi, hfound⟩ | ⟨hkind, -⟩
    · rw [hagrees.namedType] at htype
      obtain rfl := Option.some.inj htype
      rw [List.mem_singleton.mp hi, hmissed] at hfound
      cases hfound
    · rw [hagrees.kind] at hkind
      exact absurd hkind (by decide)
  use {id k other u} hid hk hused := by
    obtain ⟨k', hk', hname⟩ := hid
    rw [h.narrows.node?_eq] at hk
    obtain rfl : k' = k := Option.some.inj (hk'.symm.trans hk)
    rw [(agrees_movedUser run hsteps hk' hname).2] at hused
    cases hused

/-- **The moved method is missed in the rebuilt graph**: its later place, by which the variable
refers to it, is not shown. -/
theorem select_moved_ne :
    (∀ b ∈ moved, b.check = .ok ()) ∧ (∀ b ∈ moved, ∀ n ∈ b.nodes, n.subgraph = none)
    ∧ ∃ g rebuilt, (ofBatches moved).result = .ok g ∧ (ofBatches [g.toBatch]).result = .ok rebuilt
      ∧ (∃ i id, g.lookup i = some id ∧ rebuilt.lookup i = none)
      ∧ (rebuilt.select movedTargets).seen ≠ (g.select movedTargets).seen := by
  obtain ⟨steps, m, hsteps, run, hgraph⟩ := exists_run_ofBatches check_moved
  obtain ⟨rebuilt, hresult, h⟩ :=
    run.rebuilds fun s hs ↦ subgraph_moved _ (hsteps ▸ List.mem_map_of_mem hs)
  have hrebuilt := wellFormed_of_ofBatches hresult
  obtain ⟨method, n, hn, hagrees, hlookup, hplace⟩ := run.exists_moved hsteps
  have hmissed := h.lookup_eq_none hlookup hn fun hshown ↦ by
    rw [Node.position_mem_identities_iff, hplace] at hshown
    exact absurd hshown.1 (by decide)
  refine ⟨check_moved, subgraph_moved, m.graph, rebuilt, hgraph, hresult, ⟨_, _, hlookup, hmissed⟩,
    fun hseen ↦ ?_⟩
  have hmethod := mem_seen_moved run hsteps hlookup
  rw [← hseen] at hmethod
  -- in the rebuilt graph the method would have the name of the variable
  obtain ⟨k, hk, hname⟩ :=
    (hrebuilt.isLeast_seen movedTargets).2 (closed_moved run hsteps h hmissed) hmethod
  rw [hn, Option.some_inj] at hk
  rw [← hk, hagrees.name] at hname
  exact absurd hname (by decide)

end UseGraph

end DeclExtract
