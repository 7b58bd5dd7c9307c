import DeclExtract.Proofs.Merge.InBounds
import DeclExtract.Proofs.Selection.Closure
import DeclExtract.UseGraph.Dot

/-!
# Whoever reads a graph stays within it

A walk keeps one flag per node and asks for the flags of ids from four sources: names, edges,
methods that were looked up, and its own stack. It is read strictly here (`Walk.run?`): an id that
has no node is passed over, but the flag of one that has a node, or of a successor, has to be there.
In a well-formed graph there are as many flags as nodes, and every successor is a node
(`Walk.run?_eq`).

Together with what holds of the merger, nothing outside a table is asked for on the whole way from
batches to a selection or a drawing (`UseGraph.inBounds_ofBatches`).
-/

namespace DeclExtract

/-! ### The walk -/

namespace Walk

variable {g : UseGraph} {t : Targets} {w : Walk} {stack : List Nat}

/-- The strict reading of `run`. -/
def run? (g : UseGraph) (t : Targets) (w : Walk) : List Nat → Option Walk
  | [] => some w
  | id :: stack =>
    match g.node? id with
    | none => run? g t w.pass stack
    | some _ =>
      if w.visited.inBounds id = false then none
      else if w.visited.contains id = true then run? g t w.pass stack
      else
        let w' := w.visit id
        let next := g.successors t id
        if next.all w'.visited.inBounds then
          run? g t w' (next.filter (fun next ↦ !w'.visited.contains next) ++ stack)
        else none
termination_by stack => (w.visited.missing, stack.length)
decreasing_by
  · exact Prod.Lex.right _ (Nat.lt_succ_self _)
  · exact Prod.Lex.right _ (Nat.lt_succ_self _)
  · have hbounds : w.visited.inBounds id = true := Bool.eq_true_of_not_eq_false ‹_›
    have hnot : w.visited.contains id = false := Bool.eq_false_of_not_eq_true ‹_›
    exact Prod.Lex.left _ _ (NodeSet.missing_insert_lt hbounds hnot)

/-- The strict reading of `ofTargets`. -/
def ofTargets? (g : UseGraph) (t : Targets) : Option Walk :=
  run? g t (start g) (g.seeds t)

theorem size_flags_visit (w : Walk) (id : Nat) :
    (w.visit id).visited.flags.size = w.visited.flags.size :=
  Array.size_setIfInBounds

/-- **A walk with a flag for every node asks for no other flags.** -/
theorem run?_eq (hg : g.WellFormed) (hsize : w.visited.flags.size = g.size) :
    run? g t w stack = some (run g t w stack) := by
  fun_induction run g t w stack with
  | case1 w => rw [run?]
  | case2 w id stack hnew w' ih =>
    obtain ⟨hbounds, hnot⟩ := isNew_iff.mp hnew
    have hlt : id < w.visited.flags.size := of_decide_eq_true hbounds
    obtain ⟨n, hn⟩ := UseGraph.exists_node? (hsize ▸ hlt)
    have hsize' : w'.visited.flags.size = g.size := (w.size_flags_visit id).trans hsize
    have hnext : (g.successors t id).all w'.visited.inBounds = true :=
      List.all_eq_true.mpr fun next hnext ↦ decide_eq_true (hsize' ▸ hg.lt_of_mem_successors hnext)
    rw [run?, hn]
    simp only [hbounds, hnot, Bool.true_eq_false, Bool.false_eq_true, if_false]
    exact (if_pos hnext).trans (ih hsize')
  | case3 w id stack hnew ih =>
    rw [run?]
    cases hn : g.node? id with
    | none => exact ih hsize
    | some n =>
      -- the id is one of the graph's, so it was passed over because it had been visited
      have hbounds : w.visited.inBounds id = true :=
        decide_eq_true (hsize ▸ UseGraph.lt_size_of_node? hn)
      simp only [hbounds, contains_of_not_isNew hnew hbounds, Bool.true_eq_false, if_false, if_true]
      exact ih hsize

theorem ofTargets?_eq (hg : g.WellFormed) (t : Targets) : ofTargets? g t = some (ofTargets g t) :=
  run?_eq hg Array.size_replicate

end Walk

/-! ### Finished graphs -/

namespace UseGraph

variable {g : UseGraph} {bs : List Batch}

/-- **Nothing outside the nodes is asked for** when a graph is walked, and when its edges are
drawn. -/
structure InBounds (g : UseGraph) : Prop where
  walk : ∀ t, Walk.ofTargets? g t = some (Walk.ofTargets g t)
  edge : ∀ withOwns, ∀ e ∈ g.edges withOwns, e.source < g.size ∧ e.target < g.size

/-- The edges of a node, as they are drawn, are among its edges. -/
theorem of_mem_edgesFrom {n : Node} {withOwns : Bool} {e : Edge} (he : e ∈ edgesFrom n withOwns) :
    e.source = n.id ∧ e.target ∈ n.targets := by
  rcases List.mem_append.mp he with huse | hown
  · obtain ⟨t, ht, rfl⟩ := List.mem_map.mp huse
    exact ⟨rfl, List.mem_append_left _ ht⟩
  · split at hown
    next =>
      obtain ⟨t, ht, rfl⟩ := List.mem_map.mp hown
      exact ⟨rfl, List.mem_append_right _ ht⟩
    next => cases hown

theorem WellFormed.inBounds (h : g.WellFormed) : g.InBounds where
  walk := Walk.ofTargets?_eq h
  edge withOwns e he := by
    obtain ⟨n, hn, he⟩ := List.mem_flatMap.mp he
    obtain ⟨id, hid⟩ := Array.mem_iff_getElem?.mp (Array.mem_toList_iff.mp hn)
    obtain ⟨hsource, htarget⟩ := of_mem_edgesFrom he
    exact ⟨hsource.trans (h.id_eq hid) ▸ lt_size_of_node? hid, h.target_lt hid htarget⟩

/-- The ids with a name are ids of the graph. -/
theorem WellFormed.lt_of_mem_named (h : g.WellFormed) {name : String} {id : Nat}
    (hid : id ∈ g.named name) : id < g.size := by
  obtain ⟨n, hn, -⟩ := h.mem_named_iff.mp hid
  exact lt_size_of_node? hn

/-- **Every finished graph is well-formed, and nothing outside a table is asked for.** Accepted
batches, with ordinals or without, have a graph. In it ids are places, edges and identities and
names and methods lead to nodes, and the first node is the root, which has no name and no identity
and carries the first ordinal. There are as many nodes as the merger has declarations. As a batch
the graph passes the check of its numbering, and no merger refuses it. Any batch can be merged next,
the graph can be taken, walked from any targets and drawn with or without containment, and all of it
stays within the tables. -/
theorem inBounds_ofBatches (h : ∀ b ∈ bs, b.check = .ok ()) : ∃ m,
    (Merger.empty.mergeAll bs).result = .ok m ∧ (ofBatches bs).result = .ok m.graph
      ∧ m.graph.WellFormed
      ∧ (∀ name, ∀ id ∈ m.graph.named name, id < m.graph.size)
      ∧ (∀ id, ∀ other ∈ m.graph.methods id, other < m.graph.size)
      ∧ (∃ root, m.graph.node? 0 = some root ∧ root.kind = .root ∧ root.name = ""
        ∧ root.identities = [] ∧ root.subgraph = some 0)
      ∧ m.graph.size = m.size
      ∧ m.graph.toBatch.checkNumbering = .ok ()
      ∧ (∀ k : Merger, ∃ merged, k.merge m.graph.toBatch = .ok merged)
      ∧ m.InBounds ∧ m.graph.InBounds := by
  obtain ⟨steps, m, hsteps, run, hg⟩ := exists_run_ofBatches h
  have hm := run.wellFormed Merger.wellFormed_empty
  have hshows := run.recognisable
  have hgraph := hm.wellFormed_graph
  have hdescribes := run.describes Merger.wellFormed_empty Merger.describes_empty
  have haccepted := hshows.accepted_toBatch hm
  refine ⟨m, Merger.mergeAll_eq_ok_iff.mpr ⟨steps, hsteps, run⟩, hg, hgraph,
    fun name id hid ↦ hgraph.lt_of_mem_named hid, fun id other hother ↦
      hgraph.lt_of_mem_methods hother,
    ⟨m.declaration 0, hm.node?_graph_zero, hdescribes.root_alike.kind,
      hdescribes.root_alike.name, ?_, hshows.ordinal_eq hm.first_root⟩,
    hm.size_graph, haccepted.checkNumbering,
    fun k ↦ ⟨k.mergeSound m.graph.toBatch, Merger.merge_eq_ok_iff.mpr ⟨haccepted, rfl⟩⟩,
    run.inBounds, hgraph.inBounds⟩
  have hnone : (m.declaration 0).hasIdentity = false := hm.hasIdentity_root hshows hm.root_mem
  exact not_ne_iff.mp fun hsome ↦
    Bool.false_ne_true (hnone.symm.trans (Node.hasIdentity_iff.mpr hsome))

/-- Three batches, the last of which joins two declarations, are merged and read within their
tables. -/
theorem inBounds_bridged : (∀ b ∈ bridged, b.check = .ok ()) ∧ ∃ m,
    (Merger.empty.mergeAll bridged).result = .ok m ∧ (ofBatches bridged).result = .ok m.graph
      ∧ m.graph.WellFormed
      ∧ (∀ name, ∀ id ∈ m.graph.named name, id < m.graph.size)
      ∧ (∀ id, ∀ other ∈ m.graph.methods id, other < m.graph.size)
      ∧ (∃ root, m.graph.node? 0 = some root ∧ root.kind = .root ∧ root.name = ""
        ∧ root.identities = [] ∧ root.subgraph = some 0)
      ∧ m.graph.size = m.size
      ∧ m.graph.toBatch.checkNumbering = .ok ()
      ∧ (∀ k : Merger, ∃ merged, k.merge m.graph.toBatch = .ok merged)
      ∧ m.InBounds ∧ m.graph.InBounds :=
  ⟨check_bridged, inBounds_ofBatches check_bridged⟩

end UseGraph

end DeclExtract
