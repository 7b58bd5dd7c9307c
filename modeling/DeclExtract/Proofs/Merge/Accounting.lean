import DeclExtract.Proofs.Merge.Consistency
import DeclExtract.Proofs.Merge.Edges

/-!
# The report of a merge accounts for every node

When a merger meets a node, the node is treated in one of four ways (`Merger.treatment`): its
ordinal is known, or else its path, or else its position, or nothing of it. Nodes of a batch are met
one after the other, each with what its predecessors left behind (`Merger.meets`), so one and the
same node may be treated differently at different places.

The report counts the treatments of a batch, the events tell of them in their order, and the number
of declarations follows from them (`Merger.Accounts`). The number of declarations is the number of
classes of slots. A new node is a class of its own (`Forest.classes_grow`). Two classes are joined
only if they are different, since a node is known under representatives, and then there is one less
(`Forest.classes_absorb`). So what one sighting does to the number of classes is what it does to the
report (`Merger.WellFormed.size_settleAs`), and a batch is a chain of sightings.
-/

namespace DeclExtract

/-! ### How a node is treated -/

/-- How the report of a batch counts a node. -/
inductive Treatment where
  /-- As a declaration that had not been seen before. -/
  | added
  /-- As one that is known by its path. -/
  | byPath
  /-- As one that is known by its position alone. -/
  | byPosition
  /-- Not at all, since it is a root that is known by its ordinal. -/
  | byOrdinal
  deriving Repr, DecidableEq

/-- Whatever is treated is treated in one of the four ways. -/
theorem Treatment.sum_count (ts : List Treatment) :
    ts.count .added + ts.count .byPath + ts.count .byPosition + ts.count .byOrdinal
      = ts.length := by
  induction ts with
  | nil => rfl
  | cons t ts ih =>
    simp only [List.count_cons, List.length_cons]
    cases t <;> simp <;> omega

/-- The treatment of a node that was recognised in some way. -/
def Recognition.treatment : Recognition → Treatment
  | .root .. => .byOrdinal
  | .both .. | .path _ => .byPath
  | .position _ => .byPosition
  | .fresh => .added

/-- Whether two declarations turned out to be one. -/
def Recognition.joins : Recognition → Bool
  | .both a b => a ≠ b
  | .root .. | .path _ | .position _ | .fresh => false

namespace Merger

variable {m : Merger} {n : Node} {r : Recognition} {b : Batch}

/-- **The treatment of a node**, by what is known when it is met. -/
def treatment (m : Merger) (n : Node) : Treatment :=
  if (n.subgraph.bind m.atOrdinal?).isSome then .byOrdinal
  else if (n.stablePath.bind m.atPath?).isSome then .byPath
  else if (n.stablePosition.bind m.atPosition?).isSome then .byPosition
  else .added

/-- **What is told of a node**, in which words, and how it is treated, by what is known when it is
met. -/
inductive Tells (m : Merger) (n : Node) : Treatment → Event → String → Prop
  | knownRoot {o slot : Nat} (hord : n.subgraph = some o) (hroot : m.atOrdinal? o = some slot) :
      Tells m n .byOrdinal (.knownRoot n.id slot o) "known subgraph root"
  | matchedBoth {a b : Nat} (hord : n.subgraph.bind m.atOrdinal? = none)
      (hpath : n.stablePath.bind m.atPath? = some a)
      (hposition : n.stablePosition.bind m.atPosition? = some b) :
      Tells m n .byPath (.matchedBoth n.id a b) "deduplicating on path and position"
  | matchedPath {a : Nat} (hord : n.subgraph.bind m.atOrdinal? = none)
      (hpath : n.stablePath.bind m.atPath? = some a)
      (hposition : n.stablePosition.bind m.atPosition? = none) :
      Tells m n .byPath (.matchedPath n.id a) "deduplicating on path"
  | matchedPosition {b : Nat} (hord : n.subgraph.bind m.atOrdinal? = none)
      (hpath : n.stablePath.bind m.atPath? = none)
      (hposition : n.stablePosition.bind m.atPosition? = some b) :
      Tells m n .byPosition (.matchedPosition n.id b) "deduplicating on position"
  | newNode (hord : n.subgraph.bind m.atOrdinal? = none)
      (hpath : n.stablePath.bind m.atPath? = none)
      (hposition : n.stablePosition.bind m.atPosition? = none) :
      Tells m n .added (.newNode n.id m.slots.size n.name) "new node"

/-- The merger as it is when it comes to a place of a batch. -/
def meets (m : Merger) (b : Batch) (index : Nat) : Merger :=
  ((b.nodes.take index).foldl Merging.sight (Merging.start m)).merger

/-- The treatments of the nodes of a batch. -/
def treatments (m : Merger) (b : Batch) : List Treatment :=
  b.nodes.zipIdx.map fun (n, index) ↦ (m.meets b index).treatment n

/-- The number of slots that are their own parents. -/
def ownParents (m : Merger) : Nat :=
  (List.range m.slots.size).countP fun slot ↦ m.forest.parent slot = slot

/-- **The report of a merge accounts for every node.** -/
structure Accounts (m : Merger) (b : Batch) (merged : Merged) : Prop where
  /-- Every added node is a declaration more, and every pair that turned out to be one a declaration
  less. -/
  size_eq : merged.merger.size + merged.report.unified = m.size + merged.report.added
  /-- The declarations are the slots that are their own parents. -/
  ownParents_eq : m.ownParents = m.size ∧ merged.merger.ownParents = merged.merger.size
  added_eq : merged.report.added = (m.treatments b).count .added
  byPath_eq : merged.report.byPath = (m.treatments b).count .byPath
  byPosition_eq : merged.report.byPosition = (m.treatments b).count .byPosition
  /-- No node is left out. -/
  sum_eq : merged.report.added + merged.report.byPath + merged.report.byPosition
    + (m.treatments b).count .byOrdinal = b.size
  /-- Each node is told of in its turn, and then the batch with the numbers of the report. -/
  events_eq : ∃ told : List Event, merged.events = told ++ [.batchMerged b.size merged.report.added
      merged.report.byPath merged.report.byPosition merged.report.unified]
    ∧ ∀ index n, b.nodes[index]? = some n → ∃ e, told[index]? = some e
        ∧ (m.meets b index).Tells n ((m.meets b index).treatment n) e e.message
  /-- The last event says that the batch was merged. -/
  message_eq : merged.events.getLast?.map Event.message = some "merged partial graph"
  /-- There are no other events. -/
  levels_eq : merged.events.map Event.level = List.replicate b.size .trace ++ [.debug]
  /-- The root of the graph uses the root of the batch if that is new. -/
  rootEdges_eq : merged.report.rootEdges = if (m.treatments b)[0]? = some .added then 1 else 0

/-! ### One node -/

theorem Tells.treatment_eq {t : Treatment} {e : Event} {text : String} (h : m.Tells n t e text) :
    m.treatment n = t := by
  cases h with
  | knownRoot hord hroot => simp [treatment, hord, hroot]
  | matchedBoth hord hpath => simp [treatment, hord, hpath]
  | matchedPath hord hpath => simp [treatment, hord, hpath]
  | matchedPosition hord hpath hposition => simp [treatment, hord, hpath, hposition]
  | newNode hord hpath hposition => simp [treatment, hord, hpath, hposition]

/-- **The event of a sighting tells what is known.** -/
theorem tells_sighting (m : Merger) (n : Node) :
    m.Tells n (m.recognise n).treatment (m.sighting n).event (m.sighting n).event.message := by
  show m.Tells n (m.recognise n).treatment
    ((m.recognise n).event n (m.settleAs n (m.recognise n)).2)
    ((m.recognise n).event n (m.settleAs n (m.recognise n)).2).message
  generalize hr : m.recognise n = r
  unfold recognise at hr
  split at hr
  next slot ordinal hroot =>
    obtain ⟨o, hord, hat⟩ := Option.bind_eq_some_iff.mp hroot
    obtain ⟨s, hslot, heq⟩ := Option.map_eq_some_iff.mp hat
    obtain ⟨rfl, rfl⟩ := Prod.mk.inj heq
    exact hr ▸ .knownRoot hord hslot
  next hnone =>
    have hord : n.subgraph.bind m.atOrdinal? = none := by
      simpa only [Option.bind_eq_none_iff, Option.map_eq_none_iff] using hnone
    split at hr <;> subst hr
    next a b hpath hposition => exact .matchedBoth hord hpath hposition
    next a hpath hposition => exact .matchedPath hord hpath hposition
    next b hpath hposition => exact .matchedPosition hord hpath hposition
    next hpath hposition => exact .newNode hord hpath hposition

theorem treatment_recognise (m : Merger) (n : Node) : (m.recognise n).treatment = m.treatment n :=
  (m.tells_sighting n).treatment_eq.symm

theorem level_event (x : Sighting) : x.event.level = .trace := by
  obtain ⟨n, r, slot⟩ := x
  cases r <;> rfl

/-- Of two declarations that turn out to be one, one is left. -/
theorem WellFormed.size_unify {a b : Nat} (h : m.WellFormed) (hne : a ≠ b)
    (ha : a < m.slots.size ∧ m.forest.find a = a) (hb : b < m.slots.size ∧ m.forest.find b = b) :
    (m.unify a b).size + 1 = m.size := by
  have hgone : max a b < m.forest.size := h.size_forest ▸ Nat.max_lt.mpr ⟨ha.1, hb.1⟩
  have hmin : m.forest.find (min a b) = min a b := min_rec' (fun c ↦ m.forest.find c = c) ha.2 hb.2
  have hmax : m.forest.find (max a b) = max a b := max_rec' (fun c ↦ m.forest.find c = c) ha.2 hb.2
  rw [size, forest_unify, Forest.classes_absorb hgone (by omega) hmin hmax, size]

/-- **A sighting changes the number of declarations as the report says.** -/
theorem WellFormed.size_settleAs (h : m.WellFormed) (hr : Recognises m n r) :
    (m.settleAs n r).1.size + (if r.joins then 1 else 0)
      = m.size + if r.treatment == .added then 1 else 0 := by
  cases hr with
  | root => rfl
  | @both a b hcand =>
    obtain ⟨ha, hb⟩ := of_candidates_eq h hcand
    by_cases heq : a = b
    · rw [Merger.settleAs, if_pos heq, Recognition.joins, if_neg (by simpa using heq)]
      rfl
    · rw [Merger.settleAs, if_neg heq, Recognition.joins, if_pos (by simpa using heq)]
      exact h.size_unify heq ha hb
  | path => rfl
  | position => rfl
  | fresh =>
    rw [Merger.settleAs, size, forest_allocate, Forest.classes_grow]
    rfl

/-! ### The nodes of a batch -/

theorem getElem?_sightings (m : Merger) (ns : List Node) (index : Nat) :
    (m.sightings ns)[index]? = ns[index]?.map fun n ↦
      ((ns.take index).foldl sighted m).sighting n := by
  induction ns generalizing m index with
  | nil => rfl
  | cons n ns ih =>
    cases index with
    | zero => rfl
    | succ index => exact ih (m.sighted n) index

theorem meets_eq (m : Merger) (b : Batch) (index : Nat) :
    m.meets b index = (b.nodes.take index).foldl sighted m := by
  rw [meets, foldl_sight]
  rfl

theorem treatments_eq (m : Merger) (b : Batch) :
    m.treatments b = (m.sightings b.nodes).map fun x ↦ x.recognition.treatment := by
  refine List.ext_getElem? fun index ↦ ?_
  rw [treatments, List.getElem?_map, List.getElem?_zipIdx, List.getElem?_map, getElem?_sightings]
  cases b.nodes[index]? with
  | none => rfl
  | some n =>
    simp only [Option.map_some, Nat.zero_add, meets_eq, sighting, treatment_recognise]

theorem length_treatments (m : Merger) (b : Batch) : (m.treatments b).length = b.size := by
  rw [treatments, List.length_map, List.length_zipIdx, Batch.size]

/-- The report counts the treatments, and the joins. -/
theorem foldl_count (report : MergeReport) (xs : List Sighting) :
    let treatments := xs.map fun x ↦ x.recognition.treatment
    let counted := xs.foldl Sighting.count report
    counted.added = report.added + treatments.count .added
    ∧ counted.byPath = report.byPath + treatments.count .byPath
    ∧ counted.byPosition = report.byPosition + treatments.count .byPosition
    ∧ counted.unified = report.unified + xs.countP fun x ↦ x.recognition.joins := by
  induction xs generalizing report with
  | nil => exact ⟨rfl, rfl, rfl, rfl⟩
  | cons x xs ih =>
    obtain ⟨hadded, hpath, hposition, hunified⟩ := ih (x.count report)
    obtain ⟨n, r, slot⟩ := x
    simp only [List.foldl_cons, hadded, hpath, hposition, hunified, List.map_cons, List.count_cons,
      List.countP_cons]
    cases r with
    | both a b =>
      by_cases heq : a = b <;>
        simp [Sighting.count, Recognition.count, Recognition.treatment, Recognition.joins, heq] <;>
        omega
    | _ =>
      simp [Sighting.count, Recognition.count, Recognition.treatment, Recognition.joins] <;> omega

/-- **A chain of sightings changes the number of declarations** as their report says. -/
theorem WellFormed.size_foldl_sighted (h : m.WellFormed) (ns : List Node) :
    (ns.foldl Merger.sighted m).size + (m.sightings ns).countP (fun x ↦ x.recognition.joins)
      = m.size + ((m.sightings ns).map fun x ↦ x.recognition.treatment).count .added := by
  induction ns generalizing m with
  | nil => rfl
  | cons n ns ih =>
    have hfirst : (m.sighted n).size + (if (m.sighting n).recognition.joins then 1 else 0)
        = m.size + if (m.sighting n).recognition.treatment == .added then 1 else 0 :=
      h.size_settleAs (m.recognises n)
    have hrest := ih (h.sighted n)
    rw [List.foldl_cons, sightings, List.countP_cons, List.map_cons, List.count_cons]
    omega

/-- An accepted batch has one new root if its first node is new, and none otherwise. -/
theorem countP_isNewRoot (hb : b.Accepted) :
    (m.sightings b.nodes).countP Sighting.isNewRoot
      = if (m.treatments b)[0]? = some .added then 1 else 0 := by
  rw [treatments_eq]
  cases hxs : m.sightings b.nodes with
  | nil => rfl
  | cons x xs =>
    have hfirst : x.node.id = 0 :=
      id_of_getElem?_sightings (m := m) hb (by rw [hxs, List.getElem?_cons_zero])
    have hrest : xs.countP Sighting.isNewRoot = 0 :=
      List.countP_eq_zero.mpr fun y hy ↦ not_isNewRoot_of_mem_tail (m := m) hb (by rwa [hxs])
    have hnew : x.isNewRoot = true ↔ x.recognition.treatment = .added := by
      cases hr : x.recognition <;> simp [Sighting.isNewRoot, Recognition.treatment, hr, hfirst]
    simp only [List.countP_cons, hrest, Nat.zero_add, hnew, List.map_cons, List.getElem?_cons_zero,
      Option.some_inj]

/-! ### The account -/

theorem events_mergeSound (m : Merger) (b : Batch) :
    (m.mergeSound b).events = (m.sightings b.nodes).map Sighting.event
      ++ [.batchMerged b.size (m.mergeSound b).report.added (m.mergeSound b).report.byPath
        (m.mergeSound b).report.byPosition (m.mergeSound b).report.unified] := by
  rw [mergeSound, foldl_sight]
  simp [Merging.start]

theorem WellFormed.ownParents_eq (h : m.WellFormed) (hdesc : m.forest.Descending) :
    m.ownParents = m.size := by
  rw [ownParents, ← h.size_forest, size, hdesc.classes_eq]

/-- **The report of a merge accounts for every node**, whatever batches have been offered before. -/
theorem accounts_of_accepted (offered : List Batch) (b : Batch) (hb : b.Accepted) :
    ∃ merged, (empty.offerAll offered).merge b = .ok merged
      ∧ (empty.offerAll offered).Accounts b merged := by
  obtain ⟨steps, -, run⟩ := exists_runs_offerAll empty offered
  generalize empty.offerAll offered = m at run ⊢
  have hm := run.wellFormed wellFormed_empty
  have hmerge : m.merge b = .ok (m.mergeSound b) := merge_eq_ok_iff.mpr ⟨hb, rfl⟩
  have hafter : empty.Runs (steps ++ [⟨m, b, m.mergeSound b⟩]) (m.mergeSound b).merger :=
    run.append (.cons hmerge (.nil _))
  obtain ⟨hadded, hpath, hposition, hunified⟩ := foldl_count {} (m.sightings b.nodes)
  rw [← report_mergeSound, ← treatments_eq, Nat.zero_add] at hadded hpath hposition
  rw [← report_mergeSound, Nat.zero_add] at hunified
  refine ⟨_, hmerge, ?_⟩
  constructor
  case size_eq =>
    have hsize := hm.size_foldl_sighted b.nodes
    rw [← treatments_eq] at hsize
    rw [size, forest_mergeSound, hunified, hadded]
    exact hsize
  case ownParents_eq =>
    exact ⟨hm.ownParents_eq run.descending, (hm.mergeSound b).ownParents_eq hafter.descending⟩
  case added_eq => exact hadded
  case byPath_eq => exact hpath
  case byPosition_eq => exact hposition
  case sum_eq =>
    rw [hadded, hpath, hposition, Treatment.sum_count, length_treatments]
  case events_eq =>
    refine ⟨_, m.events_mergeSound b,
      fun index n hn ↦ ⟨((m.meets b index).sighting n).event, ?_, ?_⟩⟩
    · rw [List.getElem?_map, getElem?_sightings, hn, meets_eq]
      rfl
    · rw [← treatment_recognise]
      exact tells_sighting _ _
  case message_eq =>
    rw [events_mergeSound, List.getLast?_concat]
    rfl
  case levels_eq =>
    have htold :
        (m.sightings b.nodes).map (Event.level ∘ Sighting.event)
          = List.replicate b.size .trace := by
      rw [Batch.size, ← m.length_sightings b.nodes]
      exact List.map_eq_replicate_iff.mpr fun x _ ↦ level_event x
    rw [events_mergeSound, List.map_append, List.map_map, htold]
    rfl
  case rootEdges_eq =>
    rw [report_mergeSound, rootEdges_foldl_count, Nat.zero_add, countP_isNewRoot hb]

/-- The third of the batches that tell of one type is accounted for after the other two. -/
theorem accounts_bridged : bridged[2].Accepted
    ∧ ∃ merged, (empty.offerAll (bridged.take 2)).merge bridged[2] = .ok merged
      ∧ (empty.offerAll (bridged.take 2)).Accounts bridged[2] merged :=
  have haccepted : bridged[2].Accepted :=
    Batch.check_eq_ok_iff.mp (check_bridged _ (List.getElem_mem _))
  ⟨haccepted, accounts_of_accepted (bridged.take 2) bridged[2] haccepted⟩

end Merger

end DeclExtract
