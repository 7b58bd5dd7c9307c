import DeclExtract.Proofs.Merge.Components
import DeclExtract.Proofs.Merge.Consistency
import DeclExtract.Proofs.Merge.Remerge

/-!
# Merging a batch again

Once a batch has been merged, whatever came before and after it, its nodes are remembered: all the
identities of a node are known under one class, however classes were joined since, and the class has
a named type if the node brought one along (`Runs.recalls`). So a second sighting of the node is a
repetition, and leaves the merger as it is (`Recalls.sameAs_sighted`).

The root of the batch is the exception, if it has no identity. It cannot be remembered, and is given
one more slot. That touches nothing that was there before, apart from one more use of the root of
the graph. `LearnsNothing` says what a merge of that kind leaves as it is, in terms that can be
composed: identities stay indexed under their slots, slots stay in their classes, representatives
keep their numbers, and nodes at most gain edges.
-/

namespace DeclExtract

/-- **A node grows to another one** when it only gains edges, behind those that it has. -/
def Node.GrowsTo (n k : Node) : Prop :=
  ∃ uses owns, k = { n with uses := n.uses ++ uses, owns := n.owns ++ owns }

namespace Node.GrowsTo

variable {n k l : Node}

theorem refl (n : Node) : n.GrowsTo n :=
  ⟨[], [], by rw [List.append_nil, List.append_nil]⟩

theorem trans (hnk : n.GrowsTo k) (hkl : k.GrowsTo l) : n.GrowsTo l := by
  obtain ⟨uses, owns, rfl⟩ := hnk
  obtain ⟨uses', owns', rfl⟩ := hkl
  exact ⟨uses ++ uses', owns ++ owns', by rw [← List.append_assoc, ← List.append_assoc]⟩

end Node.GrowsTo

namespace Merger

variable {m m' k : Merger} {n root : Node} {b : Batch} {past : List Sighting} {x : Sighting}
variable {steps : List Step} {i : Identity} {slot c id : Nat}

/-! ### What a merger keeps that learns nothing -/

/-- **A merger learns nothing on the way to another one**, which has at most further slots, each in
a class of its own behind the others, and further edges. -/
structure LearnsNothing (m m' : Merger) : Prop where
  indexed_eq : ∀ i, m'.indexed? i = m.indexed? i
  find_eq : ∀ s, m'.forest.find s = m.forest.find s
  representatives_prefix : m.forest.representatives <+: m'.forest.representatives
  size_le : m.slots.size ≤ m'.slots.size
  node_growsTo : ∀ s < m.slots.size, (m.node s).GrowsTo (m'.node s)

namespace LearnsNothing

theorem trans (hmk : m.LearnsNothing k) (hkm : k.LearnsNothing m') : m.LearnsNothing m' where
  indexed_eq i := (hkm.indexed_eq i).trans (hmk.indexed_eq i)
  find_eq s := (hkm.find_eq s).trans (hmk.find_eq s)
  representatives_prefix := hmk.representatives_prefix.trans hkm.representatives_prefix
  size_le := Nat.le_trans hmk.size_le hkm.size_le
  node_growsTo s hs :=
    (hmk.node_growsTo s hs).trans (hkm.node_growsTo s (Nat.lt_of_lt_of_le hs hmk.size_le))

theorem known?_eq (h : m.LearnsNothing m') (i : Identity) : m'.known? i = m.known? i := by
  rw [known?, h.indexed_eq, known?]
  exact Option.map_congr fun s _ ↦ h.find_eq s

/-- Nothing is learned on the way to a merger that cannot be told apart. -/
theorem of_sameAs (h : k.SameAs m) : m.LearnsNothing k where
  indexed_eq := h.indexed_eq
  find_eq s := by rw [h.forest_eq]
  representatives_prefix := by rw [h.forest_eq]
  size_le := Nat.le_of_eq h.size_eq.symm
  node_growsTo s _ := by
    rw [h.node_eq]
    exact .refl _

/-- Nothing is learned from a new node without identity. -/
theorem allocate (hm : m.WellFormed) (hnone : n.hasIdentity = false) :
    m.LearnsNothing (m.allocate n) where
  indexed_eq i := by
    have hi : i ∉ n.identities := fun hi ↦ by
      rw [Node.hasIdentity_of_mem hi] at hnone
      cases hnone
    rw [indexed?_allocate, if_neg hi, Option.or_none]
  find_eq s := Forest.find_grow m.forest s
  representatives_prefix := by
    rw [forest_allocate, Forest.representatives_grow]
    exact List.prefix_append _ _
  size_le := by
    rw [size_slots_allocate]
    exact Nat.le_succ _
  node_growsTo s hs := by
    rw [node_allocate hm.slots_pos, if_neg (Nat.ne_of_lt hs)]
    split
    next hroot => exact hroot.1 ▸ ⟨[m.slots.size], [], by rw [List.append_nil]⟩
    next => exact .refl _

/-- Nothing is learned from edges. -/
theorem connectAll {slotOf : Nat → Nat} {ns : List Node}
    (hslot : ∀ localId, slotOf localId < m.slots.size) :
    m.LearnsNothing (m.connectAll slotOf ns) where
  indexed_eq := indexed?_connectAll _ m ns
  find_eq s := by rw [forest_connectAll]
  representatives_prefix := by rw [forest_connectAll]
  size_le := Nat.le_of_eq (size_slots_connectAll _ m ns).symm
  node_growsTo s _ := by
    rw [node_connectAll_eq fun n _ ↦ Forest.find_lt (hslot n.id)]
    exact ⟨_, _, rfl⟩

section

variable (h : m.LearnsNothing m') (hm : m.WellFormed) (hm' : m'.WellFormed)

include h hm

/-- A slot keeps its number. -/
theorem rank_eq (hslot : slot < m.slots.size) : m'.forest.rank slot = m.forest.rank slot := by
  obtain ⟨more, hmore⟩ := h.representatives_prefix
  rw [Forest.rank, h.find_eq, ← hmore, Forest.rank]
  exact List.idxOf_append_of_mem (Forest.find_mem_representatives (hm.size_forest ▸ hslot))

include hm'

/-- **Identities are looked up to what they were.** -/
theorem lookup_eq (i : Identity) : m'.graph.lookup i = m.graph.lookup i := by
  rw [hm'.lookup_graph, h.indexed_eq, hm.lookup_graph]
  exact Option.map_congr fun s hs ↦ h.rank_eq hm (hm.indexed_lt hs)

/-- **Slots have the numbers that they had.** -/
theorem hasNumber_iff (hslot : slot < m.slots.size) :
    m'.HasNumber slot id ↔ m.HasNumber slot id := by
  have hrank := h.rank_eq hm hslot
  have hnumber := hm.hasNumber hslot
  have hnumber' := hm'.hasNumber (Nat.lt_of_lt_of_le hslot h.size_le)
  constructor
  · intro hid
    rw [Option.some.inj (hid.1.symm.trans hnumber'.1), hrank]
    exact hnumber
  · intro hid
    rw [Option.some.inj (hid.1.symm.trans hnumber.1), ← hrank]
    exact hnumber'

/-- **Nodes are what they were**, up to further edges. -/
theorem exists_node? (hn : m.graph.node? id = some n) :
    ∃ n', m'.graph.node? id = some n' ∧ n.GrowsTo n' := by
  obtain ⟨rep, hlt, hself, rfl, rfl⟩ := hm.exists_representative hn
  have hnode := hm'.node?_graph_rank (Nat.lt_of_lt_of_le hlt h.size_le)
  rw [h.find_eq, hself, h.rank_eq hm hlt] at hnode
  refine ⟨_, hnode, ?_⟩
  obtain ⟨uses, owns, hgrown⟩ := h.node_growsTo rep hlt
  have hranks {ts more : List Nat} (hts : ∀ t ∈ ts, t < m.slots.size) :
      (ts ++ more).map m'.forest.rank = ts.map m.forest.rank ++ more.map m'.forest.rank := by
    rw [List.map_append]
    exact congrArg (· ++ _) (List.map_congr_left fun t ht ↦ h.rank_eq hm (hts t ht))
  refine ⟨uses.map m'.forest.rank, owns.map m'.forest.rank, ?_⟩
  rw [declaration, hgrown, h.rank_eq hm hlt]
  dsimp only
  rw [hranks fun t ht ↦ hm.target_lt (List.mem_append_left _ ht),
    hranks fun t ht ↦ hm.target_lt (List.mem_append_right _ ht)]
  rfl

end

end LearnsNothing

/-! ### What a merger remembers of a node -/

/-- **A merger recalls a node** as the declaration `c`: all of its identities are known under `c`,
and `c` has a named type if the node has one. A node with a path and a column is excepted from the
latter, since it may have been recognised by both. -/
structure Recalls (m : Merger) (n : Node) (c : Nat) : Prop where
  known_eq : ∀ i ∈ n.identities, m.known? i = some c
  type_isSome : n.stablePath = none ∨ n.stablePosition = none → n.namedType.isSome = true →
    (m.node c).namedType.isSome = true

namespace Recalls

variable (h : m.Recalls n c)

include h

/-- What is recalled is recalled by a merger that learned nothing since. -/
theorem mono (hm : m.WellFormed) (hidentity : n.hasIdentity = true) (hkept : m.LearnsNothing m') :
    m'.Recalls n c where
  known_eq i hi := (hkept.known?_eq i).trans (h.known_eq i hi)
  type_isSome hpartial htype := by
    obtain ⟨i, hi⟩ := Node.exists_identity hidentity
    obtain ⟨uses, owns, hgrown⟩ := hkept.node_growsTo c (hm.of_known (h.known_eq i hi)).1
    rw [hgrown]
    exact h.type_isSome hpartial htype

theorem candidates_eq : m.candidates n = n.identities.map fun _ ↦ c := by
  rw [candidates, ← List.filterMap_eq_map]
  exact List.filterMap_congr h.known_eq

/-- A node that is known by one identity only completes nothing. -/
theorem complete_eq (hshows : m.Recognisable) (hexhibits : m.Exhibits)
    (hcand : m.candidates n = [c]) : complete (m.node c) n = m.node c := by
  have hone : n.identities.length = 1 := by
    rw [← List.length_map fun _ ↦ c, ← h.candidates_eq, hcand]; rfl
  have hpartial : n.stablePath = none ∨ n.stablePosition = none := by
    unfold Node.identities at hone
    cases hpath : n.stablePath <;> cases hposition : n.stablePosition <;>
      simp [hpath, hposition] at hone ⊢
  refine complete_eq_self (hshows.path_eq c) (fun hpath ↦ ?_) (fun hcolumn ↦ ?_)
    (h.type_isSome hpartial)
  · obtain ⟨p, hp⟩ := Option.isSome_iff_exists.mp hpath
    exact hexhibits _ c (h.known_eq _ (Node.path_mem_identities.mpr hp))
  · have hshown :=
      hexhibits _ c (h.known_eq _ (Node.position_mem_identities_iff.mpr ⟨rfl, hcolumn⟩))
    obtain ⟨p, hp⟩ := Option.isSome_iff_exists.mp hshown
    obtain ⟨rfl, hpcolumn⟩ :=
      Node.position_mem_identities_iff.mp (Node.position_mem_identities.mpr hp)
    exact hpcolumn

/-- **A node that is recalled leaves the merger as it is.** -/
theorem sameAs_sighted (hm : m.WellFormed) (hshows : m.Recognisable) (hexhibits : m.Exhibits)
    (hord : n.subgraph = none) (hidentity : n.hasIdentity = true) :
    (m.sighting n).recognition.isRepeat = true ∧ (m.sighted n).SameAs m := by
  have hcandidate {a : Nat} (ha : a ∈ m.candidates n) : a = c := by
    rw [h.candidates_eq] at ha
    exact (List.mem_map.mp ha).choose_spec.2.symm
  have hregister {a : Nat} (hcand : m.candidates n = [a]) : (m.register n a).SameAs m := by
    obtain rfl : a = c := hcandidate (by simp [hcand])
    refine sameAs_register_of_known (hm.of_candidate (n := n) (by simp [hcand])).1
      (h.complete_eq hshows hexhibits hcand) fun i hi ↦ ?_
    rw [h.known_eq i hi]
    exact Option.some_ne_none a
  have hr := m.recognises n
  rw [sighting, sighted]
  generalize m.recognise n = r at hr ⊢
  cases hr with
  | root hord' =>
    rw [hord] at hord'
    cases hord'
  | @both a b hcand =>
    obtain rfl : a = c := hcandidate (by simp [hcand])
    obtain rfl : b = a := hcandidate (by simp [hcand])
    rw [settleAs, if_pos rfl]
    exact ⟨decide_eq_true rfl, SameAs.refl m⟩
  | path hcand => exact ⟨rfl, hregister hcand⟩
  | position hcand => exact ⟨rfl, hregister hcand⟩
  | fresh hcand =>
    rw [h.candidates_eq, List.map_eq_nil_iff] at hcand
    exact absurd hcand (Node.hasIdentity_iff.mp hidentity)

end Recalls

/-- **Nodes that are recalled leave the merger as it is**, one after the other. -/
theorem sameAs_foldl_sighted_of_recalls (ns : List Node) (hm : m.WellFormed)
    (hshows : m.Recognisable) (hexhibits : m.Exhibits)
    (hns : ∀ n ∈ ns, n.subgraph = none ∧ n.hasIdentity = true ∧ ∃ c, m.Recalls n c) :
    (∀ x ∈ m.sightings ns, x.recognition.isRepeat = true) ∧ (ns.foldl sighted m).SameAs m := by
  induction ns generalizing m with
  | nil => exact ⟨fun x hx ↦ (nomatch hx), SameAs.refl m⟩
  | cons n ns ih =>
    obtain ⟨hord, hidentity, c, hrecalls⟩ := hns n List.mem_cons_self
    obtain ⟨hrepeat, hfirst⟩ := hrecalls.sameAs_sighted hm hshows hexhibits hord hidentity
    obtain ⟨hrepeats, hrest⟩ := ih (hm.sighted n) (hshows.settleAs hm (m.recognises n))
      (hexhibits.settleAs hm (m.recognises n)) fun k hk ↦ by
        obtain ⟨hkord, hkidentity, c, hk⟩ := hns k (List.mem_cons_of_mem _ hk)
        exact ⟨hkord, hkidentity, c, hk.mono hm hkidentity (.of_sameAs hfirst)⟩
    refine ⟨fun x hx ↦ ?_, hrest.trans hfirst⟩
    rcases List.mem_cons.mp hx with rfl | hx
    · exact hrepeat
    · exact hrepeats x hx

/-! ### What a run remembers -/

namespace Runs

variable (run : empty.Runs steps m)

include run

/-- **Every identity of a sighting without an ordinal is known under its class**, whatever ordinals
other nodes have. -/
theorem known_eq_of_sighting (hx : x ∈ steps.flatMap Step.sightings) (hord : x.node.subgraph = none)
    (hi : i ∈ x.node.identities) : m.known? i = some (m.forest.find x.slot) := by
  let P (m : Merger) (past : List Sighting) : Prop := ∀ x ∈ past, x.node.subgraph = none →
    ∀ i ∈ x.node.identities, m.known? i = some (m.forest.find x.slot)
  have hstart : P empty [] := fun _ hx ↦ nomatch hx
  refine run.preserves (P := P) wellFormed_empty hstart
    (fun {m past s n} _ _ hm h x hx hord i hi ↦ ?_)
    (fun {m past slot uses owns} _ _ h x hx hord i hi ↦ ?_) x hx hord i hi
  · rcases List.mem_append.mp hx with hx | hx
    · exact known?_sighted_of_eq hm n (h x hx hord i hi)
    · obtain rfl := List.mem_singleton.mp hx
      have hnew : n.subgraph = none := hord
      rw [known?_sighted hm hnew, if_pos (show i ∈ n.identities from hi), find_slot_sighting hm]
  · rw [known?, indexed?_addEdges, forest_addEdges]
    exact h x hx hord i hi

/-- **Whatever came later, a sighting without an ordinal is recalled.** -/
theorem recalls (hx : x ∈ steps.flatMap Step.sightings) (hord : x.node.subgraph = none) :
    m.Recalls x.node (m.forest.find x.slot) where
  known_eq _ hi := run.known_eq_of_sighting hx hord hi
  type_isSome hpartial := by
    refine (run.describes wellFormed_empty describes_empty).type_isSome hx ?_
    -- it takes two identities to be recognised without being registered
    obtain ⟨k, hmade⟩ := run.exists_sighting_eq wellFormed_empty hx
    rw [← hmade]
    show (k.recognise x.node).completes = true
    have hr := k.recognises x.node
    generalize k.recognise x.node = r at hr ⊢
    cases hr with
    | root hord' =>
      rw [hord] at hord'
      cases hord'
    | both hcand =>
      have htwo : (k.candidates x.node).length ≤ x.node.identities.length :=
        List.length_filterMap_le _ _
      rw [hcand, Node.identities] at htwo
      rcases hpartial with hpath | hposition
      · cases hposition : x.node.stablePosition <;> simp [hpath, hposition] at htwo
      · cases hpath : x.node.stablePath <;> simp [hpath, hposition] at htwo
    | path | position | fresh => rfl

end Runs

/-! ### The second merge -/

/-- **The root of a batch that was merged before** is recalled, or is new because it has no
identity. -/
theorem Runs.sighted_root (run : empty.Runs steps m) (hrecalls : m.Recalls root c)
    (hid : root.id = 0) (hord : root.subgraph = none) : m.LearnsNothing (m.sighted root)
      ∧ ((m.sighting root).count {}).unified = 0
      ∧ ((m.sighting root).count {}).added = (if !root.hasIdentity then 1 else 0)
      ∧ ((m.sighting root).count {}).rootEdges = (if !root.hasIdentity then 1 else 0) := by
  have hm := run.wellFormed wellFormed_empty
  cases hidentity : root.hasIdentity with
  | true =>
    obtain ⟨hrepeat, hsame⟩ :=
      hrecalls.sameAs_sighted hm run.recognisable run.exhibits hord hidentity
    obtain ⟨hadded, hunified, hroots⟩ := Recognition.count_of_isRepeat hrepeat {} root
    exact ⟨.of_sameAs hsame, hunified, hadded, hroots⟩
  | false =>
    have hfresh : m.recognise root = .fresh :=
        (m.recognise_anonymous_iff hidentity).mpr fun o ho ↦ by
      rw [hord] at ho
      cases ho
    rw [sighted_of_fresh hfresh, Sighting.count, sighting, hfresh]
    exact ⟨.allocate hm hidentity, rfl, rfl, if_pos hid⟩

/-- **A batch that was merged before is sighted again without anything learned.** -/
theorem Runs.learnsNothing_foldl_sighted (run : empty.Runs steps m) (hb : b ∈ steps.map Step.batch)
    (hord : ∀ n ∈ b.nodes, n.subgraph = none) : m.LearnsNothing (b.nodes.foldl sighted m)
      ∧ ((m.sightings b.nodes).foldl Sighting.count {}).unified = 0
      ∧ ((m.sightings b.nodes).foldl Sighting.count {}).added
        = (if b.hasAnonymousRoot then 1 else 0)
      ∧ ((m.sightings b.nodes).foldl Sighting.count {}).rootEdges
        = (if b.hasAnonymousRoot then 1 else 0) := by
  have hm := run.wellFormed wellFormed_empty
  obtain ⟨s, hs, rfl⟩ := List.mem_map.mp hb
  obtain ⟨-, haccepted, -, -⟩ := run.of_mem wellFormed_empty hs
  have hrecalls {n : Node} (hn : n ∈ s.batch.nodes) : ∃ c, m.Recalls n c := by
    obtain ⟨x, hx, rfl, -⟩ := run.exists_sighting wellFormed_empty hs hn
    exact ⟨_, run.recalls (List.mem_flatMap.mpr ⟨s, hs, hx⟩) (hord _ hn)⟩
  rw [Batch.hasAnonymousRoot]
  cases hnodes : s.batch.nodes with
  | nil => exact ⟨.of_sameAs (SameAs.refl m), rfl, rfl, rfl⟩
  | cons root rest =>
    have hmem {n : Node} (hn : n ∈ root :: rest) : n ∈ s.batch.nodes := hnodes ▸ hn
    obtain ⟨c, hrecallsRoot⟩ := hrecalls (hmem List.mem_cons_self)
    have hid : root.id = 0 := haccepted.id_eq (by rw [hnodes, List.getElem?_cons_zero])
    obtain ⟨hfirst, hunified, hadded, hroots⟩ :=
      run.sighted_root hrecallsRoot hid (hord root (hmem List.mem_cons_self))
    -- whatever became of the root, the other nodes are recalled
    obtain ⟨hrepeats, hsame⟩ := sameAs_foldl_sighted_of_recalls rest (hm.sighted root)
      (run.recognisable.settleAs hm (m.recognises root))
      (run.exhibits.settleAs hm (m.recognises root)) fun n hn ↦ by
        have hidentity := haccepted.hasIdentity_of_mem_tail hnodes hord hn
        obtain ⟨c, hc⟩ := hrecalls (hmem (List.mem_cons_of_mem _ hn))
        exact ⟨hord n (hmem (List.mem_cons_of_mem _ hn)), hidentity, c, hc.mono hm hidentity hfirst⟩
    obtain ⟨hadded', hunified', hroots'⟩ :=
      foldl_count_of_isRepeat hrepeats ((m.sighting root).count {})
    exact ⟨hfirst.trans (.of_sameAs hsame), hunified'.trans hunified, hadded'.trans hadded,
      hroots'.trans hroots⟩

/-- **Merging a batch a second time learns nothing.** Take a merger that accepted batches were
merged into, whatever ordinals they carry, and one of the batches that has no ordinals. The batch is
merged again without joining any declarations. It adds one declaration and one use of the root of
the graph if its own root has no identity, and nothing otherwise. Identities are looked up to what
they were; slots keep their numbers; and nodes keep their ids and whatever they say and show, and at
most gain edges. -/
theorem merge_mergedBefore {bs : List Batch} (hmerged : (empty.mergeAll bs).result = .ok m)
    (hb : b ∈ bs) (hord : ∀ n ∈ b.nodes, n.subgraph = none) :
    ∃ merged, m.merge b = .ok merged ∧ merged.report.unified = 0
      ∧ merged.report.added = (if b.hasAnonymousRoot then 1 else 0)
      ∧ merged.report.rootEdges = (if b.hasAnonymousRoot then 1 else 0)
      ∧ (∀ i, merged.merger.graph.lookup i = m.graph.lookup i)
      ∧ (∀ slot id, slot < m.slots.size → (merged.merger.HasNumber slot id ↔ m.HasNumber slot id))
      ∧ ∀ id n, m.graph.node? id = some n →
        ∃ n', merged.merger.graph.node? id = some n' ∧ n.GrowsTo n' := by
  obtain ⟨steps, rfl, run⟩ := mergeAll_eq_ok_iff.mp hmerged
  have hm := run.wellFormed wellFormed_empty
  have hm' := hm.mergeSound b
  have haccepted : b.Accepted := by
    obtain ⟨s, hs, rfl⟩ := List.mem_map.mp hb
    exact (run.of_mem wellFormed_empty hs).2.1
  obtain ⟨hsighted, hreport⟩ := run.learnsNothing_foldl_sighted hb hord
  have hkept : m.LearnsNothing (m.mergeSound b).merger := by
    rw [merger_mergeSound]
    exact hsighted.trans (.connectAll (Merger.slotOf_lt hm b))
  rw [← report_mergeSound] at hreport
  obtain ⟨hunified, hadded, hroots⟩ := hreport
  exact ⟨m.mergeSound b, merge_eq_ok_iff.mpr ⟨haccepted, rfl⟩, hunified, hadded, hroots,
    hkept.lookup_eq hm hm', fun slot id hslot ↦ hkept.hasNumber_iff hm hm' hslot, fun id n hn ↦
      hkept.exists_node? hm hm' hn⟩

/-- The first of the three batches is merged again after the third has joined its type with that of
the second: only its root is added. -/
theorem merge_mergedBefore_bridged : ∃ m, (empty.mergeAll bridged).result = .ok m ∧ ∃ b ∈ bridged,
    b.hasAnonymousRoot = true ∧ (∀ n ∈ b.nodes, n.subgraph = none)
      ∧ ∃ merged, m.merge b = .ok merged ∧ merged.report.unified = 0 ∧ merged.report.added = 1
        ∧ merged.report.rootEdges = 1 ∧ ∀ i, merged.merger.graph.lookup i = m.graph.lookup i := by
  obtain ⟨steps, m, hsteps, run, -⟩ := UseGraph.exists_run_ofBatches check_bridged
  have hresult := mergeAll_eq_ok_iff.mpr ⟨steps, hsteps, run⟩
  obtain ⟨b, hb, hroot, hord⟩ :
      ∃ b ∈ bridged, b.hasAnonymousRoot = true ∧ ∀ n ∈ b.nodes, n.subgraph = none :=
    ⟨_, List.mem_cons_self, by decide, by decide⟩
  obtain ⟨merged, hmerge, hunified, hadded, hroots, hlookup, -, -⟩ :=
    merge_mergedBefore hresult hb hord
  rw [hroot] at hadded hroots
  exact ⟨m, hresult, b, hb, hroot, hord, merged, hmerge, hunified, hadded, hroots, hlookup⟩

end Merger

end DeclExtract
