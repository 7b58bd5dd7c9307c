import DeclExtract.Proofs.Merge.Graph
import DeclExtract.Proofs.Merge.Preservation

/-!
# What a slot says of its declaration

A slot is made for one sighting, and as long as it represents its class it goes on saying what that
sighting said: the name, the kind, and whether the declaration is exported. The named type may come
later. A sighting that is recognised by its path or by its position alone brings its named type
along if none is known yet, and when two classes are joined the named type of either is kept.

A sighting that is recognised by its path and by its position at once brings nothing along
(`Recognition.completes`): its identities are known already, and its named type is passed over with
them. So a declaration has a named type just when some sighting that completes it has one
(`Describes.type_isSome`, `Describes.exists_type`), and a type that only other sightings know is
lost (`UseGraph.namedType_lost`).
-/

namespace DeclExtract

/-- Whether a node that is recognised in this way fills in what its declaration lacks. -/
def Recognition.completes : Recognition → Bool
  | .root .. | .both .. => false
  | .path _ | .position _ | .fresh => true

/-- Whether a sighting filled in what its declaration lacked. -/
def Sighting.completes (x : Sighting) : Bool :=
  x.recognition.completes

namespace Merger

variable {m m' : Merger} {n : Node} {r : Recognition} {past listed : List Sighting} {x : Sighting}
  {a b slot : Nat}

/-! ### What the operations change -/

theorem alike_node_register (hslot : slot < m.slots.size) (s : Nat) :
    ((m.register n slot).node s).Alike (m.node s) := by
  rw [node_register hslot]
  split <;> exact ⟨rfl, rfl, rfl⟩

theorem namedType_node_register (hslot : slot < m.slots.size) (s : Nat) :
    ((m.register n slot).node s).namedType
      = if s = slot then (m.node s).namedType.or n.namedType else (m.node s).namedType := by
  rw [node_register hslot]
  split <;> rfl

theorem alike_node_unify (hne : a ≠ b) (ha : a < m.slots.size) (hb : b < m.slots.size) {s : Nat}
    (hs : s ≠ max a b) : ((m.unify a b).node s).Alike (m.node s) := by
  rw [node_unify hne ha hb, if_neg hs]
  split
  next hkeep => rw [hkeep]; exact ⟨rfl, rfl, rfl⟩
  next => exact ⟨rfl, rfl, rfl⟩

theorem namedType_node_unify (hne : a ≠ b) (ha : a < m.slots.size) (hb : b < m.slots.size) {s : Nat}
    (hs : s ≠ max a b) : ((m.unify a b).node s).namedType
      = if s = min a b then (m.node (min a b)).namedType.or (m.node (max a b)).namedType
        else (m.node s).namedType := by
  rw [node_unify hne ha hb, if_neg hs]
  split <;> rfl

theorem alike_node_extend (hpos : 0 < m.slots.size) {s : Nat} (hs : s ≠ m.slots.size) :
    ((m.extend n).node s).Alike (m.node s) := by
  rw [node_extend hpos, if_neg hs]
  split
  next hroot => rw [hroot.1]; exact ⟨rfl, rfl, rfl⟩
  next => exact ⟨rfl, rfl, rfl⟩

theorem namedType_node_extend (hpos : 0 < m.slots.size) {s : Nat} (hs : s ≠ m.slots.size) :
    ((m.extend n).node s).namedType = (m.node s).namedType := by
  rw [node_extend hpos, if_neg hs]
  split
  next hroot => rw [hroot.1]
  next => rfl

theorem alike_node_addEdges {uses owns : List Nat} (hslot : slot < m.slots.size) (s : Nat) :
    ((m.addEdges slot uses owns).node s).Alike (m.node s) := by
  rw [node_addEdges (Forest.find_lt hslot)]
  split <;> exact ⟨rfl, rfl, rfl⟩

theorem namedType_node_addEdges {uses owns : List Nat} (hslot : slot < m.slots.size) (s : Nat) :
    ((m.addEdges slot uses owns).node s).namedType = (m.node s).namedType := by
  rw [node_addEdges (Forest.find_lt hslot)]
  split <;> rfl

/-! ### The invariant -/

/-- **What slots say is what sightings said**: `past` are the sightings so far. -/
structure Describes (m : Merger) (past : List Sighting) : Prop where
  /-- A sighting has a slot of the merger. -/
  slot_lt : ∀ {x}, x ∈ past → x.slot < m.slots.size
  /-- The root of the graph stays what it is. -/
  root_alike : (m.node 0).Alike graphRoot
  /-- The root of the graph has no named type. -/
  root_type : (m.node 0).namedType = none
  /-- The slot of any other declaration says what the sighting said that it was made for. -/
  exists_fresh : ∀ {rep}, rep < m.slots.size → m.forest.find rep = rep → rep ≠ 0 →
    ∃ x ∈ past, x.recognition = .fresh ∧ x.slot = rep ∧ (m.node rep).Alike x.node
  /-- A named type was that of a sighting which completed the declaration. -/
  exists_type : ∀ {rep type}, m.forest.find rep = rep → (m.node rep).namedType = some type →
    ∃ x ∈ past, x.completes = true ∧ m.forest.find x.slot = rep ∧ x.node.namedType = some type
  /-- What completes a declaration leaves it with a named type if it has one. -/
  type_isSome : ∀ {x}, x ∈ past → x.completes = true → x.node.namedType.isSome = true →
    (m.node (m.forest.find x.slot)).namedType.isSome = true

theorem describes_empty : empty.Describes [] where
  slot_lt hx := nomatch hx
  root_alike := ⟨rfl, rfl, rfl⟩
  root_type := rfl
  exists_fresh {rep} hlt _ hrep := absurd (Nat.lt_one_iff.mp hlt) hrep
  exists_type {rep type} _ htype := by
    rw [node_empty] at htype
    split at htype <;> cases htype
  type_isSome hx := nomatch hx

namespace Describes

/-- Only the members of the list of sightings matter. -/
theorem congr_mem (h : m.Describes past) (hmem : ∀ x, x ∈ listed ↔ x ∈ past) :
    m.Describes listed where
  slot_lt hx := h.slot_lt ((hmem _).mp hx)
  root_alike := h.root_alike
  root_type := h.root_type
  exists_fresh hlt hfind hrep := by
    obtain ⟨x, hx, hdesc⟩ := h.exists_fresh hlt hfind hrep
    exact ⟨x, (hmem x).mpr hx, hdesc⟩
  exists_type hfind htype := by
    obtain ⟨x, hx, hdesc⟩ := h.exists_type hfind htype
    exact ⟨x, (hmem x).mpr hx, hdesc⟩
  type_isSome hx := h.type_isSome ((hmem _).mp hx)

/-- A sighting that completes nothing may be put down without a change. -/
theorem append (h : m.Describes past) (hslot : x.slot < m.slots.size) (hx : x.completes = false) :
    m.Describes (past ++ [x]) where
  slot_lt hy := by
    rcases List.mem_append.mp hy with hy | hy
    · exact h.slot_lt hy
    · rwa [List.mem_singleton.mp hy]
  root_alike := h.root_alike
  root_type := h.root_type
  exists_fresh hlt hfind hrep := by
    obtain ⟨y, hy, hdesc⟩ := h.exists_fresh hlt hfind hrep
    exact ⟨y, List.mem_append_left _ hy, hdesc⟩
  exists_type hfind htype := by
    obtain ⟨y, hy, hdesc⟩ := h.exists_type hfind htype
    exact ⟨y, List.mem_append_left _ hy, hdesc⟩
  type_isSome {y} hy hcompletes := by
    rcases List.mem_append.mp hy with hy | hy
    · exact h.type_isSome hy hcompletes
    · rw [List.mem_singleton.mp hy, hx] at hcompletes
      cases hcompletes

/-- A sighting completes the declaration that it is registered for. -/
theorem register (h : m.Describes past) (hslot : x.slot < m.slots.size)
    (hfind : m.forest.find x.slot = x.slot) (hroot : x.slot ≠ 0) (hx : x.completes = true) :
    (m.register x.node x.slot).Describes (past ++ [x]) where
  slot_lt {y} hy := by
    rw [size_slots_register]
    rcases List.mem_append.mp hy with hy | hy
    · exact h.slot_lt hy
    · rwa [List.mem_singleton.mp hy]
  root_alike := (alike_node_register hslot 0).trans h.root_alike
  root_type := by
    rw [namedType_node_register hslot, if_neg hroot.symm]
    exact h.root_type
  exists_fresh {rep} hlt hrep hne := by
    rw [size_slots_register] at hlt
    obtain ⟨y, hy, hfresh, hslot', halike⟩ := h.exists_fresh hlt hrep hne
    exact ⟨y, List.mem_append_left _ hy, hfresh, hslot',
      (alike_node_register hslot rep).trans halike⟩
  exists_type {rep type} hrep htype := by
    have hold (hknown : (m.node rep).namedType = some type) := h.exists_type hrep hknown
    rw [namedType_node_register hslot] at htype
    split at htype
    next heq =>
      -- the type was known before, or it is that of the sighting
      rcases Option.or_eq_some_iff.mp htype with hknown | ⟨-, hnew⟩
      · obtain ⟨y, hy, hdesc⟩ := hold hknown
        exact ⟨y, List.mem_append_left _ hy, hdesc⟩
      · exact ⟨x, List.mem_append_right _ List.mem_cons_self, hx, hfind.trans heq.symm, hnew⟩
    next =>
      obtain ⟨y, hy, hdesc⟩ := hold htype
      exact ⟨y, List.mem_append_left _ hy, hdesc⟩
  type_isSome {y} hy hcompletes htype := by
    rw [forest_register, namedType_node_register hslot]
    rcases List.mem_append.mp hy with hy | hy
    · have hold := h.type_isSome hy hcompletes htype
      split
      next => rw [Option.isSome_or, hold, Bool.true_or]
      next => exact hold
    · obtain rfl := List.mem_singleton.mp hy
      rw [if_pos hfind, Option.isSome_or, htype, Bool.or_true]

section

variable (h : m.Describes past) (hm : m.WellFormed) (hne : a ≠ b)
  (ha : a < m.slots.size ∧ m.forest.find a = a) (hb : b < m.slots.size ∧ m.forest.find b = b)

include h hm hne ha hb

/-- A named type of the joined class was that of either class, and of a sighting in it. -/
theorem exists_type_unify {rep : Nat} {type : NamedType}
    (hself : (m.unify a b).forest.find rep = rep)
    (htype : ((m.unify a b).node rep).namedType = some type) : ∃ x ∈ past, x.completes = true
      ∧ (m.unify a b).forest.find x.slot = rep ∧ x.node.namedType = some type := by
  obtain ⟨hold, hgone⟩ := hm.find_eq_of_unify hne ha hb hself
  -- the class of the type's sighting is still that of `rep`, or has been joined to it
  have hclass {c : Nat} (hc : m.forest.find c = c)
      (hjoined : c = rep ∨ (c = max a b ∧ rep = min a b))
      (hknown : (m.node c).namedType = some type) : ∃ x ∈ past, x.completes = true
        ∧ (m.unify a b).forest.find x.slot = rep ∧ x.node.namedType = some type := by
    obtain ⟨x, hx, hcompletes, hfindx, htypex⟩ := h.exists_type hc hknown
    refine ⟨x, hx, hcompletes, ?_, htypex⟩
    rw [hm.find_unify hne ha hb, hfindx]
    rcases hjoined with rfl | ⟨rfl, rfl⟩
    · rw [if_neg hgone]
    · rw [if_pos rfl]
  have hmin : m.forest.find (min a b) = min a b := min_rec' (fun c ↦ m.forest.find c = c) ha.2 hb.2
  have hmax : m.forest.find (max a b) = max a b := max_rec' (fun c ↦ m.forest.find c = c) ha.2 hb.2
  rw [namedType_node_unify hne ha.1 hb.1 hgone] at htype
  split at htype
  next heq =>
    rcases Option.or_eq_some_iff.mp htype with hknown | ⟨-, hknown⟩
    · exact hclass hmin (Or.inl heq.symm) hknown
    · exact hclass hmax (Or.inr ⟨rfl, heq⟩) hknown
  next => exact hclass hold (Or.inl rfl) htype

/-- A named type of a class is not lost when the class is joined to another one. -/
theorem type_isSome_unify (hx : x ∈ past) (hcompletes : x.completes = true)
    (htype : x.node.namedType.isSome = true) :
    ((m.unify a b).node ((m.unify a b).forest.find x.slot)).namedType.isSome = true := by
  have hold := h.type_isSome hx hcompletes htype
  have hlt : min a b < max a b := by omega
  rw [hm.find_unify hne ha hb]
  split
  next hgone =>
    rw [hgone] at hold
    rw [namedType_node_unify hne ha.1 hb.1 (Nat.ne_of_lt hlt), if_pos rfl, Option.isSome_or, hold,
      Bool.or_true]
  next hgone =>
    rw [namedType_node_unify hne ha.1 hb.1 hgone]
    split
    next heq => rw [Option.isSome_or, ← heq, hold, Bool.true_or]
    next => exact hold

/-- When two classes are joined, the representative of both says what the older one said, and keeps
the named type of either. -/
theorem unify (hroot : max a b ≠ 0) (hkeep : min a b ≠ 0) : (m.unify a b).Describes past where
  slot_lt hx := by
    rw [size_slots_unify]
    exact h.slot_lt hx
  root_alike := (alike_node_unify hne ha.1 hb.1 hroot.symm).trans h.root_alike
  root_type := by
    rw [namedType_node_unify hne ha.1 hb.1 hroot.symm, if_neg hkeep.symm]
    exact h.root_type
  exists_fresh hlt hself hne' := by
    rw [size_slots_unify] at hlt
    obtain ⟨hold, hgone⟩ := hm.find_eq_of_unify hne ha hb hself
    obtain ⟨x, hx, hfresh, hslot, halike⟩ := h.exists_fresh hlt hold hne'
    exact ⟨x, hx, hfresh, hslot, (alike_node_unify hne ha.1 hb.1 hgone).trans halike⟩
  exists_type := h.exists_type_unify hm hne ha hb
  type_isSome := h.type_isSome_unify hm hne ha hb

end

/-- A new slot says what the sighting says that it is made for. -/
theorem extend (h : m.Describes past) (hm : m.WellFormed) (n : Node) :
    (m.extend n).Describes (past ++ [⟨n, .fresh, m.slots.size⟩]) := by
  have hpos := hm.slots_pos
  have hself : m.forest.find m.slots.size = m.slots.size :=
    Forest.find_of_size_le (Nat.le_of_eq hm.size_forest)
  have hnew : (m.extend n).node m.slots.size = m.settle n m.slots.size := by
    rw [node_extend hpos, if_pos rfl]
  -- an older sighting is in the class of an older slot
  have hold {y : Sighting} (hy : y ∈ past) : m.forest.find y.slot ≠ m.slots.size :=
    Nat.ne_of_lt (Forest.find_lt (h.slot_lt hy))
  exact {
    slot_lt := fun hy ↦ by
      rw [size_slots_extend]
      rcases List.mem_append.mp hy with hy | hy
      · exact Nat.lt_succ_of_lt (h.slot_lt hy)
      · rw [List.mem_singleton.mp hy]
        exact Nat.lt_succ_self _
    root_alike := (alike_node_extend hpos (Nat.ne_of_lt hpos)).trans h.root_alike
    root_type := (namedType_node_extend hpos (Nat.ne_of_lt hpos)).trans h.root_type
    exists_fresh := fun {rep} hlt hrep hne ↦ by
      rw [size_slots_extend] at hlt
      rw [forest_extend, Forest.find_grow] at hrep
      by_cases heq : rep = m.slots.size
      · refine ⟨_, List.mem_append_right _ List.mem_cons_self, rfl, heq.symm, ?_⟩
        rw [heq, hnew]
        exact ⟨rfl, rfl, rfl⟩
      · obtain ⟨y, hy, hfresh, hslot, halike⟩ := h.exists_fresh (by omega) hrep hne
        exact ⟨y, List.mem_append_left _ hy, hfresh, hslot,
          (alike_node_extend hpos heq).trans halike⟩
    exists_type := fun {rep type} hrep htype ↦ by
      rw [forest_extend, Forest.find_grow] at hrep
      by_cases heq : rep = m.slots.size
      · rw [heq, hnew] at htype
        refine ⟨_, List.mem_append_right _ List.mem_cons_self, rfl, ?_, htype⟩
        rw [forest_extend, Forest.find_grow, hself, heq]
      · rw [namedType_node_extend hpos heq] at htype
        obtain ⟨y, hy, hcompletes, hfind, htypey⟩ := h.exists_type hrep htype
        refine ⟨y, List.mem_append_left _ hy, hcompletes, ?_, htypey⟩
        rw [forest_extend, Forest.find_grow, hfind]
    type_isSome := fun {y} hy hcompletes htype ↦ by
      rw [forest_extend, Forest.find_grow]
      rcases List.mem_append.mp hy with hy | hy
      · rw [namedType_node_extend hpos (hold hy)]
        exact h.type_isSome hy hcompletes htype
      · rw [List.mem_singleton.mp hy] at htype ⊢
        rw [hself, hnew]
        exact htype }

/-- Edges change nothing of what slots say. -/
theorem addEdges {uses owns : List Nat} (h : m.Describes past) (hslot : slot < m.slots.size) :
    (m.addEdges slot uses owns).Describes past where
  slot_lt hx := by
    rw [size_slots_addEdges]
    exact h.slot_lt hx
  root_alike := (alike_node_addEdges hslot 0).trans h.root_alike
  root_type := (namedType_node_addEdges hslot 0).trans h.root_type
  exists_fresh {rep} hlt hfind hrep := by
    rw [size_slots_addEdges] at hlt
    obtain ⟨x, hx, hfresh, hslot', halike⟩ := h.exists_fresh hlt hfind hrep
    exact ⟨x, hx, hfresh, hslot', (alike_node_addEdges hslot rep).trans halike⟩
  exists_type hfind htype := by
    rw [namedType_node_addEdges hslot] at htype
    exact h.exists_type hfind htype
  type_isSome hx hcompletes htype := by
    rw [forest_addEdges, namedType_node_addEdges hslot]
    exact h.type_isSome hx hcompletes htype

/-- **However a node is recognised, slots say what sightings said.** -/
theorem settleAs (h : m.Describes past) (hm : m.WellFormed) (hr : Recognises m n r) :
    (m.settleAs n r).1.Describes (past ++ [⟨n, r, (m.settleAs n r).2⟩]) := by
  have hroot {c : Nat} (hc : c ∈ m.candidates n) : c ≠ 0 := fun hzero ↦
    (hm.of_candidate hc).2.2 (hzero ▸ hm.root_mem)
  have hslot := (slot_settleAs hm hr).1
  cases hr with
  | root => exact h.append hslot rfl
  | @both a b hcand =>
    obtain ⟨ha, hb⟩ := of_candidates_eq hm hcand
    have hazero : a ≠ 0 := hroot (by simp [hcand])
    have hbzero : b ≠ 0 := hroot (by simp [hcand])
    refine append ?_ hslot rfl
    rw [Merger.settleAs]
    split
    next => exact h
    next hne => exact h.unify hm hne ha hb (by omega) (by omega)
  | @path a hcand =>
    obtain ⟨hlt, hfind, -⟩ := hm.of_candidate (n := n) (c := a) (by simp [hcand])
    exact h.register (x := ⟨n, .path a, a⟩) hlt hfind (hroot (by simp [hcand])) rfl
  | @position a hcand =>
    obtain ⟨hlt, hfind, -⟩ := hm.of_candidate (n := n) (c := a) (by simp [hcand])
    exact h.register (x := ⟨n, .position a, a⟩) hlt hfind (hroot (by simp [hcand])) rfl
  | fresh =>
    have hself : (m.extend n).forest.find m.slots.size = m.slots.size := by
      rw [forest_extend, Forest.find_grow]
      exact Forest.find_of_size_le (Nat.le_of_eq hm.size_forest)
    have hregister := (h.extend hm n).register (x := ⟨n, .fresh, m.slots.size⟩)
      (by rw [size_slots_extend]; exact Nat.lt_succ_self _) hself (Nat.ne_of_gt hm.slots_pos) rfl
    exact hregister.congr_mem fun y ↦ by simp [Merger.settleAs]

end Describes

/-- **What a run ends with describes all of its sightings.** -/
theorem Runs.describes {steps : List Step} (run : m.Runs steps m') (hm : m.WellFormed)
    (h : m.Describes past) : m'.Describes (past ++ steps.flatMap Step.sightings) :=
  run.preserves hm h (fun _ _ hm h ↦ h.settleAs hm (recognises _ _)) fun _ hslot h ↦
    h.addEdges hslot

/-- **Nothing makes a named type up**: where no node of the batches has one, no node of the graph
has one. -/
theorem Runs.namedType_eq_none {steps : List Step} (run : empty.Runs steps m)
    (huntyped : ∀ s ∈ steps, ∀ k ∈ s.batch.nodes, k.namedType = none) {id : Nat}
    (hn : m.graph.node? id = some n) : n.namedType = none := by
  obtain ⟨rep, -, hself, -, rfl⟩ := (run.wellFormed wellFormed_empty).exists_representative hn
  refine Option.eq_none_iff_forall_ne_some.mpr fun type htype ↦ ?_
  obtain ⟨x, hx, -, -, hxtype⟩ :=
    (run.describes wellFormed_empty describes_empty).exists_type hself htype
  obtain ⟨s, hs, hxs⟩ := List.mem_flatMap.mp hx
  rw [huntyped s hs x.node (node_mem_of_mem_sightings hxs)] at hxtype
  cases hxtype

/-- In the graph of a run the root is a root, and nothing is looked up to it. -/
theorem WellFormed.rooted_graph (hm : m.WellFormed) (h : m.Describes past) : m.graph.Rooted where
  exists_root := ⟨_, hm.node?_graph_zero, h.root_alike.kind⟩
  lookup_ne i hi := by
    rw [hm.lookup_graph_known] at hi
    obtain ⟨c, hknown, hrank⟩ := Option.map_eq_some_iff.mp hi
    obtain ⟨hlt, hfind, hroot⟩ := hm.of_known hknown
    rw [← hm.rank_zero, hm.rank_inj hlt, hfind, Forest.find_zero] at hrank
    exact hroot (hrank ▸ hm.root_mem)

end Merger

/-- A finished graph has a root. -/
theorem UseGraph.rooted_of_ofBatches {bs : List Batch} {g : UseGraph}
    (hg : (ofBatches bs).result = .ok g) : g.Rooted := by
  obtain ⟨steps, m, -, run, rfl⟩ := ofBatches_eq_ok_iff.mp hg
  have hm := run.wellFormed Merger.wellFormed_empty
  exact hm.rooted_graph (run.describes Merger.wellFormed_empty Merger.describes_empty)

end DeclExtract
