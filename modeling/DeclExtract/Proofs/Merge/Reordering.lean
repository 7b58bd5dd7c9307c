import DeclExtract.Proofs.Merge.Components
import DeclExtract.Proofs.Merge.Contents
import DeclExtract.Proofs.Selection.Correspondence

/-!
# The order of batches

Two runs that merge the same batches in different orders allocate other slots, join other classes
and keep other survivors. What they end with corresponds all the same, provided that connected
sightings agree on what is declared: if they do not, the first of them decides, and which one that
is depends on the order.

A run takes each batch to sightings, and the sightings of two runs over the same batches come in
pairs (`exists_pairs`). Two sightings of one run are in one class just when their partners are in
one class of the other (`Reordered.rank_eq_of_rank_eq`), because both runs find the components of
what was seen. So pairs of sightings pair the ids of the graphs, and the graphs correspond
(`Reordered.corresponds`): names and kinds because connected sightings agree, edges because both
graphs have the edges of the batches. The edges of the root are the one thing that differs, since a
root is used when it is new, and which sighting is new depends on the order.

The main statement is `UseGraph.ofBatches_perm`.
-/

namespace DeclExtract

/-- Nodes that a chain of links connects agree on what is declared. -/
def Unanimous (seen : List Node) : Prop :=
  ∀ n ∈ seen, ∀ k ∈ seen, Connected seen n k → n.Agrees k

/-- It suffices that linked nodes agree. -/
theorem unanimous_of_linked {seen : List Node}
    (h : ∀ n ∈ seen, ∀ k ∈ seen, n.Linked k → n.Agrees k) : Unanimous seen := by
  intro n _ k _ hconnected
  induction hconnected with
  | refl => exact Node.Agrees.refl n
  | tail _ hstep ih =>
    obtain ⟨hleft, hright, hlinked⟩ := hstep
    exact (ih hleft).trans (h _ hleft _ hright hlinked)

theorem Unanimous.perm {seen listed : List Node} (h : Unanimous seen) (hperm : seen.Perm listed) :
    Unanimous listed := fun n hn k hk hconnected ↦
  h n (hperm.mem_iff.mpr hn) k (hperm.mem_iff.mpr hk) (hconnected.mono fun _ ↦ hperm.mem_iff.mpr)

/-- The sightings without identity. -/
def anonymous (past : List Sighting) : List Sighting :=
  past.filter fun x ↦ !x.node.hasIdentity

theorem mem_anonymous {past : List Sighting} {x : Sighting} :
    x ∈ anonymous past ↔ x ∈ past ∧ x.node.hasIdentity = false := by
  rw [anonymous, List.mem_filter, Bool.not_eq_true']

namespace Merger

variable {m : Merger} {past : List Sighting} {steps : List Step} {x y : Sighting} {id : Nat}

/-! ### What a run without ordinals ends with -/

/-- **A run gives a slot of its own to every sighting without identity**, in the order of the
sightings. -/
theorem Runs.anonymousRoots_eq (run : empty.Runs steps m)
    (hord : ∀ s ∈ steps, ∀ n ∈ s.batch.nodes, n.subgraph = none) :
    m.anonymousRoots.toList
      = 0 :: (anonymous (steps.flatMap Step.sightings)).map Sighting.slot := by
  let P (m : Merger) (past : List Sighting) : Prop :=
    m.anonymousRoots.toList = 0 :: (anonymous past).map Sighting.slot
  have hstart : P empty [] := rfl
  refine run.preserves wellFormed_empty hstart ?_ fun _ _ h ↦ h
  intro m past s n hs hn _ h
  show (m.sighted n).anonymousRoots.toList
    = 0 :: (anonymous (past ++ [m.sighting n])).map Sighting.slot
  rw [anonymous, List.filter_append, List.map_append, ← List.cons_append, ← anonymous, ← h]
  rcases m.sighted_cases (hord s hs n hn) with ⟨hidentity, -, -, hroots⟩ | ⟨-, hslot, -, hroots⟩
  · rw [hroots]
    simp [sighting, hidentity]
  · rw [hroots, ← hslot]
    by_cases hidentity : n.hasIdentity = true <;> simp [sighting, hidentity]

namespace Reflects

variable (h : m.Reflects past) (hm : m.WellFormed)
  (hroots : m.anonymousRoots.toList = 0 :: (anonymous past).map Sighting.slot)

include h hm hroots

/-- A sighting is in a class of an anonymous root just when it has no identity. -/
theorem find_mem_roots_iff (hx : x ∈ past) :
    m.forest.find x.slot ∈ m.anonymousRoots ↔ x.node.hasIdentity = false := by
  constructor
  · intro hroot
    by_contra hidentity
    obtain ⟨i, hi⟩ := Node.exists_identity (Bool.eq_true_of_not_eq_false hidentity)
    exact hm.known_not_root (h.known_eq hx hi) hroot
  · intro hidentity
    have hroot : x.slot ∈ m.anonymousRoots := by
      rw [← Array.mem_toList_iff, hroots]
      exact List.mem_cons_of_mem _ (List.mem_map_of_mem (mem_anonymous.mpr ⟨hx, hidentity⟩))
    rwa [hm.find_root hroot]

/-- A sighting without identity is in the class of its slot alone. -/
theorem find_eq_iff_of_anonymous (hx : x ∈ past) (hidentity : x.node.hasIdentity = false)
    {slot : Nat} : m.forest.find slot = m.forest.find x.slot ↔ slot = x.slot := by
  have hroot := (h.find_mem_roots_iff hm hroots hx).mpr hidentity
  have hself : m.forest.find x.slot = x.slot := ((hm.find_eq_root hroot).mp rfl).symm
  rw [hself] at hroot ⊢
  exact hm.find_eq_root hroot

/-- A sighting with an identity is in the class of the sightings that it is connected to. -/
theorem find_eq_iff_of_hasIdentity (hx : x ∈ past) (hy : y ∈ past)
    (hxi : x.node.hasIdentity = true) :
    m.forest.find x.slot = m.forest.find y.slot ↔
      Connected (past.map Sighting.node) x.node y.node := by
  constructor
  · intro hfind
    have hyi : y.node.hasIdentity = true := by
      refine Bool.eq_true_of_not_eq_false fun hnone ↦ ?_
      rw [← h.find_mem_roots_iff hm hroots hy, ← hfind, h.find_mem_roots_iff hm hroots hx,
        hxi] at hnone
      cases hnone
    exact (h.find_eq_iff hx hy hxi hyi).mp hfind
  · intro hconnected
    exact (h.find_eq_iff hx hy hxi (hconnected.hasIdentity hxi)).mpr hconnected

end Reflects

/-- **A merger and what it has seen**, all of which agrees, in a run without ordinals. -/
structure Collects (m : Merger) (past : List Sighting) : Prop where
  wellFormed : m.WellFormed
  reflects : m.Reflects past
  describes : m.Describes past
  roots : m.anonymousRoots.toList = 0 :: (anonymous past).map Sighting.slot
  unanimous : Unanimous (past.map Sighting.node)

theorem Runs.collects (run : empty.Runs steps m)
    (hord : ∀ s ∈ steps, ∀ n ∈ s.batch.nodes, n.subgraph = none)
    (hagree : Unanimous ((steps.map Step.batch).flatMap Batch.nodes)) :
    m.Collects (steps.flatMap Step.sightings) where
  wellFormed := run.wellFormed wellFormed_empty
  reflects := run.reflects reflects_empty wellFormed_empty hord
  describes := run.describes wellFormed_empty describes_empty
  roots := run.anonymousRoots_eq hord
  unanimous := by rwa [map_node_flatMap_sightings]

namespace Collects

variable (h : m.Collects past)

include h

/-- A sighting is in a class of an anonymous root just when it has no identity. -/
theorem find_mem_roots_iff (hx : x ∈ past) :
    m.forest.find x.slot ∈ m.anonymousRoots ↔ x.node.hasIdentity = false :=
  h.reflects.find_mem_roots_iff h.wellFormed h.roots hx

/-- The slots of the sightings without identity differ, and none is that of the root. -/
theorem nodup_slots :
    (0 :: (anonymous past).map Sighting.slot).Nodup :=
  h.roots ▸ h.wellFormed.nodup_roots

/-- No sighting is in the class of the root. -/
theorem find_ne_zero (hx : x ∈ past) : m.forest.find x.slot ≠ 0 := by
  intro hzero
  have hidentity := (h.find_mem_roots_iff hx).mp (hzero ▸ h.wellFormed.root_mem)
  have hslot : x.slot = 0 := (h.wellFormed.find_eq_root h.wellFormed.root_mem).mp hzero
  exact (List.nodup_cons.mp h.nodup_slots).1
    (hslot ▸ List.mem_map_of_mem (mem_anonymous.mpr ⟨hx, hidentity⟩))

/-- A sighting without identity is in the class of its slot alone. -/
theorem find_eq_iff_of_anonymous (hx : x ∈ past)
    (hidentity : x.node.hasIdentity = false) {slot : Nat} :
    m.forest.find slot = m.forest.find x.slot ↔ slot = x.slot :=
  h.reflects.find_eq_iff_of_anonymous h.wellFormed h.roots hx hidentity

/-- Of the sightings in one class all have an identity, or none has. -/
theorem anonymous_iff_of_find_eq (hx : x ∈ past) (hy : y ∈ past)
    (hfind : m.forest.find x.slot = m.forest.find y.slot) :
    x.node.hasIdentity = false ↔ y.node.hasIdentity = false := by
  rw [← h.find_mem_roots_iff hx, hfind, h.find_mem_roots_iff hy]

/-- Sightings in one class agree on what is declared. -/
theorem agrees_of_find_eq (hx : x ∈ past) (hy : y ∈ past)
    (hfind : m.forest.find x.slot = m.forest.find y.slot) : x.node.Agrees y.node := by
  have hidentity := h.anonymous_iff_of_find_eq hx hy hfind
  by_cases hxi : x.node.hasIdentity = false
  · -- a sighting without identity is alone in its class
    have hslot : y.slot = x.slot := (h.find_eq_iff_of_anonymous hx hxi).mp hfind.symm
    rw [List.inj_on_of_nodup_map (List.nodup_cons.mp h.nodup_slots).2
      (mem_anonymous.mpr ⟨hy, hidentity.mp hxi⟩) (mem_anonymous.mpr ⟨hx, hxi⟩) hslot]
    exact Node.Agrees.refl _
  · have hconnected := (h.reflects.find_eq_iff_of_hasIdentity h.wellFormed h.roots hx hy
      (Bool.eq_true_of_not_eq_false hxi)).mp hfind
    exact h.unanimous _ (List.mem_map_of_mem hx) _ (List.mem_map_of_mem hy) hconnected

/-- **A declaration says what its sightings say.** -/
theorem node_agrees (hx : x ∈ past) :
    (m.node (m.forest.find x.slot)).Agrees x.node := by
  have hself := m.forest.find_find x.slot
  have hlt := Forest.find_lt (f := m.forest) (h.describes.slot_lt hx)
  obtain ⟨y, hy, hfresh, hslot, halike⟩ := h.describes.exists_fresh hlt hself (h.find_ne_zero hx)
  have hyclass : m.forest.find y.slot = m.forest.find x.slot := by rw [hslot, hself]
  have hyx : y.node.Agrees x.node := h.agrees_of_find_eq hy hx hyclass
  refine ⟨halike.trans hyx.toAlike, ?_⟩
  cases htype : (m.node (m.forest.find x.slot)).namedType with
  | some type =>
    obtain ⟨z, hz, -, hfind, hzt⟩ := h.describes.exists_type hself htype
    rw [← hzt]
    exact (h.agrees_of_find_eq hz hx hfind).namedType
  | none =>
    -- the sighting that the slot was made for would have brought a named type along
    by_contra hsome
    rw [← hyx.namedType] at hsome
    have hkept := h.describes.type_isSome hy (by rw [Sighting.completes, hfresh]; rfl)
      (Option.isSome_iff_ne_none.mpr fun hnone ↦ hsome hnone.symm)
    rw [hyclass, htype] at hkept
    cases hkept

/-- A node of the graph is the root or the declaration of a sighting. -/
theorem exists_sighting (hid : id < m.graph.size) :
    id = 0 ∨ ∃ x ∈ past, m.forest.rank x.slot = id := by
  rw [h.wellFormed.size_graph] at hid
  obtain ⟨rep, hrep⟩ : ∃ rep, m.forest.representatives[id]? = some rep :=
    ⟨_, List.getElem?_eq_getElem hid⟩
  have hrank := Forest.rank_of_getElem?_representatives hrep
  have hmem : rep ∈ m.forest.representatives := List.mem_of_getElem? hrep
  by_cases hzero : rep = 0
  · left
    rw [← hrank, hzero, h.wellFormed.rank_zero]
  · obtain ⟨x, hx, -, hslot, -⟩ :=
      h.describes.exists_fresh (h.wellFormed.lt_of_mem_representatives hmem)
      (Forest.mem_representatives.mp hmem).2 hzero
    exact Or.inr ⟨x, hx, by rw [hslot, hrank]⟩

theorem rank_eq_iff (hx : x ∈ past) :
    m.forest.rank x.slot = m.forest.rank y.slot ↔ m.forest.find x.slot = m.forest.find y.slot :=
  h.wellFormed.rank_inj (h.describes.slot_lt hx)

theorem rank_ne_zero (hx : x ∈ past) : m.forest.rank x.slot ≠ 0 := by
  intro hzero
  rw [← h.wellFormed.rank_zero, h.wellFormed.rank_inj (h.describes.slot_lt hx),
    Forest.find_zero] at hzero
  exact h.find_ne_zero hx hzero

/-- A sighting's node in the graph agrees with it. -/
theorem exists_agrees (hx : x ∈ past) :
    ∃ n, m.graph.node? (m.forest.rank x.slot) = some n ∧ n.Agrees x.node :=
  ⟨_, h.wellFormed.node?_graph_rank (h.describes.slot_lt hx),
    (m.agrees_declaration _).trans (h.node_agrees hx)⟩

/-- The root of the graph is that of the empty merger. -/
theorem exists_agrees_root :
    ∃ n, m.graph.node? 0 = some n ∧ n.Agrees graphRoot :=
  ⟨_, h.wellFormed.node?_graph_zero,
    (m.agrees_declaration 0).trans ⟨h.describes.root_alike, h.describes.root_type⟩⟩

end Collects

end Merger

/-! ### Pairs of sightings -/

/-- Two steps with one batch whose sightings are paired, by the local ids of their nodes. -/
def Step.Paired (pairs : List (Sighting × Sighting)) (s s' : Step) : Prop :=
  s.batch = s'.batch ∧ ∀ localId < s.batch.size, ∃ p ∈ pairs,
    p.1.slot = s.merged.slotOf localId ∧ p.2.slot = s'.merged.slotOf localId

/-- **The sightings of the same batches, in pairs.** -/
structure Pairs (pairs : List (Sighting × Sighting)) (steps steps' : List Step) : Prop where
  node_eq : ∀ {p}, p ∈ pairs → p.1.node = p.2.node
  fst : (pairs.map Prod.fst).Perm (steps.flatMap Step.sightings)
  snd : (pairs.map Prod.snd).Perm (steps'.flatMap Step.sightings)
  exists_right : ∀ {s}, s ∈ steps → ∃ s' ∈ steps', s.Paired pairs s'
  exists_left : ∀ {s'}, s' ∈ steps' → ∃ s ∈ steps, s.Paired pairs s'

variable {steps steps' : List Step} {s s' : Step} {pairs more : List (Sighting × Sighting)}

theorem Step.Paired.symm (h : s.Paired pairs s') : s'.Paired (pairs.map Prod.swap) s := by
  refine ⟨h.1.symm, fun localId hlt ↦ ?_⟩
  obtain ⟨p, hp, hslot, hslot'⟩ := h.2 localId (h.1 ▸ hlt)
  exact ⟨p.swap, List.mem_map_of_mem hp, hslot', hslot⟩

theorem Step.Paired.mono (h : s.Paired pairs s') (hsub : ∀ p ∈ pairs, p ∈ more) :
    s.Paired more s' := by
  refine ⟨h.1, fun localId hlt ↦ ?_⟩
  obtain ⟨p, hp, hslots⟩ := h.2 localId hlt
  exact ⟨p, hsub p hp, hslots⟩

theorem Pairs.symm (h : Pairs pairs steps steps') : Pairs (pairs.map Prod.swap) steps' steps where
  node_eq hp := by
    obtain ⟨q, hq, rfl⟩ := List.mem_map.mp hp
    exact (h.node_eq hq).symm
  fst := by
    rw [List.map_map]
    exact h.snd
  snd := by
    rw [List.map_map]
    exact h.fst
  exists_right hs' := by
    obtain ⟨s, hs, hpaired⟩ := h.exists_left hs'
    exact ⟨s, hs, hpaired.symm⟩
  exists_left hs := by
    obtain ⟨s', hs', hpaired⟩ := h.exists_right hs
    exact ⟨s', hs', hpaired.symm⟩

/-- The sightings of two steps with one batch are paired one by one. -/
theorem Step.pairs_zip (hs : s.merged = s.before.mergeSound s.batch)
    (hs' : s'.merged = s'.before.mergeSound s'.batch) (hbatch : s.batch = s'.batch) :
    (∀ p ∈ s.sightings.zip s'.sightings, p.1.node = p.2.node)
      ∧ (s.sightings.zip s'.sightings).map Prod.fst = s.sightings
      ∧ (s.sightings.zip s'.sightings).map Prod.snd = s'.sightings
      ∧ s.Paired (s.sightings.zip s'.sightings) s' := by
  have hnodes : s.sightings.map Sighting.node = s'.sightings.map Sighting.node := by
    rw [sightings, sightings, Merger.map_node_sightings, Merger.map_node_sightings, hbatch]
  have hlength : s.sightings.length = s'.sightings.length := by
    rw [← List.length_map Sighting.node, hnodes, List.length_map]
  have hsize : s.sightings.length = s.batch.size := by
    rw [← List.length_map Sighting.node, sightings, Merger.map_node_sightings, Batch.size]
  refine ⟨fun p hp ↦ ?_, List.map_fst_zip (Nat.le_of_eq hlength),
    List.map_snd_zip (Nat.le_of_eq hlength.symm), hbatch, fun localId hlt ↦ ?_⟩
  · obtain ⟨index, hindex⟩ := List.mem_iff_getElem?.mp hp
    obtain ⟨hfst, hsnd⟩ := List.getElem?_zip_eq_some.mp hindex
    have hsame := congrArg (·[index]?) hnodes
    simpa [hfst, hsnd] using hsame
  · obtain ⟨x, hx⟩ : ∃ x, s.sightings[localId]? = some x :=
      ⟨_, List.getElem?_eq_getElem (hsize ▸ hlt)⟩
    obtain ⟨x', hx'⟩ : ∃ x', s'.sightings[localId]? = some x' :=
      ⟨_, List.getElem?_eq_getElem (hlength ▸ hsize ▸ hlt)⟩
    refine ⟨(x, x'), List.mem_of_getElem? (List.getElem?_zip_eq_some.mpr ⟨hx, hx'⟩), ?_, ?_⟩
    · rw [hs, Merger.slotOf_mergeSound hx]
    · rw [hs', Merger.slotOf_mergeSound hx']

/-- **Steps that merge the same batches have their sightings in pairs.** -/
theorem exists_pairs (h : ∀ s ∈ steps, s.merged = s.before.mergeSound s.batch)
    (h' : ∀ s' ∈ steps', s'.merged = s'.before.mergeSound s'.batch)
    (hperm : (steps.map Step.batch).Perm (steps'.map Step.batch)) :
    ∃ pairs, Pairs pairs steps steps' := by
  induction steps generalizing steps' with
  | nil =>
    obtain rfl : steps' = [] := List.map_eq_nil_iff.mp hperm.nil_eq.symm
    refine ⟨[], ⟨?_, .refl _, .refl _, ?_, ?_⟩⟩ <;> simp
  | cons s rest ih =>
    obtain ⟨s', hs', hbatch⟩ := List.mem_map.mp (hperm.subset List.mem_cons_self)
    obtain ⟨front, back, rfl⟩ := List.append_of_mem hs'
    have hmiddle : (front ++ s' :: back).Perm (s' :: (front ++ back)) := List.perm_middle
    have hrest : (rest.map Step.batch).Perm ((front ++ back).map Step.batch) := by
      have hcons := hperm.trans (hmiddle.map Step.batch)
      rw [List.map_cons, List.map_cons, hbatch] at hcons
      exact hcons.cons_inv
    obtain ⟨pairs, hpairs⟩ := ih (fun s hs ↦ h s (List.mem_cons_of_mem _ hs))
      (fun k hk ↦ h' k (hmiddle.mem_iff.mpr (List.mem_cons_of_mem _ hk))) hrest
    obtain ⟨hnode, hfst, hsnd, hpaired⟩ := Step.pairs_zip (h s List.mem_cons_self)
      (h' s' hs') hbatch.symm
    refine ⟨s.sightings.zip s'.sightings ++ pairs,
      ⟨fun hp ↦ ?_, ?_, ?_, fun {k} hk ↦ ?_, fun {k} hk ↦ ?_⟩⟩
    · rcases List.mem_append.mp hp with hp | hp
      · exact hnode _ hp
      · exact hpairs.node_eq hp
    · rw [List.map_append, hfst, List.flatMap_cons]
      exact hpairs.fst.append_left _
    · rw [List.map_append, hsnd]
      exact (hpairs.snd.append_left _).trans (hmiddle.flatMap_right Step.sightings).symm
    · rcases List.mem_cons.mp hk with rfl | hk
      · exact ⟨s', hs', hpaired.mono fun p ↦ List.mem_append_left _⟩
      · obtain ⟨k', hk', hpaired⟩ := hpairs.exists_right hk
        exact ⟨k', hmiddle.mem_iff.mpr (List.mem_cons_of_mem _ hk'),
          hpaired.mono fun p ↦ List.mem_append_right _⟩
    · rcases List.mem_cons.mp (hmiddle.mem_iff.mp hk) with rfl | hk
      · exact ⟨s, List.mem_cons_self, hpaired.mono fun p ↦ List.mem_append_left _⟩
      · obtain ⟨k', hk', hpaired⟩ := hpairs.exists_left hk
        exact ⟨k', List.mem_cons_of_mem _ hk', hpaired.mono fun p ↦ List.mem_append_right _⟩

/-! ### Two runs over the same batches -/

namespace Merger

variable {m m' : Merger} {p q : Sighting × Sighting} {id id' other other' : Nat} {i : Identity}

/-- **Two runs that merge the same batches**, with their sightings in pairs. -/
structure Reordered (pairs : List (Sighting × Sighting)) (steps steps' : List Step)
    (m m' : Merger) : Prop extends Pairs pairs steps steps' where
  run : empty.Runs steps m
  run' : empty.Runs steps' m'
  collects : m.Collects (steps.flatMap Step.sightings)
  collects' : m'.Collects (steps'.flatMap Step.sightings)

/-- The ids that stand for paired sightings, and the two roots. -/
def PairedIds (pairs : List (Sighting × Sighting)) (m m' : Merger) (id id' : Nat) : Prop :=
  (id = 0 ∧ id' = 0) ∨ ∃ p ∈ pairs, m.forest.rank p.1.slot = id ∧ m'.forest.rank p.2.slot = id'

theorem PairedIds.symm (h : PairedIds pairs m m' id id') :
    PairedIds (pairs.map Prod.swap) m' m id' id := by
  rcases h with ⟨hid, hid'⟩ | ⟨p, hp, hid, hid'⟩
  · exact Or.inl ⟨hid', hid⟩
  · exact Or.inr ⟨p.swap, List.mem_map_of_mem hp, hid', hid⟩

theorem pairedIds_of_mem (hp : p ∈ pairs) :
    PairedIds pairs m m' (m.forest.rank p.1.slot) (m'.forest.rank p.2.slot) :=
  Or.inr ⟨p, hp, rfl, rfl⟩

namespace Reordered

variable (h : Reordered pairs steps steps' m m')

include h

theorem symm :
    Reordered (pairs.map Prod.swap) steps' steps m' m where
  toPairs := h.toPairs.symm
  run := h.run'
  run' := h.run
  collects := h.collects'
  collects' := h.collects

theorem fst_mem (hp : p ∈ pairs) :
    p.1 ∈ steps.flatMap Step.sightings :=
  h.fst.subset (List.mem_map_of_mem hp)

theorem snd_mem (hp : p ∈ pairs) :
    p.2 ∈ steps'.flatMap Step.sightings :=
  h.snd.subset (List.mem_map_of_mem hp)

theorem exists_pair {x : Sighting}
    (hx : x ∈ steps.flatMap Step.sightings) : ∃ p ∈ pairs, p.1 = x :=
  List.mem_map.mp (h.fst.symm.subset hx)

/-- Both runs have seen the same nodes. -/
theorem seen_perm :
    ((steps.flatMap Step.sightings).map Sighting.node).Perm
      ((steps'.flatMap Step.sightings).map Sighting.node) := by
  refine (h.fst.map Sighting.node).symm.trans (.trans (.of_eq ?_) (h.snd.map Sighting.node))
  rw [List.map_map, List.map_map]
  exact List.map_congr_left fun p hp ↦ h.node_eq hp

/-- A sighting without identity has one partner. -/
theorem eq_of_slot_eq (hp : p ∈ pairs) (hq : q ∈ pairs)
    (hpi : p.1.node.hasIdentity = false) (hqi : q.1.node.hasIdentity = false)
    (hslot : p.1.slot = q.1.slot) : p = q := by
  have hnodup := (List.nodup_cons.mp h.collects.nodup_slots).2
  rw [anonymous, ← ((h.fst.filter _).map Sighting.slot).nodup_iff, List.filter_map,
    List.map_map] at hnodup
  refine List.inj_on_of_nodup_map hnodup (List.mem_filter.mpr ⟨hp, ?_⟩)
    (List.mem_filter.mpr ⟨hq, ?_⟩) hslot
  · simp [hpi]
  · simp [hqi]

/-- **What is one declaration in one run is one declaration in the other.** -/
theorem rank_eq_of_rank_eq (hp : p ∈ pairs) (hq : q ∈ pairs)
    (hrank : m.forest.rank p.1.slot = m.forest.rank q.1.slot) :
    m'.forest.rank p.2.slot = m'.forest.rank q.2.slot := by
  have hfind := (h.collects.rank_eq_iff (h.fst_mem hp)).mp hrank
  have hidentity := h.collects.anonymous_iff_of_find_eq (h.fst_mem hp) (h.fst_mem hq) hfind
  by_cases hpi : p.1.node.hasIdentity = false
  · have hslot := (h.collects.find_eq_iff_of_anonymous (h.fst_mem hq) (hidentity.mp hpi)).mp hfind
    rw [h.eq_of_slot_eq hp hq hpi (hidentity.mp hpi) hslot]
  · have hpi' : p.1.node.hasIdentity = true := Bool.eq_true_of_not_eq_false hpi
    have hqi' : q.1.node.hasIdentity = true :=
      Bool.eq_true_of_not_eq_false fun hqi ↦ hpi (hidentity.mpr hqi)
    have hconnected :=
      (h.collects.reflects.find_eq_iff (h.fst_mem hp) (h.fst_mem hq) hpi' hqi').mp hfind
    rw [h.collects'.rank_eq_iff (h.snd_mem hp)]
    rw [h.node_eq hp, h.node_eq hq] at hconnected
    refine (h.collects'.reflects.find_eq_iff (h.snd_mem hp) (h.snd_mem hq) (h.node_eq hp ▸ hpi')
      (h.node_eq hq ▸ hqi')).mpr (hconnected.mono fun _ ↦ h.seen_perm.mem_iff.mp)

/-- An id has one partner. -/
theorem eq_of_pairedIds (hid : PairedIds pairs m m' id id')
    (hother : PairedIds pairs m m' id other') : id' = other' := by
  rcases hid with ⟨rfl, rfl⟩ | ⟨p, hp, hpid, rfl⟩
  · rcases hother with ⟨-, rfl⟩ | ⟨q, hq, hqid, -⟩
    · rfl
    · exact absurd hqid (h.collects.rank_ne_zero (h.fst_mem hq))
  · rcases hother with ⟨hzero, -⟩ | ⟨q, hq, hqid, rfl⟩
    · exact absurd (hpid.trans hzero) (h.collects.rank_ne_zero (h.fst_mem hp))
    · exact h.rank_eq_of_rank_eq hp hq (hpid.trans hqid.symm)

theorem exists_pairedIds (hid : id < m.graph.size) :
    ∃ id', PairedIds pairs m m' id id' := by
  rcases h.collects.exists_sighting hid with rfl | ⟨x, hx, rfl⟩
  · exact ⟨0, Or.inl ⟨rfl, rfl⟩⟩
  · obtain ⟨p, hp, rfl⟩ := h.exists_pair hx
    exact ⟨_, pairedIds_of_mem hp⟩

/-- **What is looked up to one of two partners is looked up to the other.** -/
theorem lookup_of_lookup (hid : PairedIds pairs m m' id id')
    (hi : m.graph.lookup i = some id) : m'.graph.lookup i = some id' := by
  have hknown := hi
  rw [h.collects.wellFormed.lookup_graph_known] at hknown
  obtain ⟨c, hknown, -⟩ := Option.map_eq_some_iff.mp hknown
  obtain ⟨x, hx, hxi, -⟩ := h.collects.reflects.exists_of_known hknown
  obtain ⟨p, hp, rfl⟩ := h.exists_pair hx
  have hlookup := (h.collects.reflects.lookup_graph h.collects.wellFormed hx hxi).1
  rw [hi, Option.some_inj] at hlookup
  have hlookup' := (h.collects'.reflects.lookup_graph h.collects'.wellFormed (h.snd_mem hp)
    (h.node_eq hp ▸ hxi)).1
  rw [hlookup', h.eq_of_pairedIds hid (hlookup ▸ pairedIds_of_mem hp)]

/-- **What one of two partners has an edge to, the other has an edge to**, unless they are the
roots. -/
theorem mem_along_of_mem (hid : PairedIds pairs m m' id id')
    (hother : PairedIds pairs m m' other other') (hzero : id ≠ 0) {n n' : Node}
    (hn : m.graph.node? id = some n) (hn' : m'.graph.node? id' = some n') {kind : EdgeKind}
    (hmem : other ∈ n.along kind) : other' ∈ n'.along kind := by
  have hedge : (⟨id, other, kind⟩ : Edge) ∈ m.graph.edges true :=
    h.collects.wellFormed.wellFormed_graph.mem_edges_iff.mpr ⟨n, hn, hmem⟩
  obtain ⟨s, hs, hedge⟩ := h.run.mem_edges_iff.mp hedge
  obtain ⟨d, hd, hmap⟩ := (Step.mem_edges_iff hzero).mp hedge
  obtain ⟨hsource, htarget, hkind⟩ : m.forest.rank (s.merged.slotOf d.source) = id
      ∧ m.forest.rank (s.merged.slotOf d.target) = other ∧ d.kind = kind := Edge.mk.inj hmap
  -- the edge of the batch is one of the other run as well, between the partners
  obtain ⟨s', hs', hbatch, hslots⟩ := h.exists_right hs
  obtain ⟨-, haccepted, -⟩ := h.run.of_mem wellFormed_empty hs
  obtain ⟨hslt, htlt⟩ := haccepted.edge_lt hd
  obtain ⟨p, hp, hpslot, hpslot'⟩ := hslots _ hslt
  obtain ⟨q, hq, hqslot, hqslot'⟩ := hslots _ htlt
  rw [← hpslot] at hsource
  rw [← hqslot] at htarget
  have hid' : m'.forest.rank (s'.merged.slotOf d.source) = id' := by
    rw [← hpslot']
    exact h.eq_of_pairedIds (hsource ▸ pairedIds_of_mem hp) hid
  have hother' : m'.forest.rank (s'.merged.slotOf d.target) = other' := by
    rw [← hqslot']
    exact h.eq_of_pairedIds (htarget ▸ pairedIds_of_mem hq) hother
  have hzero' : id' ≠ 0 := by
    rw [← hid', ← hpslot']
    exact h.collects'.rank_ne_zero (h.snd_mem hp)
  have hedge' : (⟨id', other', kind⟩ : Edge) ∈ Step.edges m'.forest s' :=
    (Step.mem_edges_iff hzero').mpr ⟨d, hbatch ▸ hd, Edge.mk.injEq .. ▸ ⟨hid', hother', hkind⟩⟩
  obtain ⟨k', hk', hmem'⟩ := h.collects'.wellFormed.wellFormed_graph.mem_edges_iff.mp
    (h.run'.mem_edges_iff.mpr ⟨s', hs', hedge'⟩)
  rw [hn', Option.some_inj] at hk'
  exact hk' ▸ hmem'

theorem exists_agrees (hid : PairedIds pairs m m' id id') :
    ∃ n n', m.graph.node? id = some n ∧ m'.graph.node? id' = some n' ∧ n.Agrees n' := by
  rcases hid with ⟨rfl, rfl⟩ | ⟨p, hp, rfl, rfl⟩
  · obtain ⟨n, hn, hagrees⟩ := h.collects.exists_agrees_root
    obtain ⟨n', hn', hagrees'⟩ := h.collects'.exists_agrees_root
    exact ⟨n, n', hn, hn', hagrees.trans hagrees'.symm⟩
  · obtain ⟨n, hn, hagrees⟩ := h.collects.exists_agrees (h.fst_mem hp)
    obtain ⟨n', hn', hagrees'⟩ := h.collects'.exists_agrees (h.snd_mem hp)
    exact ⟨n, n', hn, hn', hagrees.trans (h.node_eq hp ▸ hagrees'.symm)⟩

/-- **The graphs of the two runs correspond.** -/
theorem corresponds :
    UseGraph.Corresponds (PairedIds pairs m m') m.graph m'.graph where
  agrees := h.exists_agrees
  exists_right := h.exists_pairedIds
  exists_left hid' := by
    obtain ⟨id, hid⟩ := h.symm.exists_pairedIds hid'
    have hswap := hid.symm
    rw [List.map_map, Prod.swap_swap_eq, List.map_id] at hswap
    exact ⟨id, hswap⟩
  eq_iff ha hb := by
    constructor
    · rintro rfl
      exact h.eq_of_pairedIds ha hb
    · rintro rfl
      exact h.symm.eq_of_pairedIds ha.symm hb.symm
  root := Or.inl ⟨rfl, rfl⟩
  lookup_iff hid i := ⟨h.lookup_of_lookup hid, h.symm.lookup_of_lookup hid.symm⟩
  along_iff hid hother hzero hn hn' kind := by
    refine ⟨h.mem_along_of_mem hid hother hzero hn hn', fun hmem ↦ ?_⟩
    refine h.symm.mem_along_of_mem hid.symm hother.symm (fun hzero' ↦ hzero ?_) hn' hn hmem
    exact h.symm.eq_of_pairedIds (hzero' ▸ hid.symm) (Or.inl ⟨rfl, rfl⟩)

end Reordered

end Merger

/-! ### The main statement -/

/-- **The order of the batches does not matter.** When connected nodes of accepted batches without
ordinals agree on what is declared, the graph of any permutation of the batches has as many nodes,
and is a renumbering: the root keeps its id, identities belong to the renumbered nodes, renumbered
nodes agree, and the selection for any targets is the renumbered one. -/
theorem UseGraph.ofBatches_perm {bs bs' : List Batch} (hperm : bs.Perm bs')
    (hcheck : ∀ b ∈ bs, b.check = .ok ()) (hord : ∀ b ∈ bs, ∀ n ∈ b.nodes, n.subgraph = none)
    (hagree : Unanimous (bs.flatMap Batch.nodes)) :
    ∃ g g', (UseGraph.ofBatches bs).result = .ok g ∧ (UseGraph.ofBatches bs').result = .ok g'
      ∧ g.size = g'.size ∧ ∃ number, UseGraph.Renumbers number g g' := by
  obtain ⟨steps, m, rfl, run, hgraph⟩ := UseGraph.exists_run_ofBatches hcheck
  obtain ⟨steps', m', rfl, run', hgraph'⟩ :=
    UseGraph.exists_run_ofBatches fun b hb ↦ hcheck b (hperm.mem_iff.mpr hb)
  have hcollects := run.collects (fun s hs ↦ hord _ (List.mem_map_of_mem hs)) hagree
  have hcollects' := run'.collects
    (fun s hs ↦ hord _ (hperm.mem_iff.mpr (List.mem_map_of_mem hs)))
    (hagree.perm (hperm.flatMap_right Batch.nodes))
  obtain ⟨pairs, hpairs⟩ := exists_pairs (fun s hs ↦ (run.of_mem Merger.wellFormed_empty hs).2.2.1)
    (fun s hs ↦ (run'.of_mem Merger.wellFormed_empty hs).2.2.1) hperm
  have hreordered : Merger.Reordered pairs steps steps' m m' :=
    ⟨hpairs, run, run', hcollects, hcollects'⟩
  obtain ⟨number, hnumber⟩ := hreordered.corresponds.exists_renumbers
    hcollects.wellFormed.wellFormed_graph hcollects'.wellFormed.wellFormed_graph
    (hcollects.wellFormed.rooted_graph hcollects.describes)
    (hcollects'.wellFormed.rooted_graph hcollects'.describes)
  exact ⟨m.graph, m'.graph, hgraph, hgraph', hnumber.size_eq, number, hnumber⟩

/-- The nodes of the three batches agree when they are linked. -/
theorem unanimous_bridged : Unanimous (bridged.flatMap Batch.nodes) :=
  unanimous_of_linked (by decide)

/-- Three batches in the opposite order: the one that shows what the others have in common comes
first. -/
theorem UseGraph.ofBatches_bridged_reverse : bridged.Perm bridged.reverse
    ∧ (∀ b ∈ bridged, b.check = .ok ()) ∧ (∀ b ∈ bridged, ∀ n ∈ b.nodes, n.subgraph = none)
    ∧ Unanimous (bridged.flatMap Batch.nodes)
    ∧ ∃ g g', (UseGraph.ofBatches bridged).result = .ok g
      ∧ (UseGraph.ofBatches bridged.reverse).result = .ok g'
      ∧ g.size = g'.size ∧ ∃ number, UseGraph.Renumbers number g g' :=
  ⟨bridged.reverse_perm.symm, check_bridged, by decide, unanimous_bridged,
    UseGraph.ofBatches_perm bridged.reverse_perm.symm check_bridged (by decide) unanimous_bridged⟩

end DeclExtract
