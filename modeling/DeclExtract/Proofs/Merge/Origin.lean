import DeclExtract.Proofs.Merge.Recognisable
import DeclExtract.Proofs.Merge.Reordering

/-!
# The first sighting of a declaration

A slot is made for the first sighting of its declaration, as long as it represents its class: what
is joined to it later has later slots, and so has every sighting that was new later on
(`Originates.ascending`). The slot goes on showing what that sighting showed (`Merger.Retains`).
What it lacked may be filled in, but nothing is replaced. So a declaration that was seen at several
places shows the first of them, if the first sighting had a place at all (`Runs.exists_first`).
-/

namespace DeclExtract

/-- What the first of two nodes shows, a node shows that gathers from both. -/
theorem Node.Gathers.mem_of_left {n a b : Node} {i : Identity} (h : n.Gathers a b)
    (hi : i ∈ a.identities) : i ∈ n.identities := by
  cases i with
  | path p =>
    rw [path_mem_identities] at hi ⊢
    rw [h.stablePath, hi, Option.some_or]
  | position p =>
    rw [position_mem_identities] at hi ⊢
    rw [h.stablePosition, hi, Option.some_or]

namespace Merger

variable {m m' : Merger} {n : Node} {past : List Sighting} {x y : Sighting} {steps : List Step}
  {a b slot rep : Nat}

/-! ### What a slot retains -/

/-- **A slot shows what a node shows**: its identities, and its ordinal unless the slot has one of
its own. -/
structure Retains (m : Merger) (slot : Nat) (n : Node) : Prop where
  mem_identities : ∀ i ∈ n.identities, i ∈ (m.node slot).identities
  subgraph_eq : slot ∉ m.anonymousRoots → n.hasIdentity = true ∧ (m.node slot).subgraph = n.subgraph

namespace Retains

/-- A slot retains what it showed if it shows no less and keeps its ordinal. -/
theorem mono (h : m.Retains slot n)
    (hidentities : ∀ i ∈ (m.node slot).identities, i ∈ (m'.node slot).identities)
    (hsubgraph : (m'.node slot).subgraph = (m.node slot).subgraph)
    (hroots : ∀ s ∈ m.anonymousRoots, s ∈ m'.anonymousRoots) : m'.Retains slot n where
  mem_identities i hi := hidentities i (h.mem_identities i hi)
  subgraph_eq hroot := by
    rw [hsubgraph]
    exact h.subgraph_eq fun hold ↦ hroot (hroots _ hold)

theorem of_showsSame (h : m.Retains slot n) (hsame : (m'.node slot).ShowsSame (m.node slot))
    (hroots : ∀ s ∈ m.anonymousRoots, s ∈ m'.anonymousRoots) : m'.Retains slot n :=
  h.mono (fun _ hi ↦ hsame.identities ▸ hi) hsame.subgraph hroots

theorem register {k : Node} (h : m.Retains slot n) (ha : a < m.slots.size) :
    (m.register k a).Retains slot n := by
  refine h.mono (fun i hi ↦ ?_) ?_ fun _ hs ↦ hs
  · rw [node_register ha]
    split
    · exact (complete_gathers (m.node slot) k).mem_of_left hi
    · exact hi
  · rw [node_register ha]
    split <;> rfl

/-- The slot that is kept shows what it showed. -/
theorem unify (h : m.Retains slot n) (hne : a ≠ b) (ha : a < m.slots.size) (hb : b < m.slots.size)
    (hkept : slot ≠ max a b) : (m.unify a b).Retains slot n := by
  refine h.mono (fun i hi ↦ ?_) ?_ fun _ hs ↦ hs
  · rw [node_unify hne ha hb, if_neg hkept]
    split
    next hslot => exact (inherit_gathers _ _).mem_of_left (hslot ▸ hi)
    next => exact hi
  · rw [node_unify hne ha hb, if_neg hkept]
    split
    next hslot => rw [hslot]; rfl
    next => rfl

theorem allocate {k : Node} (h : m.Retains slot n) (hm : m.WellFormed)
    (hold : slot ≠ m.slots.size) : (m.allocate k).Retains slot n := by
  refine h.of_showsSame ?_ fun s hs ↦ ?_
  · rw [node_allocate hm.slots_pos, if_neg hold]
    split
    next hzero => rw [hzero.1]; exact ⟨rfl, rfl, rfl⟩
    next => exact ⟨rfl, rfl, rfl⟩
  · rw [anonymousRoots_allocate]
    split
    · exact hs
    · exact Array.mem_push.mpr (Or.inl hs)

theorem addEdges {uses owns : List Nat} (h : m.Retains slot n) (ha : a < m.slots.size) :
    (m.addEdges a uses owns).Retains slot n := by
  refine h.of_showsSame ?_ fun _ hs ↦ hs
  rw [node_addEdges (Forest.find_lt ha)]
  split <;> exact ⟨rfl, rfl, rfl⟩

end Retains

/-- A new slot shows what the node shows that it is made for. -/
theorem WellFormed.retains_allocate (hm : m.WellFormed) (n : Node) :
    (m.allocate n).Retains m.slots.size n := by
  have hnew : (m.allocate n).node m.slots.size = complete (m.settle n m.slots.size) n := by
    rw [node_allocate hm.slots_pos, if_pos rfl]
  refine ⟨fun i hi ↦ ?_, fun hroot ↦ ?_⟩
  · rw [hnew]
    exact (complete_gathers _ n).mem_of_left (by rwa [identities_settle])
  · rw [anonymousRoots_allocate] at hroot
    split at hroot
    next hidentity =>
      rw [hnew]
      exact ⟨hidentity, if_pos hidentity⟩
    next => exact absurd Array.mem_push_self hroot

/-! ### The invariant -/

/-- **Representatives are the slots of first sightings**: `past` are the sightings so far. -/
structure Originates (m : Merger) (past : List Sighting) : Prop where
  /-- A sighting has a slot of the merger. -/
  slot_lt : ∀ {x}, x ∈ past → x.slot < m.slots.size
  /-- A new sighting has a later slot than the sightings before it. -/
  ascending : past.Pairwise fun y x ↦ x.recognition = .fresh → y.slot < x.slot
  /-- A declaration other than the root was new once, and shows what it showed then. -/
  exists_origin : ∀ {rep}, rep < m.slots.size → m.forest.find rep = rep → rep ≠ 0 →
    ∃ x ∈ past, x.recognition = .fresh ∧ x.slot = rep ∧ m.Retains rep x.node

theorem originates_empty : empty.Originates [] where
  slot_lt hx := nomatch hx
  ascending := List.Pairwise.nil
  exists_origin hlt _ hne := absurd (Nat.lt_one_iff.mp hlt) hne

namespace Originates

/-- **However a node is recognised, declarations show what they showed first.** -/
theorem sighted (h : m.Originates past) (hm : m.WellFormed) (n : Node) :
    (m.sighted n).Originates (past ++ [m.sighting n]) where
  slot_lt hx := by
    rcases List.mem_append.mp hx with hx | hx
    · exact Nat.lt_of_lt_of_le (h.slot_lt hx) (m.size_slots_le_sighted n)
    · rw [List.mem_singleton.mp hx]
      exact slot_sighting_lt hm n
  ascending := by
    refine List.pairwise_append.mpr
      ⟨h.ascending, List.pairwise_singleton _ _, fun y hy x hx hfresh ↦ ?_⟩
    rw [List.mem_singleton.mp hx] at hfresh ⊢
    rw [slot_sighting_of_fresh hfresh]
    exact h.slot_lt hy
  exists_origin := by
    let Origins (m' : Merger) : Prop :=
      ∀ rep, rep < m'.slots.size → m'.forest.find rep = rep → rep ≠ 0 →
      ∃ x ∈ past ++ [m.sighting n], x.recognition = .fresh ∧ x.slot = rep ∧ m'.Retains rep x.node
    have hpast {m' : Merger} {rep : Nat} (hlt : rep < m.slots.size)
        (hself : m.forest.find rep = rep) (hne : rep ≠ 0)
        (hkept : ∀ {k : Node}, m.Retains rep k → m'.Retains rep k) :
        ∃ x ∈ past ++ [m.sighting n], x.recognition = .fresh ∧ x.slot = rep
          ∧ m'.Retains rep x.node := by
      obtain ⟨x, hx, hfresh, hslot, hretains⟩ := h.exists_origin hlt hself hne
      exact ⟨x, List.mem_append_left _ hx, hfresh, hslot, hkept hretains⟩
    have hstart : Origins m := fun _ hlt hself hne ↦ hpast hlt hself hne id
    suffices hsighted : Origins (m.sighted n) from fun {rep} ↦ hsighted rep
    refine hm.settleAs_preserves (m.recognises n) hstart ?_ ?_ ?_
    · intro a _ ha _ _ rep hlt hself hne
      rw [size_slots_register] at hlt
      exact hpast hlt hself hne fun hretains ↦ hretains.register ha
    · intro a b hab ha hb rep hlt hself hne
      rw [size_slots_unify] at hlt
      obtain ⟨hold, hkept⟩ := hm.find_eq_of_unify hab ⟨ha.1, ha.2.1⟩ ⟨hb.1, hb.2.1⟩ hself
      exact hpast hlt hold hne fun hretains ↦ hretains.unify hab ha.1 hb.1 hkept
    · intro hfresh _ rep hlt hself hne
      by_cases hnew : rep = m.slots.size
      · refine ⟨m.sighting n, List.mem_append_right _ List.mem_cons_self, hfresh, ?_, ?_⟩
        · rw [slot_sighting_of_fresh hfresh, hnew]
        · rw [hnew]
          exact hm.retains_allocate n
      · rw [size_slots_allocate] at hlt
        rw [forest_allocate, Forest.find_grow] at hself
        exact hpast (by omega) hself hne fun hretains ↦ hretains.allocate hm hnew

theorem addEdges {uses owns : List Nat} (h : m.Originates past) (ha : a < m.slots.size) :
    (m.addEdges a uses owns).Originates past where
  slot_lt hx := by
    rw [size_slots_addEdges]
    exact h.slot_lt hx
  ascending := h.ascending
  exists_origin hlt hself hne := by
    rw [size_slots_addEdges] at hlt
    obtain ⟨x, hx, hfresh, hslot, hretains⟩ := h.exists_origin hlt hself hne
    exact ⟨x, hx, hfresh, hslot, hretains.addEdges ha⟩

/-- **No sighting before the one that a slot was made for is in its class.** -/
theorem find_ne_of_fresh {before after : List Sighting} (h : m.Originates (before ++ x :: after))
    (hfresh : x.recognition = .fresh) : ∀ y ∈ before, m.forest.find y.slot ≠ x.slot := by
  intro y hy hfind
  have hlt : y.slot < x.slot :=
    (List.pairwise_append.mp h.ascending).2.2 y hy x List.mem_cons_self hfresh
  have hle := m.forest.find_le y.slot
  omega

/-- **A slot was made for one sighting only.** -/
theorem eq_of_fresh (h : m.Originates past) (hx : x ∈ past) (hy : y ∈ past)
    (hxfresh : x.recognition = .fresh) (hyfresh : y.recognition = .fresh)
    (hslot : x.slot = y.slot) : x = y := by
  obtain ⟨before, after, rfl⟩ := List.append_of_mem hx
  obtain ⟨-, hrest, hbefore⟩ := List.pairwise_append.mp h.ascending
  rcases List.mem_append.mp hy with hy | hy
  · exact absurd (hbefore y hy x List.mem_cons_self hxfresh) (by omega)
  rcases List.mem_cons.mp hy with rfl | hy
  · rfl
  · exact absurd ((List.pairwise_cons.mp hrest).1 y hy hyfresh) (by omega)

end Originates

/-! ### Runs -/

theorem Runs.originates (run : empty.Runs steps m) :
    m.Originates (steps.flatMap Step.sightings) := by
  have hrun :=
    run.preserves wellFormed_empty originates_empty (fun {m past s n} _ _ hm h ↦ h.sighted hm n)
    fun _ hslot h ↦ h.addEdges hslot
  rwa [List.nil_append] at hrun

/-- **The slot of a declaration was made for the first sighting of it**, and shows what that
sighting showed. -/
theorem Runs.exists_first (run : empty.Runs steps m) (hrep : rep ∈ m.forest.representatives)
    (hne : rep ≠ 0) : ∃ before x after, steps.flatMap Step.sightings = before ++ x :: after
      ∧ (∀ y ∈ before, m.forest.find y.slot ≠ rep) ∧ x.recognition = .fresh ∧ x.slot = rep
      ∧ m.Retains rep x.node := by
  have h := run.originates
  have hm := run.wellFormed wellFormed_empty
  obtain ⟨x, hx, hfresh, rfl, hretains⟩ := h.exists_origin (hm.lt_of_mem_representatives hrep)
    (Forest.mem_representatives.mp hrep).2 hne
  obtain ⟨before, after, hsplit⟩ := List.append_of_mem hx
  rw [hsplit] at h
  exact ⟨before, x, after, hsplit, h.find_ne_of_fresh hfresh, hfresh, rfl, hretains⟩

/-- Two members of a list that stand before each other are one. -/
theorem eq_of_append_cons_eq {α : Type} {before before' after after' : List α} {x y : α}
    (h : before ++ x :: after = before' ++ y :: after') (hx : x ∉ before') (hy : y ∉ before) :
    x = y := by
  rcases List.append_eq_append_iff.mp h with ⟨between, hbetween, hrest⟩ | ⟨between, hbetween, hrest⟩
  · cases between with
    | nil => exact (List.cons.inj hrest).1
    | cons z between =>
      obtain ⟨rfl, -⟩ := List.cons.inj hrest
      exact absurd (hbetween ▸ List.mem_append_right _ List.mem_cons_self) hx
  · cases between with
    | nil => exact (List.cons.inj hrest).1.symm
    | cons z between =>
      obtain ⟨rfl, -⟩ := List.cons.inj hrest
      exact absurd (hbetween ▸ List.mem_append_right _ List.mem_cons_self) hy

/-- **What was sighted first is shown in the end.** -/
theorem Runs.retains_first (run : empty.Runs steps m) {before after : List Sighting}
    (hsplit : steps.flatMap Step.sightings = before ++ x :: after) (hne : m.forest.find x.slot ≠ 0)
    (hfirst : ∀ y ∈ before, m.forest.find y.slot ≠ m.forest.find x.slot) :
    m.Retains (m.forest.find x.slot) x.node := by
  have hx : x ∈ steps.flatMap Step.sightings := hsplit ▸ List.mem_append_right _ List.mem_cons_self
  have hrep : m.forest.find x.slot ∈ m.forest.representatives := by
    have hsize := (run.wellFormed wellFormed_empty).size_forest
    exact Forest.find_mem_representatives (hsize ▸ run.originates.slot_lt hx)
  obtain ⟨before', y, after', hsplit', hbefore', -, hslot, hretains⟩ := run.exists_first hrep hne
  -- neither of the two stands before the other
  have hyx : y ∉ before := fun hmem ↦ hfirst y hmem (by rw [hslot, m.forest.find_find])
  have hxy : x ∉ before' := fun hmem ↦ hbefore' x hmem rfl
  rwa [← eq_of_append_cons_eq (hsplit.symm.trans hsplit') hxy hyx] at hretains

end Merger

/-! ### A method that was moved -/

/-- A method where it was at first. -/
def movedFrom : Node where
  id := 1
  name := "M"
  exported := false
  kind := .method
  path := some ⟨"pkg", "M"⟩
  position := { file := "m.go", line := 1, column := some 6 }

/-- The same method on another line. -/
def movedTo : Node :=
  { movedFrom with id := 2, position := { file := "m.go", line := 2, column := some 6 } }

/-- A variable with a named type that refers to the method by its later place. -/
def movedUser : Node where
  id := 1
  name := "v"
  exported := false
  kind := .var
  path := some ⟨"pkg", "v"⟩
  namedType := some ⟨"T", [.position movedTo.position]⟩

/-- Two batches between which a method was moved. -/
def moved : List Batch :=
  [⟨[Node.root, movedFrom]⟩, ⟨[Node.root, movedUser, movedTo]⟩]

theorem check_moved : ∀ b ∈ moved, b.check = .ok () := by
  decide

theorem subgraph_moved : ∀ b ∈ moved, ∀ n ∈ b.nodes, n.subgraph = none := by
  decide

theorem unanimous_moved : Unanimous (moved.flatMap Batch.nodes) :=
  unanimous_of_linked (by decide)

/-- **The method is looked up at both places, and shows the first.** -/
theorem Merger.Runs.exists_moved {m : Merger} {steps : List Step} (run : empty.Runs steps m)
    (hsteps : steps.map Step.batch = moved) : ∃ id n, m.graph.node? id = some n ∧ n.Agrees movedFrom
      ∧ m.graph.lookup (.position movedTo.position) = some id
      ∧ n.position = movedFrom.position := by
  have hcollects := run.collects (fun s hs ↦ subgraph_moved _ (hsteps ▸ List.mem_map_of_mem hs))
    (hsteps ▸ unanimous_moved)
  have hm := hcollects.wellFormed
  have hnodes : (steps.flatMap Step.sightings).map Sighting.node
      = Node.root :: movedFrom :: [Node.root, movedUser, movedTo] := by
    rw [map_node_flatMap_sightings, hsteps]
    rfl
  obtain ⟨root, rest, hsightings, hroot, hrest⟩ := List.map_eq_cons_iff.mp hnodes
  obtain ⟨x, after, rfl, hx, -⟩ := List.map_eq_cons_iff.mp hrest
  obtain ⟨y, hy, hynode⟩ : ∃ y ∈ steps.flatMap Step.sightings, y.node = movedTo := by
    rw [← List.mem_map, hnodes]
    decide
  have hrootmem : root ∈ steps.flatMap Step.sightings := by
    rw [hsightings]
    exact List.mem_cons_self
  have hxmem : x ∈ steps.flatMap Step.sightings := by
    rw [hsightings]
    exact List.mem_cons_of_mem _ List.mem_cons_self
  -- only a root was sighted before
  have hsplit : steps.flatMap Step.sightings = [root] ++ x :: after := hsightings
  have hretains := run.retains_first hsplit (hcollects.find_ne_zero hxmem) fun z hz hclass ↦ by
    rw [List.mem_singleton.mp hz] at hclass
    have hidentity := (hcollects.anonymous_iff_of_find_eq hrootmem hxmem hclass).mp (hroot ▸ rfl)
    rw [hx] at hidentity
    cases hidentity
  have hfrom : .position movedFrom.position ∈ x.node.identities := by
    rw [hx]
    decide
  have hto : .position movedTo.position ∈ y.node.identities := by
    rw [hynode]
    decide
  have hagrees := (m.agrees_declaration _).trans (hcollects.node_agrees hxmem)
  refine ⟨m.forest.rank x.slot, m.declaration (m.forest.find x.slot),
    hm.node?_graph_rank (hcollects.describes.slot_lt hxmem), hx ▸ hagrees, ?_,
    (Node.position_mem_identities_iff.mp (hretains.mem_identities _ hfrom)).1⟩
  -- the path tells that the two are one
  have hpath : m.graph.lookup (.path ⟨"pkg", "M"⟩) = some (m.forest.rank x.slot) :=
    (hcollects.reflects.lookup_graph hm hxmem (hx ▸ by decide)).1
  rw [(hcollects.reflects.lookup_graph hm hy (hynode ▸ by decide)).1] at hpath
  rw [← hpath]
  exact (hcollects.reflects.lookup_graph hm hy hto).1

end DeclExtract
