import DeclExtract.Proofs.Merge.Run

/-!
# What sightings and edges keep, a run keeps

A run consists of sightings and of edges that are added between the slots of sightings. So a
statement about a merger and the sightings so far, in the order in which they came, holds at the end
of a run if it holds at the start, if each further sighting keeps it, and if further edges keep it
(`Runs.preserves`). It then holds just before each of the sightings, too, of the merger that made
the sighting and of the sightings before it (`Runs.exists_before`).
-/

namespace DeclExtract

namespace Merger

variable {P : Merger → List Sighting → Prop} {m m' : Merger} {past : List Sighting}
variable {steps : List Step}

theorem preserves_foldl_sighted {ns : List Node} (hm : m.WellFormed) (hpast : P m past)
    (hsight : ∀ {m past n}, n ∈ ns → m.WellFormed → P m past → P (m.sighted n)
      (past ++ [m.sighting n])) :
    P (ns.foldl sighted m) (past ++ m.sightings ns) := by
  induction ns generalizing m past with
  | nil => rwa [sightings, List.append_nil]
  | cons n ns ih =>
    have hfirst : P (m.sighted n) (past ++ [m.sighting n]) := hsight List.mem_cons_self hm hpast
    have hrest := ih (hm.sighted n) hfirst fun hk ↦ hsight (List.mem_cons_of_mem _ hk)
    rwa [List.append_assoc] at hrest

/-- The same where a sighting may be told by its place: the next node is the one after as many as
were sighted. -/
theorem preserves_foldl_sighted_getElem? {all ns : List Node} (hns : all.drop past.length = ns)
    (hm : m.WellFormed) (hpast : P m past)
    (hsight : ∀ {m past n}, all[past.length]? = some n → m.WellFormed → P m past →
      P (m.sighted n) (past ++ [m.sighting n])) :
    P (ns.foldl sighted m) (past ++ m.sightings ns) := by
  induction ns generalizing m past with
  | nil => rwa [sightings, List.append_nil]
  | cons n ns ih =>
    have hn : all[past.length]? = some n := by
      rw [← Nat.add_zero past.length, ← List.getElem?_drop, hns, List.getElem?_cons_zero]
    have hlater : all.drop (past ++ [m.sighting n]).length = ns := by
      rw [List.length_append, List.length_singleton, ← List.drop_drop, hns, List.drop_one,
        List.tail_cons]
    have hrest := ih hlater (hm.sighted n) (hsight hn hm hpast)
    rwa [List.append_assoc] at hrest

theorem preserves_connectAll {slotOf : Nat → Nat} (hm : m.WellFormed)
    (hslot : ∀ localId, slotOf localId < m.slots.size) (hpast : P m past)
    (hedges : ∀ {m past slot uses owns}, m.WellFormed → slot < m.slots.size → P m past →
      P (m.addEdges slot uses owns) past) (ns : List Node) : P (m.connectAll slotOf ns) past := by
  induction ns generalizing m with
  | nil => exact hpast
  | cons n ns ih =>
    refine ih (hm.connected hslot n) (fun localId ↦ ?_) (hedges hm (hslot _) hpast)
    rw [size_slots_addEdges]
    exact hslot localId

/-- The node of a sighting is one of its batch. -/
theorem node_mem_of_mem_sightings {s : Step} {x : Sighting} (hx : x ∈ s.sightings) :
    x.node ∈ s.batch.nodes := by
  rw [← s.before.map_node_sightings s.batch.nodes]
  exact List.mem_map_of_mem hx

/-- **What sightings and edges keep, a run keeps.** -/
theorem Runs.preserves (run : m.Runs steps m') (hm : m.WellFormed) (hpast : P m past)
    (hsight : ∀ {m past s n}, s ∈ steps → n ∈ s.batch.nodes → m.WellFormed → P m past →
      P (m.sighted n) (past ++ [m.sighting n]))
    (hedges : ∀ {m past slot uses owns}, m.WellFormed → slot < m.slots.size → P m past →
      P (m.addEdges slot uses owns) past) :
    P m' (past ++ steps.flatMap Step.sightings) := by
  induction run generalizing past with
  | nil => rwa [List.flatMap_nil, List.append_nil]
  | @cons m m' b _ steps hmerge rest ih =>
    obtain ⟨-, rfl⟩ := merge_eq_ok_iff.mp hmerge
    have hsights : P (b.nodes.foldl sighted m) (past ++ m.sightings b.nodes) :=
      preserves_foldl_sighted hm hpast fun hn ↦ hsight List.mem_cons_self hn
    have hbatch : P (m.mergeSound b).merger (past ++ m.sightings b.nodes) := by
      rw [merger_mergeSound]
      exact preserves_connectAll (hm.foldl_sighted b.nodes)
        (Merger.slotOf_lt hm b) hsights hedges b.nodes
    have hrest := ih (hm.mergeSound b) hbatch fun hs ↦ hsight (List.mem_cons_of_mem _ hs)
    rwa [List.append_assoc] at hrest

/-- **Each sighting of a run was made by a merger that the run had come to**, so whatever a run
keeps held of that merger and of the sightings before. -/
theorem Runs.exists_before (run : m.Runs steps m') (hm : m.WellFormed) (hstart : P m [])
    (hsight : ∀ {m past s n}, s ∈ steps → n ∈ s.batch.nodes → m.WellFormed → P m past →
      P (m.sighted n) (past ++ [m.sighting n]))
    (hedges : ∀ {m past slot uses owns}, m.WellFormed → slot < m.slots.size → P m past →
      P (m.addEdges slot uses owns) past)
    {before after : List Sighting} {x : Sighting}
    (hsplit : steps.flatMap Step.sightings = before ++ x :: after) :
    ∃ m₀ : Merger, m₀.WellFormed ∧ P m₀ before ∧ m₀.sighting x.node = x := by
  let Made (past : List Sighting) : Prop := ∀ before x after, past = before ++ x :: after →
    ∃ m₀ : Merger, m₀.WellFormed ∧ P m₀ before ∧ m₀.sighting x.node = x
  have hmade {m : Merger} {past : List Sighting} {n : Node} (hm : m.WellFormed) (hpast : P m past)
      (h : Made past) : Made (past ++ [m.sighting n]) := by
    intro before x after hsplit
    -- the last sighting was made by `m`, and the others had been made before
    obtain rfl | ⟨rest, last, rfl⟩ := after.eq_nil_or_concat'
    · obtain ⟨rfl, hlast⟩ := List.append_inj' hsplit rfl
      obtain rfl := (List.cons.inj hlast).1
      exact ⟨m, hm, hpast, rfl⟩
    · rw [← List.cons_append, ← List.append_assoc] at hsplit
      exact h before x rest (List.append_inj' hsplit rfl).1
  have hbase : P m [] ∧ Made [] := ⟨hstart, fun before x after hnil ↦ absurd hnil (by simp)⟩
  have hrun := run.preserves (P := fun m past ↦ P m past ∧ Made past) hm hbase
    (fun hs hn hm ⟨hpast, h⟩ ↦ ⟨hsight hs hn hm hpast, hmade hm hpast h⟩)
    (fun hm hslot ⟨hpast, h⟩ ↦ ⟨hedges hm hslot hpast, h⟩)
  exact hrun.2 before x after hsplit

/-- Each sighting of a run was made by a merger. -/
theorem Runs.exists_sighting_eq (run : m.Runs steps m') (hm : m.WellFormed) {x : Sighting}
    (hx : x ∈ steps.flatMap Step.sightings) : ∃ m₀ : Merger, m₀.sighting x.node = x := by
  obtain ⟨before, after, hsplit⟩ := List.append_of_mem hx
  obtain ⟨m₀, -, -, hmade⟩ := run.exists_before (P := fun _ _ ↦ True) hm trivial
    (fun _ _ _ _ ↦ trivial) (fun _ _ _ ↦ trivial) hsplit
  exact ⟨m₀, hmade⟩

end Merger

end DeclExtract
