import DeclExtract.Extraction
import DeclExtract.Proofs.Batch
import DeclExtract.Proofs.Merge.Sighting

/-!
# Runs

A run is a list of merges one after the other, each with the merger that it started from and with
what it came to. The batches of a run are the lists of batches that are accepted one by one
(`ofBatches_eq_ok_iff`), so a statement about every run from the empty merger is one about every
graph that batches can be merged into.

A run keeps a merger well-formed and separates nothing. What one merge preserves, a run preserves;
the proofs are inductions on the run.
-/

namespace DeclExtract

/-- One merge of a run. -/
structure Step where
  /-- The merger that the batch was merged into. -/
  before : Merger
  batch : Batch
  /-- What the merge came to. -/
  merged : Merged

/-- The sightings of the nodes of a batch. -/
def Step.sightings (s : Step) : List Sighting :=
  s.before.sightings s.batch.nodes

namespace Merger

variable {m m' : Merger} {b : Batch} {merged : Merged} {steps : List Step} {bs : List Batch}
  {g : UseGraph}

/-- **A run**: merging the batches of the steps one after the other leads from one merger to
another. -/
inductive Runs : Merger → List Step → Merger → Prop
  | nil (m : Merger) : Runs m [] m
  | cons {m m' : Merger} {b : Batch} {merged : Merged} {steps : List Step}
      (hmerge : m.merge b = .ok merged) (rest : Runs merged.merger steps m') :
      Runs m (⟨m, b, merged⟩ :: steps) m'

theorem merge_eq_ok_iff : m.merge b = .ok merged ↔ b.Accepted ∧ merged = m.mergeSound b := by
  rw [← Batch.check_eq_ok_iff, merge]
  cases b.check with
  | error e => simp
  | ok u => simp [eq_comm]

/-- The nodes of an accepted batch are sighted in the order of their ids. -/
theorem id_of_getElem?_sightings (hb : b.Accepted) {index : Nat} {x : Sighting}
    (hx : (m.sightings b.nodes)[index]? = some x) : x.node.id = index := by
  refine hb.id_eq ?_
  rw [← m.map_node_sightings b.nodes, List.getElem?_map, hx, Option.map_some]

/-- In an accepted batch the slot of a sighting is that of the node's id. -/
theorem slotOf_id (hb : b.Accepted) {x : Sighting} (hx : x ∈ m.sightings b.nodes) :
    (m.mergeSound b).slotOf x.node.id = x.slot := by
  obtain ⟨index, hindex⟩ := List.mem_iff_getElem?.mp hx
  rw [id_of_getElem?_sightings hb hindex]
  exact slotOf_mergeSound hindex

namespace Runs

theorem wellFormed (run : m.Runs steps m') (h : m.WellFormed) : m'.WellFormed := by
  induction run with
  | nil => exact h
  | cons hmerge _ ih =>
    obtain ⟨-, rfl⟩ := merge_eq_ok_iff.mp hmerge
    exact ih (h.mergeSound _)

theorem refines (run : m.Runs steps m') (h : m.WellFormed) : m.forest.Refines m'.forest := by
  induction run with
  | nil => exact Forest.Refines.refl _
  | cons hmerge _ ih =>
    obtain ⟨-, rfl⟩ := merge_eq_ok_iff.mp hmerge
    exact (refines_mergeSound h _).trans (ih (h.mergeSound _))

theorem size_slots_le (run : m.Runs steps m') : m.slots.size ≤ m'.slots.size := by
  induction run with
  | nil => exact Nat.le_refl _
  | @cons m m' b merged steps hmerge _ ih =>
    obtain ⟨-, rfl⟩ := merge_eq_ok_iff.mp hmerge
    refine Nat.le_trans (size_slots_le_foldl_sighted m b.nodes) (Nat.le_trans (Nat.le_of_eq ?_) ih)
    rw [merger_mergeSound, size_slots_connectAll]

/-- A run can be continued where it ended. -/
theorem append {last : Merger} {later : List Step} (run : m.Runs steps m')
    (rest : m'.Runs later last) : m.Runs (steps ++ later) last := by
  induction run with
  | nil => exact rest
  | cons hmerge _ ih => exact .cons hmerge (ih rest)

/-- What a step of a run is. -/
theorem of_mem (run : m.Runs steps m') (h : m.WellFormed) {s : Step} (hs : s ∈ steps) :
    s.before.WellFormed ∧ s.batch.Accepted ∧ s.merged = s.before.mergeSound s.batch
      ∧ ∃ later, s.merged.merger.Runs later m' := by
  induction run with
  | nil => cases hs
  | cons hmerge rest ih =>
    obtain ⟨haccepted, hmerged⟩ := merge_eq_ok_iff.mp hmerge
    rcases List.mem_cons.mp hs with rfl | hs
    · exact ⟨h, haccepted, hmerged, _, rest⟩
    · exact ih (hmerged ▸ h.mergeSound _) hs

/-- A node of a step was sighted, and was given the slot of its id. -/
theorem exists_sighting (run : m.Runs steps m') (h : m.WellFormed) {s : Step} (hs : s ∈ steps)
    {n : Node} (hn : n ∈ s.batch.nodes) :
    ∃ x ∈ s.sightings, x.node = n ∧ s.merged.slotOf n.id = x.slot := by
  obtain ⟨-, hb, hmerged, -⟩ := run.of_mem h hs
  rw [← s.before.map_node_sightings s.batch.nodes, List.mem_map] at hn
  obtain ⟨x, hx, rfl⟩ := hn
  exact ⟨x, hx, rfl, hmerged ▸ slotOf_id hb hx⟩

/-- The slots of a step are there at the end of the run. -/
theorem slotOf_lt (run : m.Runs steps m') (h : m.WellFormed) {s : Step} (hs : s ∈ steps)
    (localId : Nat) : s.merged.slotOf localId < m'.slots.size := by
  obtain ⟨hbefore, -, hmerged, later, rest⟩ := run.of_mem h hs
  refine Nat.lt_of_lt_of_le ?_ rest.size_slots_le
  rw [hmerged, merger_mergeSound, size_slots_connectAll]
  exact Merger.slotOf_lt hbefore s.batch localId

end Runs

/-- **The runs are the lists of batches that are merged without a refusal.** -/
theorem mergeAll_eq_ok_iff :
    (m.mergeAll bs).result = .ok m' ↔ ∃ steps, steps.map Step.batch = bs ∧ m.Runs steps m' := by
  induction bs generalizing m with
  | nil =>
    constructor
    · intro h
      obtain rfl : m = m' := Except.ok.inj h
      exact ⟨[], rfl, .nil m⟩
    · rintro ⟨steps, hsteps, run⟩
      obtain rfl := List.map_eq_nil_iff.mp hsteps
      cases run
      rfl
  | cons b bs ih =>
    rw [mergeAll]
    constructor
    · intro h
      split at h
      next => cases h
      next merged hmerge =>
        obtain ⟨steps, hsteps, run⟩ := ih.mp h
        exact ⟨⟨m, b, merged⟩ :: steps, by rw [List.map_cons, hsteps], .cons hmerge run⟩
    · rintro ⟨steps, hsteps, run⟩
      cases run with
      | nil => cases hsteps
      | cons hmerge rest =>
        obtain ⟨rfl, hrest⟩ := List.cons.inj hsteps
        simp only [hmerge]
        exact ih.mpr ⟨_, hrest, rest⟩

/-- Batches are merged without a refusal when each of them is accepted. -/
theorem exists_runs (m : Merger) (h : ∀ b ∈ bs, b.Accepted) :
    ∃ steps m', steps.map Step.batch = bs ∧ m.Runs steps m' := by
  induction bs generalizing m with
  | nil => exact ⟨[], m, rfl, .nil m⟩
  | cons b bs ih =>
    obtain ⟨steps, m', hsteps, run⟩ :=
      ih (m.mergeSound b).merger fun b hb ↦ h b (List.mem_cons_of_mem _ hb)
    have hmerge : m.merge b = .ok (m.mergeSound b) :=
      merge_eq_ok_iff.mpr ⟨h b List.mem_cons_self, rfl⟩
    exact ⟨⟨m, b, m.mergeSound b⟩ :: steps, m', by rw [List.map_cons, hsteps], .cons hmerge run⟩

end Merger

/-- **The finished graphs are those of the runs from the empty merger.** -/
theorem UseGraph.ofBatches_eq_ok_iff {bs : List Batch} {g : UseGraph} :
    (UseGraph.ofBatches bs).result = .ok g ↔
      ∃ steps m, steps.map Step.batch = bs ∧ Merger.empty.Runs steps m ∧ g = m.graph := by
  rw [UseGraph.ofBatches]
  constructor
  · intro h
    cases hresult : (Merger.empty.mergeAll bs).result with
    | error e => rw [hresult] at h; cases h
    | ok m =>
      rw [hresult] at h
      obtain ⟨steps, hsteps, run⟩ := Merger.mergeAll_eq_ok_iff.mp hresult
      exact ⟨steps, m, hsteps, run, (Except.ok.inj h).symm⟩
  · rintro ⟨steps, m, hsteps, run, rfl⟩
    rw [Merger.mergeAll_eq_ok_iff.mpr ⟨steps, hsteps, run⟩]
    rfl

/-- **Accepted batches have a graph**, that of the run which merges them. -/
theorem UseGraph.exists_run_ofBatches {bs : List Batch} (h : ∀ b ∈ bs, b.check = .ok ()) :
    ∃ steps m, steps.map Step.batch = bs ∧ Merger.empty.Runs steps m
      ∧ (UseGraph.ofBatches bs).result = .ok m.graph := by
  obtain ⟨steps, m, hsteps, run⟩ :=
    Merger.empty.exists_runs fun b hb ↦ Batch.check_eq_ok_iff.mp (h b hb)
  exact ⟨steps, m, hsteps, run, UseGraph.ofBatches_eq_ok_iff.mpr ⟨steps, m, hsteps, run, rfl⟩⟩

/-! ### Three batches -/

/-- Three batches that tell of one type: the first knows its path, the second its position, and the
third shows that the two are one. The type contains `u` according to the first batch and uses `V`
according to the second. -/
def bridged : List Batch :=
  let path (object : String) : Option ObjectPath := some ⟨"pkg", object⟩
  let position : Position := { file := "t.go", line := 1, column := some 6 }
  let root := { Node.root with uses := [1] }
  [⟨[root,
    { id := 1, name := "t", exported := false, kind := .type, path := path "t", owns := [2] },
      { id := 2, name := "u", exported := false, kind := .method, path := path "u" }]⟩,
    ⟨[root, { id := 1, name := "t", exported := false, kind := .type, position, uses := [1, 2] },
      { id := 2, name := "V", exported := true, kind := .function, path := path "V" }]⟩,
    ⟨[root,
      { id := 1, name := "t", exported := false, kind := .type, path := path "t", position }]⟩]

theorem check_bridged : ∀ b ∈ bridged, b.check = .ok () := by
  decide

end DeclExtract
