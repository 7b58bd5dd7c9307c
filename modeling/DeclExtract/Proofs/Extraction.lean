import DeclExtract.Proofs.Merge.Edges
import DeclExtract.Proofs.Selection.Closure

/-!
# Extractions are self-contained

An extraction that is not refused ends with the graph of its batches and with the selection in it
(`extract_eq_ok_iff`). What is copied refers to nothing that got lost on the way: take a node of any
batch that was recognised as a copied declaration, and anything that it uses in its batch. The merge
keeps the use, wherever it moves the two ends (`Merger.Runs.exists_mem_uses`), and the walk follows
it or leaves it across the boundary (`UseGraph.WellFormed.use_cases`).
-/

namespace DeclExtract

variable {bs : List Batch} {t : Targets} {config : Config} {g : UseGraph} {s : Selection}

theorem Reported.andThen_eq_ok_iff {α β : Type} {r : Reported α} {next : α → Reported β} {b : β} :
    (r.andThen next).result = .ok b ↔ ∃ a, r.result = .ok a ∧ (next a).result = .ok b := by
  unfold andThen
  cases hr : r.result with
  | error e => simp
  | ok a => simp

/-- A selection that is not refused is the one that was made. -/
theorem Selection.checked_eq_ok_iff {made : Selection} :
    made.checked t config = .ok s ↔
      made = s ∧ ¬ (config.requireResolved = true ∧ made.resolved = []) := by
  unfold checked
  by_cases hrefused : config.requireResolved = true ∧ made.resolved = []
  · simp [hrefused]
  · have hkept : ¬ (config.requireResolved && made.resolved.isEmpty) = true := by
      simpa using hrefused
    rw [if_neg hkept, Except.ok.injEq]
    exact (and_iff_left hrefused).symm

/-- A selection is refused for one reason only. -/
theorem Selection.checked_eq_error_iff {made : Selection} {e : Error} :
    made.checked t config = .error e ↔
      config.requireResolved = true ∧ made.resolved = [] ∧ e = .noTargetMatched t.text := by
  unfold checked
  by_cases hrefused : (config.requireResolved && made.resolved.isEmpty) = true
  · rw [if_pos hrefused, Except.error.injEq]
    rw [Bool.and_eq_true, List.isEmpty_iff] at hrefused
    exact ⟨fun heq ↦ ⟨hrefused.1, hrefused.2, heq.symm⟩, fun h ↦ h.2.2.symm⟩
  · rw [if_neg hrefused]
    rw [Bool.and_eq_true, List.isEmpty_iff] at hrefused
    exact ⟨nofun, fun h ↦ absurd ⟨h.1, h.2.1⟩ hrefused⟩

/-- **What an extraction comes to**, unless it is refused. -/
theorem extract_eq_ok_iff : (extract bs t config).result = .ok (g, s) ↔
    (UseGraph.ofBatches bs).result = .ok g ∧ g.select t = s
      ∧ ¬ (config.requireResolved = true ∧ (g.select t).resolved = []) := by
  rw [extract, Reported.andThen_eq_ok_iff]
  constructor
  · rintro ⟨made, hg, hresult⟩
    change ((made.select t).checked t config).map (fun s ↦ (made, s)) = .ok (g, s) at hresult
    cases hchecked : (made.select t).checked t config with
    | error e => rw [hchecked] at hresult; cases hresult
    | ok selected =>
      rw [hchecked] at hresult
      obtain ⟨rfl, rfl⟩ := Prod.mk.inj (Except.ok.inj hresult)
      exact ⟨hg, Selection.checked_eq_ok_iff.mp hchecked⟩
  · rintro ⟨hg, hchecked⟩
    refine ⟨g, hg, ?_⟩
    show ((g.select t).checked t config).map (fun s ↦ (g, s)) = .ok (g, s)
    rw [Selection.checked_eq_ok_iff.mpr hchecked]
    rfl

/-- **No reference of a copied declaration is lost.** The extraction merges its batches in a run.
Whenever a node of one of them was recognised as a copied declaration, whatever it uses there was
recognised as a declaration that is copied as well, or that is referred to across the boundary
because it is exported and no target, or as a root. -/
theorem uses_of_extract (h : (extract bs t config).result = .ok (g, s)) :
    ∃ steps m, steps.map Step.batch = bs ∧ Merger.empty.Runs steps m ∧ m.graph = g
      ∧ ∀ step ∈ steps, ∀ k ∈ step.batch.nodes, ∃ source,
        m.HasNumber (step.merged.slotOf k.id) source
          ∧ (source ∈ s.seen → ∀ used ∈ k.uses, ∃ target u,
            m.HasNumber (step.merged.slotOf used) target ∧ g.node? target = some u
              ∧ (target ∈ s.seen ∨ (target ∈ s.external ∧ u.exported = true ∧ u.name ∉ t.names)
                ∨ u.kind = .root)) := by
  obtain ⟨hg, rfl, -⟩ := extract_eq_ok_iff.mp h
  obtain ⟨steps, m, hsteps, run, rfl⟩ := UseGraph.ofBatches_eq_ok_iff.mp hg
  have hgraph := (run.wellFormed Merger.wellFormed_empty).wellFormed_graph
  refine ⟨steps, m, hsteps, run, rfl, fun step hstep k hk ↦ ?_⟩
  refine ⟨_, run.hasNumber hstep k.id, fun hseen used hused ↦ ?_⟩
  obtain ⟨n, hn, huse⟩ := run.exists_mem_uses hstep hk hused
  obtain ⟨u, hu, hcases⟩ := hgraph.use_cases hseen hn huse
  exact ⟨_, u, run.hasNumber hstep used, hu, hcases⟩

/-- The type of the three batches is copied, and what it uses according to any of them is accounted
for. -/
theorem uses_of_extract_bridged : ∃ g s, (extract bridged bridgedTargets {}).result = .ok (g, s)
    ∧ ∃ steps m, steps.map Step.batch = bridged ∧ Merger.empty.Runs steps m ∧ m.graph = g
      ∧ ∀ step ∈ steps, ∀ k ∈ step.batch.nodes, ∃ source,
        m.HasNumber (step.merged.slotOf k.id) source
          ∧ (source ∈ s.seen → ∀ used ∈ k.uses, ∃ target u,
            m.HasNumber (step.merged.slotOf used) target ∧ g.node? target = some u
              ∧ (target ∈ s.seen
                ∨ (target ∈ s.external ∧ u.exported = true ∧ u.name ∉ bridgedTargets.names)
                ∨ u.kind = .root)) := by
  obtain ⟨-, m, -, -, hg⟩ := UseGraph.exists_run_ofBatches check_bridged
  have hextract : (extract bridged bridgedTargets {}).result
      = .ok (m.graph, m.graph.select bridgedTargets) :=
    extract_eq_ok_iff.mpr ⟨hg, rfl, fun hrefused ↦ Bool.noConfusion hrefused.1⟩
  exact ⟨m.graph, _, hextract, uses_of_extract hextract⟩

end DeclExtract
