import DeclExtract.Proofs.Extraction
import DeclExtract.Proofs.Merge.Exported

/-!
# Targets are accounted for

Three places deal with the targets: a selection lists the resolved and the unresolved ones, the walk
starts at what they name, and the refusal and the warnings that a config asks for look at the two
lists. They agree with each other (`UseGraph.AccountsFor`).

Nothing is copied just when no target is resolved (`WellFormed.seen_eq_nil_iff`), because the empty
set of ids is closed just then. So a selection is refused for want of a resolved target exactly if
it would copy nothing.
-/

namespace DeclExtract

namespace UseGraph

variable {g : UseGraph} {t : Targets} {config : Config}

/-- **The targets are accounted for** in a graph, under a config. -/
structure AccountsFor (g : UseGraph) (t : Targets) (config : Config) : Prop where
  /-- Every target is listed once, as resolved or as unresolved. -/
  perm : ((g.select t).resolved ++ (g.select t).unresolved).Perm t.names
  /-- No target is listed as both. -/
  disjoint : ∀ name ∈ (g.select t).resolved, name ∉ (g.select t).unresolved
  /-- Both lists are in the order of the names. -/
  pairwise : (g.select t).resolved.Pairwise (· < ·) ∧ (g.select t).unresolved.Pairwise (· < ·)
  /-- A target is resolved when a declaration has its name. -/
  resolved_iff : ∀ name ∈ t.names,
    (name ∈ (g.select t).resolved ↔ ∃ id n, g.node? id = some n ∧ n.kind ≠ .root ∧ n.name = name)
  /-- Nothing is copied just when no target is resolved. -/
  seen_iff : (g.select t).seen = [] ↔ (g.select t).resolved = []
  /-- The selection is refused when nothing is copied and the config does not accept that. -/
  error_iff : ∀ e, (g.selectWith t config).result = .error e ↔
    config.requireResolved = true ∧ (g.select t).seen = [] ∧ e = .noTargetMatched t.text
  /-- Otherwise the result is the selection as it is without a config. -/
  ok_iff : ∀ s, (g.selectWith t config).result = .ok s ↔
    ¬ (config.requireResolved = true ∧ (g.select t).seen = []) ∧ s = g.select t
  /-- Whatever the result, the warnings are one for each unresolved target, in their order, if the
  config asks for them, and none if not. -/
  warnings_eq : (g.selectWith t config).events.filter (fun e ↦ e.level = .warn) =
    if config.reportUnresolved then (g.select t).unresolved.map .unmatchedTarget else []

/-! ### Resolved targets -/

theorem mem_resolved_iff {name : String} :
    name ∈ (g.select t).resolved ↔ name ∈ t.names ∧ g.resolves name = true :=
  List.mem_filter

theorem mem_unresolved_iff {name : String} :
    name ∈ (g.select t).unresolved ↔ name ∈ t.names ∧ ¬ g.resolves name = true := by
  rw [Bool.not_eq_true, ← Bool.not_eq_true']
  exact List.mem_filter

/-- Without a resolved target there is nothing to start from, so the empty set of ids is closed. -/
theorem WellFormed.closed_empty (h : g.WellFormed) (hnone : (g.select t).resolved = []) :
    g.Closed t ∅ where
  target hn hkind hname := by
    have hresolved := mem_resolved_iff.mpr ⟨hname, h.resolves_iff.mpr ⟨_, _, hn, hkind, rfl⟩⟩
    rw [hnone] at hresolved
    cases hresolved
  method hid := absurd hid (Set.notMem_empty _)
  use hid := absurd hid (Set.notMem_empty _)

/-- **Nothing is copied just when no target is resolved.** -/
theorem WellFormed.seen_eq_nil_iff (h : g.WellFormed) :
    (g.select t).seen = [] ↔ (g.select t).resolved = [] := by
  have hleast := h.isLeast_seen t
  constructor
  · intro hseen
    refine List.eq_nil_iff_forall_not_mem.mpr fun name hname ↦ ?_
    obtain ⟨hmem, hresolves⟩ := mem_resolved_iff.mp hname
    obtain ⟨id, n, hn, hkind, rfl⟩ := h.resolves_iff.mp hresolves
    have hcopied : id ∈ (g.select t).seen := hleast.1.target hn hkind hmem
    rw [hseen] at hcopied
    cases hcopied
  · intro hnone
    exact List.eq_nil_iff_forall_not_mem.mpr fun id hid ↦ hleast.2 (h.closed_empty hnone) hid

/-! ### The account -/

/-- The warnings are those that the config asks for: that a selection was made is no warning. -/
theorem filter_warn_events : (g.selectWith t config).events.filter (fun e ↦ e.level = .warn) =
    (g.select t).warnings config := by
  show ((g.select t).event t :: (g.select t).warnings config).filter (fun e ↦ e.level = .warn) = _
  rw [List.filter_cons_of_neg (by simp [Selection.event, Event.level]), List.filter_eq_self]
  intro e he
  unfold Selection.warnings at he
  split at he
  · obtain ⟨name, -, rfl⟩ := List.mem_map.mp he
    rfl
  · cases he

/-- **The targets are accounted for in every well-formed graph.** -/
theorem WellFormed.accountsFor (h : g.WellFormed) (t : Targets) (config : Config) :
    g.AccountsFor t config where
  perm := List.filter_append_perm g.resolves t.names
  disjoint name hresolved hunresolved :=
    (mem_unresolved_iff.mp hunresolved).2 (mem_resolved_iff.mp hresolved).2
  pairwise := ⟨t.pairwise.filter _, t.pairwise.filter _⟩
  resolved_iff name hname := by rw [mem_resolved_iff, and_iff_right hname, h.resolves_iff]
  seen_iff := h.seen_eq_nil_iff
  error_iff e := by
    rw [h.seen_eq_nil_iff]
    exact Selection.checked_eq_error_iff
  ok_iff s := by
    rw [h.seen_eq_nil_iff, and_comm, eq_comm (a := s)]
    exact Selection.checked_eq_ok_iff
  warnings_eq := filter_warn_events

/-- **Targets are accounted for** in the graph of accepted batches, whatever the targets and the
config are. -/
theorem accountsFor_ofBatches {bs : List Batch} (h : (ofBatches bs).result = .ok g) (t : Targets)
    (config : Config) : g.AccountsFor t config :=
  (wellFormed_of_ofBatches h).accountsFor t config

/-- The variable, and a name that no declaration has. -/
def absentTargets : Targets where
  names := ["absent", "v"]
  names_ne_nil := by decide
  ne_empty := by decide
  pairwise := by decide

/-- A config that asks for warnings, and for a target that is resolved. -/
def attentive : Config where
  reportUnresolved := true
  requireResolved := true

/-- The name that no declaration has is warned of, and the selection is made for the variable. -/
theorem accountsFor_absent : ∃ g, (ofBatches [Batch.listing]).result = .ok g
    ∧ g.AccountsFor absentTargets attentive
    ∧ (g.select absentTargets).resolved = ["v"] ∧ (g.select absentTargets).unresolved = ["absent"]
    ∧ (g.selectWith absentTargets attentive).events.filter (fun e ↦ e.level = .warn)
      = [.unmatchedTarget "absent"]
    ∧ (g.selectWith absentTargets attentive).result = .ok (g.select absentTargets) := by
  obtain ⟨g, hg, hnodes, -⟩ := Batch.exported_listing.exists_graph
  have h := accountsFor_ofBatches hg absentTargets attentive
  have hvariable : g.node? 1 = some Batch.listingVariable := hnodes 1
  have hresolves : g.resolves "v" = true :=
    (wellFormed_of_ofBatches hg).resolves_iff.mpr ⟨1, _, hvariable, by decide, rfl⟩
  have hmisses : g.resolves "absent" = false := Bool.eq_false_of_not_eq_true fun hresolves ↦ by
    obtain ⟨id, n, hn, -, hname⟩ := (wellFormed_of_ofBatches hg).resolves_iff.mp hresolves
    have hnames : ∀ n ∈ Batch.listing.nodes, n.name ≠ "absent" := by decide
    exact hnames n (List.mem_of_getElem? (hnodes id ▸ hn)) hname
  have hresolved : (g.select absentTargets).resolved = ["v"] := by
    show ["absent", "v"].filter g.resolves = ["v"]
    simp [hresolves, hmisses]
  have hunresolved : (g.select absentTargets).unresolved = ["absent"] := by
    show ["absent", "v"].filter (fun name ↦ !g.resolves name) = ["absent"]
    simp [hresolves, hmisses]
  refine ⟨g, hg, h, hresolved, hunresolved, ?_, (h.ok_iff _).mpr ⟨fun hrefused ↦ ?_, rfl⟩⟩
  · rw [h.warnings_eq, hunresolved]
    rfl
  · have hnone := h.seen_iff.mp hrefused.2
    rw [hresolved] at hnone
    cases hnone

end UseGraph

end DeclExtract
