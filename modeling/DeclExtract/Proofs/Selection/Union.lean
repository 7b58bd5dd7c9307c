import Mathlib.Order.Bounds.Basic
import DeclExtract.Proofs.Selection.Closure

/-!
# Selections for more targets

A target does two things: it is where a walk starts, and it opens the visibility boundary wherever a
walk meets it. So a walk for two sets of targets passes through declarations that the walk for
either of them stops at. All the same, it finds nothing that the two do not find
(`WellFormed.closed_union`): a declaration that is behind the boundary for one set and not for both
is named by the other set, and the walk for that set starts there.

More targets only ever add to what is copied (`WellFormed.seen_subset`). What is referred to across
the boundary may become less, because it is copied instead.

The main statement is `UseGraph.select_union_ofBatches`.
-/

namespace DeclExtract

namespace Targets

/-- The targets of two sets together. -/
def union (s t : Targets) : Targets where
  names := ascending (s.names ++ t.names)
  names_ne_nil := by
    obtain ⟨name, rest, hnames⟩ := List.exists_cons_of_ne_nil s.names_ne_nil
    refine List.ne_nil_of_mem (mem_ascending.mpr (List.mem_append_left _ ?_) : name ∈ _)
    exact hnames ▸ List.mem_cons_self
  ne_empty name hname := by
    rw [mem_ascending, List.mem_append] at hname
    exact hname.elim (s.ne_empty name) (t.ne_empty name)
  pairwise := pairwise_ascending _

variable {s t : Targets} {name : String}

theorem mem_union : name ∈ (s.union t).names ↔ name ∈ s.names ∨ name ∈ t.names := by
  rw [union, mem_ascending, List.mem_append]

/-- Two lists of names, read one after the other, give the targets of both. -/
theorem ofNames_append (s t : Targets) : ofNames (s.names ++ t.names) = .ok (s.union t) := by
  have hempty : "" ∉ s.names ++ t.names := fun hname ↦
    (s.union t).ne_empty "" (mem_ascending.mpr hname) rfl
  have hnil : s.names ++ t.names ≠ [] := fun h ↦ s.names_ne_nil (List.append_eq_nil_iff.mp h).1
  rw [ofNames, dif_neg hempty, dif_neg hnil]
  rfl

end Targets

namespace UseGraph

variable {g : UseGraph} {s t : Targets} {ids : Set Nat}

/-- A set that is closed for some targets is closed for fewer of them. -/
theorem Closed.mono (h : g.Closed t ids) (hsub : ∀ name ∈ s.names, name ∈ t.names) :
    g.Closed s ids where
  target hn hkind hname := h.target hn hkind (hsub _ hname)
  method hid hmethod := h.method hid hmethod
  use hid hn hmem hu hkind hside := h.use hid hn hmem hu hkind (hside.imp_right (hsub _))

namespace WellFormed

/-- **More targets bring more declarations.** -/
theorem seen_subset (h : g.WellFormed) (hsub : ∀ name ∈ s.names, name ∈ t.names) :
    {id | id ∈ (g.select s).seen} ⊆ {id | id ∈ (g.select t).seen} :=
  (h.isLeast_seen s).2 ((h.isLeast_seen t).1.mono hsub)

/-- **What two walks find is closed for the targets of both.** -/
theorem closed_union (h : g.WellFormed) (s t : Targets) :
    g.Closed (s.union t) ({id | id ∈ (g.select s).seen} ∪ {id | id ∈ (g.select t).seen}) := by
  have hs := (h.isLeast_seen s).1
  have ht := (h.isLeast_seen t).1
  -- a declaration with the name of a target is where one of the walks starts
  have htarget {id : Nat} {n : Node} (hn : g.node? id = some n) (hkind : n.kind ≠ .root)
      (hname : n.name ∈ (s.union t).names) :
      id ∈ {id | id ∈ (g.select s).seen} ∪ {id | id ∈ (g.select t).seen} :=
    (Targets.mem_union.mp hname).imp (hs.target hn hkind) (ht.target hn hkind)
  refine ⟨htarget, fun hid hmethod ↦ ?_, fun hid hn hmem hu hkind hside ↦ ?_⟩
  · exact hid.imp (hs.method · hmethod) (ht.method · hmethod)
  · rcases hside with hprivate | hname
    · exact hid.imp (hs.use · hn hmem hu hkind (Or.inl hprivate))
        (ht.use · hn hmem hu hkind (Or.inl hprivate))
    · exact htarget hu hkind hname

/-- **What is copied for two sets of targets is what is copied for one or the other.** -/
theorem seen_union (h : g.WellFormed) (s t : Targets) :
    {id | id ∈ (g.select (s.union t)).seen}
      = {id | id ∈ (g.select s).seen} ∪ {id | id ∈ (g.select t).seen} := by
  refine Set.Subset.antisymm ((h.isLeast_seen _).2 (h.closed_union s t)) (Set.union_subset ?_ ?_)
  · exact h.seen_subset fun name hname ↦ Targets.mem_union.mpr (Or.inl hname)
  · exact h.seen_subset fun name hname ↦ Targets.mem_union.mpr (Or.inr hname)

theorem mem_seen_union (h : g.WellFormed) {id : Nat} :
    id ∈ (g.select (s.union t)).seen ↔ id ∈ (g.select s).seen ∨ id ∈ (g.select t).seen :=
  Set.ext_iff.mp (h.seen_union s t) id

/-- A declaration that is not copied is behind the boundary for some targets just when it is for
fewer of them, since none of the targets names it. -/
theorem isBoundary_iff_of_subset (h : g.WellFormed) {id : Nat} (hid : id ∉ (g.select t).seen)
    (hsub : ∀ name ∈ s.names, name ∈ t.names) :
    g.isBoundary t id = true ↔ g.isBoundary s id = true := by
  have hunnamed {n : Node} (hn : g.node? id = some n) (hkind : n.kind ≠ .root) : n.name ∉ t.names :=
    fun hname ↦ hid ((h.isLeast_seen t).1.target hn hkind hname)
  rw [isBoundary_iff, isBoundary_iff]
  constructor
  · rintro ⟨n, hn, hkind, hexported, hname⟩
    exact ⟨n, hn, hkind, hexported, fun hs ↦ hname (hsub _ hs)⟩
  · rintro ⟨n, hn, hkind, hexported, -⟩
    exact ⟨n, hn, hkind, hexported, hunnamed hn hkind⟩

/-- **What is referred to for two sets of targets** is what is referred to for one or the other and
not copied for both. -/
theorem external_union (h : g.WellFormed) (s t : Targets) :
    {id | id ∈ (g.select (s.union t)).external}
      = ({id | id ∈ (g.select s).external} ∪ {id | id ∈ (g.select t).external})
        \ {id | id ∈ (g.select (s.union t)).seen} := by
  ext id
  show id ∈ (g.select (s.union t)).external ↔
    (id ∈ (g.select s).external ∨ id ∈ (g.select t).external) ∧ id ∉ (g.select (s.union t)).seen
  by_cases hid : id ∈ (g.select (s.union t)).seen
  · rw [mem_external]
    exact ⟨fun hleft ↦ absurd hid hleft.1, fun hright ↦ absurd hid hright.2⟩
  obtain ⟨hs, ht⟩ := not_or.mp fun hseen ↦ hid (h.mem_seen_union.mpr hseen)
  have huser : (∃ k ∈ (g.select (s.union t)).seen, id ∈ g.usesOf k) ↔
      (∃ k ∈ (g.select s).seen, id ∈ g.usesOf k) ∨ ∃ k ∈ (g.select t).seen, id ∈ g.usesOf k := by
    simp only [h.mem_seen_union, or_and_right, exists_or]
  rw [mem_external, mem_external, mem_external, huser,
    ← h.isBoundary_iff_of_subset hid fun name hname ↦ Targets.mem_union.mpr (Or.inl hname),
    ← h.isBoundary_iff_of_subset hid fun name hname ↦ Targets.mem_union.mpr (Or.inr hname)]
  simp [hid, hs, ht, or_and_right]

end WellFormed

/-- **Extraction distributes over targets.** Two sets of targets are the targets of their names read
one after the other. What is copied for both is what is copied for one or the other, and what is
referred to is what is referred to for one or the other and not copied. -/
theorem select_union_ofBatches {bs : List Batch} (h : (UseGraph.ofBatches bs).result = .ok g)
    (s t : Targets) :
    Targets.ofNames (s.names ++ t.names) = .ok (s.union t)
      ∧ {id | id ∈ (g.select (s.union t)).seen}
        = {id | id ∈ (g.select s).seen} ∪ {id | id ∈ (g.select t).seen}
      ∧ {id | id ∈ (g.select (s.union t)).external}
        = ({id | id ∈ (g.select s).external} ∪ {id | id ∈ (g.select t).external})
          \ {id | id ∈ (g.select (s.union t)).seen} := by
  have hg := wellFormed_of_ofBatches h
  exact ⟨Targets.ofNames_append s t, hg.seen_union s t, hg.external_union s t⟩

/-- The exported declaration that the type of the three batches uses. -/
def bridgedBoundary : Targets where
  names := ["V"]
  names_ne_nil := by decide
  ne_empty := by decide
  pairwise := by decide

/-- In the graph of the three batches the type refers to a declaration that is copied when it is a
target as well. -/
theorem select_union_bridged : ∃ g, (UseGraph.ofBatches bridged).result = .ok g
    ∧ Targets.ofNames (bridgedTargets.names ++ bridgedBoundary.names)
      = .ok (bridgedTargets.union bridgedBoundary)
    ∧ {id | id ∈ (g.select (bridgedTargets.union bridgedBoundary)).seen}
      = {id | id ∈ (g.select bridgedTargets).seen} ∪ {id | id ∈ (g.select bridgedBoundary).seen}
    ∧ {id | id ∈ (g.select (bridgedTargets.union bridgedBoundary)).external}
      = ({id | id ∈ (g.select bridgedTargets).external}
          ∪ {id | id ∈ (g.select bridgedBoundary).external})
        \ {id | id ∈ (g.select (bridgedTargets.union bridgedBoundary)).seen} := by
  obtain ⟨-, m, -, -, hg⟩ := UseGraph.exists_run_ofBatches check_bridged
  exact ⟨m.graph, hg, UseGraph.select_union_ofBatches hg bridgedTargets bridgedBoundary⟩

end UseGraph

end DeclExtract
