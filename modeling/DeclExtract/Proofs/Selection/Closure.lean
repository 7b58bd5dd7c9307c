import Mathlib.Order.Bounds.Defs
import DeclExtract.Proofs.Merge.Graph
import DeclExtract.Selection.Basic

/-!
# A selection is a closure

What has to be copied is the least set that holds the declarations the targets name and is closed
under two rules: a declaration brings its methods, and it brings the internal declarations that it
uses (`UseGraph.Closed`). The walk finds this set.

* Nothing is visited that a closed set could do without (`Walk.mem_of_contains_run`).
* Nothing is left out: a successor of a visited node has been visited or is still on the stack
  (`Walk.Pending`), and at the end the stack is empty.

The declarations across the boundary are then those that a copied one uses and that are not copied.
The main statement is `UseGraph.isLeast_seen_ofBatches`.

That some node is not copied is shown by a closed set without it. So no root is copied unless a
named type lists it (`WellFormed.notMem_seen_of_not_lists`).
-/

namespace DeclExtract

namespace UseGraph

variable {g : UseGraph} {t : Targets} {id other : Nat}

/-- A set of ids that holds what the targets name and everything that its members bring. -/
structure Closed (g : UseGraph) (t : Targets) (ids : Set Nat) : Prop where
  /-- It holds the declarations that a target names. -/
  target : ∀ {id n}, g.node? id = some n → n.kind ≠ .root → n.name ∈ t.names → id ∈ ids
  /-- It holds the methods of its members. -/
  method : ∀ {id other}, id ∈ ids → other ∈ g.methods id → other ∈ ids
  /-- It holds what its members use, unless that is a root or stays behind the boundary. -/
  use : ∀ {id n other u}, id ∈ ids → g.node? id = some n → other ∈ n.uses → g.node? other = some u →
    u.kind ≠ .root → (u.exported = false ∨ u.name ∈ t.names) → other ∈ ids

/-! ### The rules of the walk -/

theorem mem_usesOf : other ∈ g.usesOf id ↔ ∃ n, g.node? id = some n ∧ other ∈ n.uses := by
  unfold usesOf
  cases g.node? id with
  | none => simp
  | some n => simp

theorem isInternal_iff : g.isInternal t id = true ↔
    ∃ u, g.node? id = some u ∧ u.kind ≠ .root ∧ (u.exported = false ∨ u.name ∈ t.names) := by
  unfold isInternal Targets.contains
  cases g.node? id with
  | none => simp
  | some u => cases u.exported <;> simp

theorem isBoundary_iff : g.isBoundary t id = true ↔
    ∃ u, g.node? id = some u ∧ u.kind ≠ .root ∧ u.exported = true ∧ u.name ∉ t.names := by
  unfold isBoundary Targets.contains
  cases g.node? id with
  | none => simp
  | some u => simp [and_assoc]

theorem mem_successors :
    other ∈ g.successors t id ↔
      other ∈ g.methods id ∨ (other ∈ g.usesOf id ∧ g.isInternal t other = true) := by
  rw [successors, List.mem_append, List.mem_filter]

theorem WellFormed.mem_seeds (h : g.WellFormed) :
    id ∈ g.seeds t ↔ ∃ n, g.node? id = some n ∧ n.kind ≠ .root ∧ n.name ∈ t.names := by
  rw [seeds, mem_ascending, List.mem_flatMap]
  constructor
  · rintro ⟨name, hname, hid⟩
    obtain ⟨n, hn, hkind, rfl⟩ := h.mem_named_iff.mp hid
    exact ⟨n, hn, hkind, hname⟩
  · rintro ⟨n, hn, hkind, hname⟩
    exact ⟨n.name, hname, h.mem_named_iff.mpr ⟨n, hn, hkind, rfl⟩⟩

theorem WellFormed.lt_of_mem_successors (h : g.WellFormed) (hother : other ∈ g.successors t id) :
    other < g.size := by
  rcases mem_successors.mp hother with hmethod | ⟨-, hinternal⟩
  · exact h.lt_of_mem_methods hmethod
  · obtain ⟨u, hu, -⟩ := isInternal_iff.mp hinternal
    exact lt_size_of_node? hu

/-- **A set is closed when it holds the seeds and the successors of its members.** -/
theorem WellFormed.closed_iff (h : g.WellFormed) {ids : Set Nat} :
    g.Closed t ids ↔
      (∀ id ∈ g.seeds t, id ∈ ids) ∧ ∀ id ∈ ids, ∀ other ∈ g.successors t id, other ∈ ids := by
  constructor
  · intro hclosed
    refine ⟨fun id hid ↦ ?_, fun id hid other hother ↦ ?_⟩
    · obtain ⟨n, hn, hkind, hname⟩ := h.mem_seeds.mp hid
      exact hclosed.target hn hkind hname
    · rcases mem_successors.mp hother with hmethod | ⟨huse, hinternal⟩
      · exact hclosed.method hid hmethod
      · obtain ⟨n, hn, hmem⟩ := mem_usesOf.mp huse
        obtain ⟨u, hu, hkind, hside⟩ := isInternal_iff.mp hinternal
        exact hclosed.use hid hn hmem hu hkind hside
  · rintro ⟨hseeds, hsuccessors⟩
    exact {
      target := fun hn hkind hname ↦ hseeds _ (h.mem_seeds.mpr ⟨_, hn, hkind, hname⟩)
      method := fun hid hmethod ↦ hsuccessors _ hid _ (mem_successors.mpr (Or.inl hmethod))
      use := fun hid hn hmem hu hkind hside ↦
        hsuccessors _ hid _ (mem_successors.mpr
          (Or.inr ⟨mem_usesOf.mpr ⟨_, hn, hmem⟩, isInternal_iff.mpr ⟨_, hu, hkind, hside⟩⟩)) }

end UseGraph

/-! ### The walk -/

namespace Walk

variable {g : UseGraph} {t : Targets} {w : Walk} {stack : List Nat} {id other : Nat}

theorem isNew_iff :
    w.isNew id = true ↔ w.visited.inBounds id = true ∧ w.visited.contains id = false := by
  simp [isNew]

/-- An id that is not new has been visited or is none of the graph's. -/
theorem contains_of_not_isNew (hnew : ¬ w.isNew id = true) (hid : w.visited.inBounds id = true) :
    w.visited.contains id = true := by
  by_contra hcontains
  exact hnew (isNew_iff.mpr ⟨hid, by simpa using hcontains⟩)

theorem inBounds_run : (run g t w stack).visited.inBounds id = w.visited.inBounds id := by
  fun_induction run g t w stack with
  | case1 w => rfl
  | case2 w next stack hnew w' ih => rw [ih]; exact NodeSet.inBounds_insert
  | case3 w next stack hnew ih => exact ih

/-- What was visited stays visited. -/
theorem contains_run_of_contains (hid : w.visited.contains id = true) :
    (run g t w stack).visited.contains id = true := by
  fun_induction run g t w stack with
  | case1 w => exact hid
  | case2 w next stack hnew w' ih => exact ih (NodeSet.contains_insert.mpr (Or.inr hid))
  | case3 w next stack hnew ih => exact ih hid

/-- **Nothing more than the closure is visited.** -/
theorem mem_of_contains_run {ids : Set Nat}
    (hclosed : ∀ id ∈ ids, ∀ next ∈ g.successors t id, next ∈ ids)
    (hvisited : ∀ id, w.visited.contains id = true → id ∈ ids) (hstack : ∀ id ∈ stack, id ∈ ids)
    (hid : (run g t w stack).visited.contains id = true) : id ∈ ids := by
  fun_induction run g t w stack with
  | case1 w => exact hvisited id hid
  | case2 w next stack hnew w' ih =>
    have hnext : next ∈ ids := hstack next List.mem_cons_self
    refine ih (fun k hk ↦ ?_) (fun k hk ↦ ?_) hid
    · rcases NodeSet.contains_insert.mp hk with ⟨rfl, -⟩ | hk
      · exact hnext
      · exact hvisited k hk
    · rcases List.mem_append.mp hk with hk | hk
      · exact hclosed next hnext k (List.mem_filter.mp hk).1
      · exact hstack k (List.mem_cons_of_mem _ hk)
  | case3 w next stack hnew ih =>
    exact ih hvisited (fun k hk ↦ hstack k (List.mem_cons_of_mem _ hk)) hid

/-- **What a walk has still to do is on its stack**: a successor of a visited node, if it is one of
the graph's, was visited or is to be visited. -/
def Pending (g : UseGraph) (t : Targets) (w : Walk) (stack : List Nat) : Prop :=
  ∀ id, w.visited.contains id = true → ∀ next ∈ g.successors t id, w.visited.inBounds next = true →
    w.visited.contains next = true ∨ next ∈ stack

/-- Everything on the stack is visited. -/
theorem contains_run_of_mem (hid : id ∈ stack) (hbounds : w.visited.inBounds id = true) :
    (run g t w stack).visited.contains id = true := by
  fun_induction run g t w stack with
  | case1 w => cases hid
  | case2 w next stack hnew w' ih =>
    rcases List.mem_cons.mp hid with rfl | hid
    · exact contains_run_of_contains (NodeSet.contains_insert.mpr (Or.inl ⟨rfl, hbounds⟩))
    · refine ih (List.mem_append_right _ hid) ?_
      rw [← hbounds]
      exact NodeSet.inBounds_insert
  | case3 w next stack hnew ih =>
    rcases List.mem_cons.mp hid with rfl | hid
    · exact contains_run_of_contains (w := w.pass) (contains_of_not_isNew hnew hbounds)
    · exact ih hid hbounds

/-- **At the end nothing is left to do.** -/
theorem pending_run (h : Pending g t w stack) : Pending g t (run g t w stack) [] := by
  fun_induction run g t w stack with
  | case1 w => exact h
  | case2 w next stack hnew w' ih =>
    refine ih fun id hid k hk hbounds ↦ ?_
    by_cases hvisited : w'.visited.contains k = true
    · exact Or.inl hvisited
    right
    -- the visit itself put `k` on the stack, or `k` was pending before
    rcases NodeSet.contains_insert.mp hid with ⟨rfl, -⟩ | hid
    · exact List.mem_append_left _ (List.mem_filter.mpr ⟨hk, by simpa using hvisited⟩)
    · have hbounds' : w.visited.inBounds k = true := by
        rw [← hbounds]
        exact NodeSet.inBounds_insert.symm
      rcases h id hid k hk hbounds' with hold | hstack
      · exact absurd (NodeSet.contains_insert.mpr (Or.inr hold)) hvisited
      · rcases List.mem_cons.mp hstack with rfl | hstack
        · exact absurd (NodeSet.contains_insert.mpr (Or.inl ⟨rfl, hbounds'⟩)) hvisited
        · exact List.mem_append_right _ hstack
  | case3 w next stack hnew ih =>
    refine ih fun id hid k hk hbounds ↦ ?_
    rcases h id hid k hk hbounds with hold | hstack
    · exact Or.inl hold
    · rcases List.mem_cons.mp hstack with rfl | hstack
      · exact Or.inl (contains_of_not_isNew hnew hbounds)
      · exact Or.inr hstack

end Walk

/-! ### The selection -/

namespace UseGraph

variable {g : UseGraph} {t : Targets} {id : Nat}

/-- The ids that were visited are those of a closed set. -/
theorem WellFormed.closed_ofTargets (h : g.WellFormed) :
    g.Closed t {id | (Walk.ofTargets g t).visited.contains id = true} := by
  have hstart {id : Nat} (hid : id < g.size) : (Walk.start g).visited.inBounds id = true := by
    rw [Walk.start, NodeSet.inBounds_empty]
    exact decide_eq_true hid
  refine h.closed_iff.mpr ⟨fun id hid ↦ ?_, fun id hid next hnext ↦ ?_⟩
  · obtain ⟨n, hn, -, -⟩ := h.mem_seeds.mp hid
    exact Walk.contains_run_of_mem hid (hstart (lt_size_of_node? hn))
  · -- nothing was visited at the start, so nothing was pending
    have hpending : Walk.Pending g t (Walk.start g) (g.seeds t) := fun k hk ↦ by
      rw [Walk.start, NodeSet.contains_empty] at hk
      cases hk
    have hbounds : (Walk.ofTargets g t).visited.inBounds next = true := by
      rw [Walk.ofTargets, Walk.inBounds_run]
      exact hstart (h.lt_of_mem_successors hnext)
    exact (Walk.pending_run hpending id hid next hnext hbounds).resolve_right List.not_mem_nil

/-- **What is copied is the closure of the targets.** -/
theorem WellFormed.isLeast_seen (h : g.WellFormed) (t : Targets) :
    IsLeast {ids : Set Nat | g.Closed t ids} {id | id ∈ (g.select t).seen} := by
  have hseen : {id | id ∈ (g.select t).seen}
      = {id | (Walk.ofTargets g t).visited.contains id = true} :=
    Set.ext fun id ↦ NodeSet.mem_toList
  rw [hseen]
  refine ⟨h.closed_ofTargets, fun ids hids id hid ↦ ?_⟩
  obtain ⟨hseeds, hsuccessors⟩ := h.closed_iff.mp hids
  refine Walk.mem_of_contains_run hsuccessors (fun k hk ↦ ?_) hseeds hid
  rw [Walk.start, NodeSet.contains_empty] at hk
  cases hk

/-- **What is referred to is used by something that is copied, lies across the boundary, and is not
copied itself.** -/
theorem mem_external : id ∈ (g.select t).external ↔
    id ∉ (g.select t).seen ∧ (∃ k ∈ (g.select t).seen, id ∈ g.usesOf k)
      ∧ g.isBoundary t id = true := by
  show id ∈ g.externals t (Walk.ofTargets g t).visited (Walk.ofTargets g t).visited.toList ↔ _
  rw [externals, List.mem_filter, NodeSet.mem_toList, NodeSet.contains_foldl_insertAll,
    NodeSet.inBounds_empty, NodeSet.contains_empty]
  have hseen : (!(Walk.ofTargets g t).visited.contains id) = true ↔ id ∉ (g.select t).seen := by
    show _ ↔ id ∉ (Walk.ofTargets g t).visited.toList
    rw [NodeSet.mem_toList, Bool.not_eq_true', Bool.not_eq_true]
  rw [hseen]
  constructor
  · rintro ⟨⟨-, k, hk, hmarked⟩ | hempty, hid⟩
    · obtain ⟨huse, hboundary⟩ := List.mem_filter.mp hmarked
      exact ⟨hid, ⟨k, hk, huse⟩, hboundary⟩
    · cases hempty
  · rintro ⟨hid, ⟨k, hk, huse⟩, hboundary⟩
    obtain ⟨u, hu, -⟩ := isBoundary_iff.mp hboundary
    refine ⟨Or.inl ⟨decide_eq_true (lt_size_of_node? hu), k, hk, ?_⟩, hid⟩
    exact List.mem_filter.mpr ⟨huse, hboundary⟩

/-- The named type of a node lists another node as a method: it is looked up under one of the listed
identities. -/
def Lists (g : UseGraph) (id other : Nat) : Prop :=
  ∃ n type, g.node? id = some n ∧ n.namedType = some type ∧ ∃ i ∈ type.methods,
  g.lookup i = some other

theorem Lists.mem_methods (h : g.Lists id other) : other ∈ g.methods id := by
  obtain ⟨n, type, hn, htype, hmethod⟩ := h
  exact UseGraph.mem_methods.mpr ⟨n, hn, Or.inl ⟨type, htype, hmethod⟩⟩

/-- **Roots are copied as listed methods only.** Among the ways into a selection this is the one
that does not ask whether it leads to a root. So if no copied node outside a set of roots lists one
of them, none of them is copied. -/
theorem WellFormed.notMem_seen_of_not_lists (h : g.WellFormed) {roots : Set Nat}
    (hroots : ∀ id ∈ roots, ∀ n, g.node? id = some n → n.kind = .root)
    (hlists : ∀ id ∈ (g.select t).seen, id ∉ roots → ∀ other ∈ roots, ¬ g.Lists id other)
    (hid : id ∈ roots) : id ∉ (g.select t).seen := by
  have hseen := (h.isLeast_seen t).1
  have hdeclared {id : Nat} {n : Node} (hn : g.node? id = some n) (hkind : n.kind ≠ .root) :
      id ∉ roots := fun hid ↦ hkind (hroots id hid n hn)
  have hclosed : g.Closed t {id | id ∈ (g.select t).seen ∧ id ∉ roots} := by
    refine ⟨fun hn hkind hname ↦ ?_, fun {id other} ⟨hid, hold⟩ hmethod ↦ ?_,
      fun ⟨hid, _⟩ hn hmem hu hkind hside ↦ ?_⟩
    · exact ⟨hseen.target hn hkind hname, hdeclared hn hkind⟩
    · refine ⟨hseen.method hid hmethod, ?_⟩
      obtain ⟨n, hn, ⟨type, htype, hlisted⟩ | ⟨-, -, k, hk, hkind⟩⟩ := mem_methods.mp hmethod
      · exact fun hother ↦ hlists id hid hold other hother ⟨n, type, hn, htype, hlisted⟩
      · exact hdeclared hk (by rw [hkind]; decide)
    · exact ⟨hseen.use hid hn hmem hu hkind hside, hdeclared hu hkind⟩
  exact fun hcopied ↦ ((h.isLeast_seen t).2 hclosed hcopied).2 hid

/-- **Whatever a copied declaration uses is accounted for**: it is copied as well, it is referred to
across the boundary, or it is a root. -/
theorem WellFormed.use_cases (h : g.WellFormed) {k : Nat} (hk : k ∈ (g.select t).seen) {n : Node}
    (hn : g.node? k = some n) (huse : id ∈ n.uses) : ∃ u, g.node? id = some u
      ∧ (id ∈ (g.select t).seen
        ∨ (id ∈ (g.select t).external ∧ u.exported = true ∧ u.name ∉ t.names)
        ∨ u.kind = .root) := by
  obtain ⟨u, hu⟩ := exists_node? (h.target_lt hn (List.mem_append_left _ huse))
  refine ⟨u, hu, ?_⟩
  by_cases hseen : id ∈ (g.select t).seen
  · exact Or.inl hseen
  by_cases hkind : u.kind = .root
  · exact Or.inr (Or.inr hkind)
  -- on the inner side of the boundary it would have been copied
  have houtside : ¬ (u.exported = false ∨ u.name ∈ t.names) := fun hside ↦
    hseen ((h.isLeast_seen t).1.use hk hn huse hu hkind hside)
  have hexported : u.exported = true := by simpa using fun hinside ↦ houtside (Or.inl hinside)
  have hname : u.name ∉ t.names := fun hmem ↦ houtside (Or.inr hmem)
  have hboundary := isBoundary_iff.mpr ⟨u, hu, hkind, hexported, hname⟩
  refine Or.inr (Or.inl ⟨mem_external.mpr ⟨hseen, ⟨k, hk, ?_⟩, hboundary⟩, hexported, hname⟩)
  exact mem_usesOf.mpr ⟨n, hn, huse⟩

end UseGraph

/-- **A selection is the closure of its targets.** -/
theorem UseGraph.isLeast_seen_ofBatches {bs : List Batch} {g : UseGraph}
    (h : (UseGraph.ofBatches bs).result = .ok g) (t : Targets) :
    IsLeast {ids : Set Nat | g.Closed t ids} {id | id ∈ (g.select t).seen}
      ∧ ∀ id, id ∈ (g.select t).external ↔
        id ∉ (g.select t).seen ∧ ∃ k n u, k ∈ (g.select t).seen ∧ g.node? k = some n ∧ id ∈ n.uses
          ∧ g.node? id = some u ∧ u.kind ≠ .root ∧ u.exported = true ∧ u.name ∉ t.names := by
  refine ⟨(wellFormed_of_ofBatches h).isLeast_seen t, fun id ↦ ?_⟩
  rw [mem_external, isBoundary_iff]
  constructor
  · rintro ⟨hid, ⟨k, hk, huse⟩, u, hu, hboundary⟩
    obtain ⟨n, hn, hmem⟩ := mem_usesOf.mp huse
    exact ⟨hid, k, n, u, hk, hn, hmem, hu, hboundary⟩
  · rintro ⟨hid, k, n, u, hk, hn, hmem, hu, hboundary⟩
    exact ⟨hid, ⟨k, hk, mem_usesOf.mpr ⟨n, hn, hmem⟩⟩, u, hu, hboundary⟩

/-- The type of which the three batches tell. -/
def bridgedTargets : Targets where
  names := ["t"]
  names_ne_nil := by decide
  ne_empty := by decide
  pairwise := by decide

/-- The type of the three batches is copied with its method, and what it uses across the boundary is
referred to. -/
theorem UseGraph.isLeast_seen_bridged : ∃ g, (UseGraph.ofBatches bridged).result = .ok g
    ∧ IsLeast {ids : Set Nat | g.Closed bridgedTargets ids}
    {id | id ∈ (g.select bridgedTargets).seen}
    ∧ ∀ id, id ∈ (g.select bridgedTargets).external ↔
        id ∉ (g.select bridgedTargets).seen ∧ ∃ k n u, k ∈ (g.select bridgedTargets).seen
          ∧ g.node? k = some n ∧ id ∈ n.uses ∧ g.node? id = some u ∧ u.kind ≠ .root
          ∧ u.exported = true ∧ u.name ∉ bridgedTargets.names := by
  obtain ⟨-, m, -, -, hg⟩ := UseGraph.exists_run_ofBatches check_bridged
  exact ⟨m.graph, hg, UseGraph.isLeast_seen_ofBatches hg bridgedTargets⟩

end DeclExtract
