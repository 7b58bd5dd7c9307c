import DeclExtract.Proofs.Declaration
import DeclExtract.UseGraph.Basic

/-!
# Well-formed use graphs

In a well-formed graph each node has the id of its place, and whatever is said by an id (an edge, an
identity that was looked up, a name, a method) is said of a node that is there. Every finished graph
is well-formed; here is what follows for the queries. The first node of a finished graph is its root
(`Rooted`).
-/

namespace DeclExtract

namespace UseGraph

variable {g : UseGraph} {n : Node} {id other : Nat}

/-- **Ids are places, and nothing leads out of the graph.** -/
structure WellFormed (g : UseGraph) : Prop where
  /-- Each node has the id of its place. -/
  id_eq : ∀ {id : Nat} {n : Node}, g.node? id = some n → n.id = id
  /-- Edges lead to nodes of the graph. -/
  target_lt : ∀ {id t : Nat} {n : Node}, g.node? id = some n → t ∈ n.targets → t < g.size
  /-- Identities belong to nodes of the graph. -/
  lookup_lt : ∀ {i : Identity} {id : Nat}, g.lookup i = some id → id < g.size

theorem lt_size_of_node? (hn : g.node? id = some n) : id < g.size :=
  (Array.getElem?_eq_some_iff.mp hn).1

theorem exists_node? (hid : id < g.size) : ∃ n, g.node? id = some n :=
  ⟨g.nodes[id], Array.getElem?_eq_getElem hid⟩

/-- The ids with a name are those of the declarations with that name. -/
theorem WellFormed.mem_named_iff (h : g.WellFormed) {name : String} :
    id ∈ g.named name ↔ ∃ n, g.node? id = some n ∧ n.kind ≠ .root ∧ n.name = name := by
  unfold named
  rw [List.mem_map]
  constructor
  · rintro ⟨n, hn, rfl⟩
    rw [List.mem_filter, Array.mem_toList_iff] at hn
    obtain ⟨id, hid⟩ := Array.mem_iff_getElem?.mp hn.1
    rw [h.id_eq hid]
    exact ⟨n, hid, by simpa using hn.2⟩
  · rintro ⟨n, hn, hkind, hname⟩
    refine ⟨n, List.mem_filter.mpr ⟨Array.mem_toList_iff.mpr (Array.mem_of_getElem? hn), ?_⟩,
      h.id_eq hn⟩
    simp [hkind, hname]

/-- The methods that go with a node: those of its named type that the graph knows, and those that a
type contains. -/
theorem mem_methods : other ∈ g.methods id ↔ ∃ n, g.node? id = some n
    ∧ ((∃ type, n.namedType = some type ∧ ∃ i ∈ type.methods, g.lookup i = some other)
      ∨ (n.kind = .type ∧ other ∈ n.owns ∧ ∃ k, g.node? other = some k ∧ k.kind = .method)) := by
  have hdeclared (declared : Option NamedType) :
      (∃ i ∈ (declared.map NamedType.methods).getD [], g.lookup i = some other)
        ↔ ∃ type, declared = some type ∧ ∃ i ∈ type.methods, g.lookup i = some other := by
    cases declared <;> simp
  have hmethod : g.isMethod other = true ↔ ∃ k, g.node? other = some k ∧ k.kind = .method := by
    unfold isMethod
    cases g.node? other <;> simp
  unfold methods
  cases g.node? id with
  | none => simp
  | some n =>
    dsimp only
    rw [mem_ascending, List.mem_append, List.mem_filterMap, hdeclared, ← hmethod]
    by_cases hkind : n.kind = .type <;> simp [hkind]

/-- The methods that go with a node are nodes of the graph. -/
theorem WellFormed.lt_of_mem_methods (h : g.WellFormed) (hm : other ∈ g.methods id) :
    other < g.size := by
  obtain ⟨n, -, ⟨type, -, i, -, hi⟩ | ⟨-, -, k, hk, -⟩⟩ := mem_methods.mp hm
  · exact h.lookup_lt hi
  · exact lt_size_of_node? hk

/-! ### The root of a graph -/

/-- The root of a graph is a root, and no identity belongs to it. -/
structure Rooted (g : UseGraph) : Prop where
  exists_root : ∃ n, g.node? 0 = some n ∧ n.kind = .root
  lookup_ne : ∀ i, g.lookup i ≠ some 0

/-- The node under id 0 of a graph with a root is a root. -/
theorem Rooted.kind_eq (h : g.Rooted) (hn : g.node? 0 = some n) : n.kind = .root := by
  obtain ⟨root, hroot, hkind⟩ := h.exists_root
  obtain rfl : n = root := Option.some_inj.mp (hn.symm.trans hroot)
  exact hkind

/-- The root is no node of any other kind. -/
theorem Rooted.ne_zero (h : g.Rooted) {n : Node} (hn : g.node? id = some n)
    (hkind : n.kind ≠ .root) : id ≠ 0 := by
  rintro rfl
  exact hkind (h.kind_eq hn)

end UseGraph

end DeclExtract
