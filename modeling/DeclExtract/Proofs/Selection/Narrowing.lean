import DeclExtract.Proofs.Selection.Correspondence

/-!
# Graphs that know fewer identities

A graph narrows another one when it has the same nodes and looks up no identity that the other does
not look up to the same node (`UseGraph.Narrows`). Edges and names are the same in both, so the only
thing that can be missing is a method that a named type refers to by an identity which the narrower
graph does not know.

A selection in the narrower graph copies no more than the selection in the wider one
(`Narrows.seen_subset`). It copies less only if something is missing right at its border: the two
selections are equal just when what the narrower one copies is closed under the methods of the wider
graph (`Narrows.select_eq_iff`). That is so if every identity by which a copied node refers to a
method is known to both graphs.
-/

namespace DeclExtract

namespace UseGraph

variable {h g : UseGraph} {t : Targets} {ids : Set Nat} {id other : Nat}

/-- **The same nodes, and no identity that is unknown to the other graph.** -/
structure Narrows (h g : UseGraph) : Prop where
  nodes_eq : h.nodes = g.nodes
  lookup_of_lookup : ∀ {i id}, h.lookup i = some id → g.lookup i = some id

namespace Narrows

variable (hnarrow : h.Narrows g)

include hnarrow

theorem node?_eq (id : Nat) : h.node? id = g.node? id :=
  show h.nodes[id]? = g.nodes[id]? from hnarrow.nodes_eq ▸ rfl

theorem sameNodes : h.SameNodes g where
  size_eq := congrArg Array.size hnarrow.nodes_eq
  node {id n} hn := ⟨n, hnarrow.node?_eq id ▸ hn, Node.Agrees.refl n, rfl, fun _ _ ↦ Iff.rfl⟩

/-- The methods of a node in the narrower graph are some of its methods in the wider one. -/
theorem mem_methods_of_mem (hmethod : other ∈ h.methods id) : other ∈ g.methods id := by
  obtain ⟨n, hn, hcases⟩ := mem_methods.mp hmethod
  rw [hnarrow.node?_eq] at hn
  refine mem_methods.mpr ⟨n, hn, hcases.imp ?_ ?_⟩
  · rintro ⟨type, htype, i, hi, hlookup⟩
    exact ⟨type, htype, i, hi, hnarrow.lookup_of_lookup hlookup⟩
  · rintro ⟨hkind, howns, k, hk, hmethod⟩
    exact ⟨hkind, howns, k, hnarrow.node?_eq other ▸ hk, hmethod⟩

/-- **A method that is missing is one that a named type refers to by an unknown identity.** -/
theorem mem_methods_iff (hshown : ∀ {n type i}, g.node? id = some n → n.namedType = some type →
    i ∈ type.methods → g.lookup i = some other → h.lookup i = some other) :
    other ∈ h.methods id ↔ other ∈ g.methods id := by
  refine ⟨hnarrow.mem_methods_of_mem, fun hmethod ↦ ?_⟩
  obtain ⟨n, hn, hcases⟩ := mem_methods.mp hmethod
  refine mem_methods.mpr ⟨n, hnarrow.node?_eq id ▸ hn, hcases.imp ?_ ?_⟩
  · rintro ⟨type, htype, i, hi, hlookup⟩
    exact ⟨type, htype, i, hi, hshown hn htype hi hlookup⟩
  · rintro ⟨hkind, howns, k, hk, hmethod⟩
    exact ⟨hkind, howns, k, hnarrow.node?_eq other ▸ hk, hmethod⟩

/-- What is closed in the wider graph is closed in the narrower one. -/
theorem closed (hclosed : g.Closed t ids) : h.Closed t ids where
  target hn hkind hname := hclosed.target (hnarrow.node?_eq _ ▸ hn) hkind hname
  method hid hmethod := hclosed.method hid (hnarrow.mem_methods_of_mem hmethod)
  use hid hn hmem hu hkind hside :=
    hclosed.use hid (hnarrow.node?_eq _ ▸ hn) hmem (hnarrow.node?_eq _ ▸ hu) hkind hside

/-- What is closed in the narrower graph is closed in the wider one if it holds the methods of its
members there. -/
theorem closed_of_methods (hclosed : h.Closed t ids)
    (hmethods : ∀ id ∈ ids, ∀ other ∈ g.methods id, other ∈ ids) : g.Closed t ids where
  target hn hkind hname := hclosed.target ((hnarrow.node?_eq _).trans hn) hkind hname
  method hid hmethod := hmethods _ hid _ hmethod
  use hid hn hmem hu hkind hside :=
    hclosed.use hid ((hnarrow.node?_eq _).trans hn) hmem ((hnarrow.node?_eq _).trans hu) hkind hside

variable (hh : h.WellFormed) (hg : g.WellFormed)

include hh hg

/-- **The selection in the narrower graph copies no more.** -/
theorem seen_subset (t : Targets) :
    {id | id ∈ (h.select t).seen} ⊆ {id | id ∈ (g.select t).seen} :=
  (hh.isLeast_seen t).2 (hnarrow.closed (hg.isLeast_seen t).1)

/-- **Two selections are equal when nothing is missing at the border of the smaller one.** -/
theorem select_eq_iff (t : Targets) : h.select t = g.select t ↔
    ∀ id ∈ (h.select t).seen, ∀ other ∈ g.methods id, other ∈ (h.select t).seen := by
  constructor
  · intro heq id hid other hmethod
    rw [heq] at hid ⊢
    exact (hg.isLeast_seen t).1.method hid hmethod
  · intro hmethods
    have hsubset := hnarrow.seen_subset hh hg t
    have hsuperset :=
      (hg.isLeast_seen t).2 (hnarrow.closed_of_methods (hh.isLeast_seen t).1 hmethods)
    refine hnarrow.sameNodes.select_eq_of_seen hh hg ?_
    exact (h.pairwise_seen t).eq_of_mem_iff (g.pairwise_seen t) fun id ↦
      ⟨fun hid ↦ hsubset hid, fun hid ↦ hsuperset hid⟩

/-- Nothing is missing if every identity by which a copied node refers to a method is known to both
graphs. -/
theorem select_eq_of_lookup (t : Targets) (hknown : ∀ id ∈ (h.select t).seen, ∀ {n type i other},
    g.node? id = some n → n.namedType = some type → i ∈ type.methods → g.lookup i = some other →
      h.lookup i = some other) : h.select t = g.select t := by
  refine (hnarrow.select_eq_iff hh hg t).mpr fun id hid other hmethod ↦ ?_
  exact (hh.isLeast_seen t).1.method hid ((hnarrow.mem_methods_iff (hknown id hid)).mpr hmethod)

end Narrows

end UseGraph

end DeclExtract
