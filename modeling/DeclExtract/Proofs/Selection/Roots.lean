import DeclExtract.Proofs.Merge.Contents
import DeclExtract.Proofs.Merge.Exported

/-!
# Roots in a selection

A root stands for no declaration, so it should never be copied. No target names a root, a use does
not lead to one, and what a type contains is copied only if it is a method. But what a named type
lists as its methods is copied whatever it is. So a root is copied just when another copied node
lists it (`WellFormed.root_mem_seen_iff`), and that can happen to a root with an identity
(`UseGraph.roots_listed`). A root without identity cannot be listed
(`UseGraph.anonymous_root_notMem_seen`).
-/

namespace DeclExtract

namespace UseGraph

variable {g : UseGraph} {t : Targets} {id : Nat} {n : Node}

/-! ### Roots of a graph -/

/-- A root is never referred to across the boundary. -/
theorem root_notMem_external (hn : g.node? id = some n) (hroot : n.kind = .root) :
    id ∉ (g.select t).external := by
  intro hid
  obtain ⟨u, hu, hkind, -⟩ := isBoundary_iff.mp (mem_external.mp hid).2.2
  rw [← Option.some.inj (hn.symm.trans hu)] at hkind
  exact hkind hroot

/-- **A root is copied just when another copied node lists it** among its methods. -/
theorem WellFormed.root_mem_seen_iff (h : g.WellFormed) (hn : g.node? id = some n)
    (hroot : n.kind = .root) :
    id ∈ (g.select t).seen ↔ ∃ other ∈ (g.select t).seen, other ≠ id ∧ g.Lists other id := by
  constructor
  · intro hid
    by_contra hnone
    have hroots : ∀ id' ∈ ({id} : Set Nat), ∀ k, g.node? id' = some k → k.kind = .root := by
      rintro _ rfl k hk
      exact Option.some.inj (hn.symm.trans hk) ▸ hroot
    refine h.notMem_seen_of_not_lists hroots ?_ rfl hid
    rintro other hother hne _ rfl hlists
    exact hnone ⟨other, hother, hne, hlists⟩
  · rintro ⟨other, hother, -, hlists⟩
    exact (h.isLeast_seen t).1.method hother hlists.mem_methods

/-- **Some root is copied just when a copied declaration lists one.** -/
theorem WellFormed.exists_root_mem_seen_iff (h : g.WellFormed) :
    (∃ id ∈ (g.select t).seen, ∃ n, g.node? id = some n ∧ n.kind = .root)
      ↔ ∃ other ∈ (g.select t).seen, ∃ k, g.node? other = some k ∧ k.kind ≠ .root
        ∧ ∃ id n, g.Lists other id ∧ g.node? id = some n ∧ n.kind = .root := by
  constructor
  · rintro ⟨id, hid, n, hn, hroot⟩
    by_contra hnone
    have hroots :
        ∀ id ∈ {id | ∃ n, g.node? id = some n ∧ n.kind = .root}, ∀ k, g.node? id = some k →
          k.kind = .root := by
      rintro id ⟨n, hn, hroot⟩ k hk
      exact Option.some.inj (hn.symm.trans hk) ▸ hroot
    refine h.notMem_seen_of_not_lists hroots ?_ ⟨n, hn, hroot⟩ hid
    rintro other hother hdeclared listed ⟨u, hu, hkind⟩ hlists
    have ⟨k, _, hk, _⟩ := hlists
    exact hnone ⟨other, hother, k, hk, fun hkroot ↦ hdeclared ⟨k, hk, hkroot⟩, listed, u, hlists,
      hu, hkind⟩
  · rintro ⟨other, hother, -, -, -, id, n, hlists, hn, hroot⟩
    exact ⟨id, (h.isLeast_seen t).1.method hother hlists.mem_methods, n, hn, hroot⟩

/-! ### Roots of a finished graph -/

open Merger

/-- **A root without identity is never copied**, since nothing is looked up to it. -/
theorem anonymous_root_notMem_seen {m : Merger} {steps : List Step}
    (run : Merger.empty.Runs steps m) (hn : m.graph.node? id = some n) (hroot : n.kind = .root)
    (hnone : n.hasIdentity = false) : id ∉ (m.graph.select t).seen := by
  have hm := run.wellFormed wellFormed_empty
  intro hid
  obtain ⟨other, -, -, _, _, -, -, i, -, hlookup⟩ :=
    (hm.wellFormed_graph.root_mem_seen_iff hn hroot).mp hid
  rw [hm.hasIdentity_of_lookup run.recognisable hlookup hn] at hnone
  cases hnone

/-- **Which roots are selected.** In the graph of accepted batches, whatever ordinals they carry and
whatever the targets are, no root is referred to across the boundary. A root is copied just when the
named type of another copied node lists it among its methods; so a root without identity is never
copied. Some root is copied just when a copied declaration lists one: if no declaration does, roots
are never selected. -/
theorem roots_ofBatches {bs : List Batch} (hcheck : ∀ b ∈ bs, b.check = .ok ()) :
    ∃ g, (ofBatches bs).result = .ok g ∧ ∀ t,
      (∀ id n, g.node? id = some n → n.kind = .root → id ∉ (g.select t).external
        ∧ (id ∈ (g.select t).seen ↔ ∃ other ∈ (g.select t).seen, other ≠ id ∧ g.Lists other id)
        ∧ (n.hasIdentity = false → id ∉ (g.select t).seen))
      ∧ ((∃ id ∈ (g.select t).seen, ∃ n, g.node? id = some n ∧ n.kind = .root)
        ↔ ∃ other ∈ (g.select t).seen, ∃ k, g.node? other = some k ∧ k.kind ≠ .root
          ∧ ∃ id n, g.Lists other id ∧ g.node? id = some n ∧ n.kind = .root) := by
  obtain ⟨steps, m, -, run, hgraph⟩ := exists_run_ofBatches hcheck
  have hg := (run.wellFormed wellFormed_empty).wellFormed_graph
  refine ⟨m.graph, hgraph, fun t ↦ ⟨fun id n hn hroot ↦ ?_, hg.exists_root_mem_seen_iff⟩⟩
  exact ⟨root_notMem_external hn hroot, hg.root_mem_seen_iff hn hroot,
    anonymous_root_notMem_seen run hn hroot⟩

/-- A variable whose named type lists a method is copied with the method, and the root is neither
copied with them nor referred to, whatever the targets are. -/
theorem roots_listing : (∀ b ∈ [Batch.listing], b.check = .ok ())
    ∧ ∃ g, (ofBatches [Batch.listing]).result = .ok g
      ∧ g.Lists 1 2 ∧ (g.select movedTargets).seen = [1, 2]
      ∧ ∀ t id n, g.node? id = some n → n.kind = .root →
        id ∉ (g.select t).seen ∧ id ∉ (g.select t).external := by
  have hcheck : ∀ b ∈ [Batch.listing], b.check = .ok () := by decide
  obtain ⟨g, hg, hnodes, hlookup⟩ := Batch.exported_listing.exists_graph
  obtain ⟨hlists, hseen⟩ := Batch.select_listing (wellFormed_of_ofBatches hg) hnodes hlookup
  obtain ⟨g', hg', hroots⟩ := roots_ofBatches hcheck
  obtain rfl : g = g' := Except.ok.inj (hg.symm.trans hg')
  refine ⟨hcheck, g, hg, hlists, hseen, fun t id n hn hroot ↦ ?_⟩
  obtain ⟨hexternal, hcopied, -⟩ := (hroots t).1 id n hn hroot
  refine ⟨fun hid ↦ ?_, hexternal⟩
  obtain ⟨other, -, -, k, type, hk, htype, i, hi, hfound⟩ := hcopied.mp hid
  -- what the variable lists is shown by the method, and that is no root
  obtain ⟨u, hu, hshown⟩ := (hlookup i id).mp hfound
  obtain rfl : u = n := Option.some.inj (hu.symm.trans (hnodes id ▸ hn))
  have hlisted : ∀ k ∈ Batch.listing.nodes, ∀ u ∈ Batch.listing.nodes,
      (∃ i ∈ (k.namedType.map NamedType.methods).getD [], i ∈ u.identities) → u.kind ≠ .root := by
    decide
  exact hlisted k (List.mem_of_getElem? (hnodes other ▸ hk)) u (List.mem_of_getElem? hu)
    ⟨i, by simpa [htype], hshown⟩ hroot

/-! ### A root that is listed as a method -/

/-- The root of an earlier batch, which had an identity. -/
def namedRoot : Node where
  id := 1
  name := "R"
  exported := false
  kind := .root
  path := some ⟨"pkg", "R"⟩

/-- A variable whose named type has a method with that identity. -/
def rootUser : Node where
  id := 2
  name := "w"
  exported := false
  kind := .var
  path := some ⟨"pkg", "w"⟩
  namedType := some ⟨"T", [.path ⟨"pkg", "R"⟩]⟩

/-- A batch with the two. -/
def rootListed : Batch :=
  ⟨[graphRoot, namedRoot, rootUser]⟩

/-- The variable. -/
def rootUserTargets : Targets where
  names := ["w"]
  names_ne_nil := by decide
  ne_empty := by decide
  pairwise := by decide

/-- **The root is copied with the variable.** -/
theorem roots_listed :
    (∀ b ∈ [rootListed], b.check = .ok ()) ∧ ∃ g, (ofBatches [rootListed]).result = .ok g
    ∧ ∃ id n, g.node? id = some n ∧ n.kind = .root ∧ id ∈ (g.select rootUserTargets).seen := by
  have hexported : rootListed.Exported := by decide
  obtain ⟨g, hg, hnodes, hlookup⟩ := hexported.exists_graph
  have hclosed := ((wellFormed_of_ofBatches hg).isLeast_seen rootUserTargets).1
  have huser : g.node? 2 = some rootUser := hnodes 2
  have hroot : g.lookup (.path ⟨"pkg", "R"⟩) = some 1 :=
    (hlookup _ 1).mpr ⟨namedRoot, rfl, by decide⟩
  have hlists : g.Lists 2 1 := ⟨rootUser, _, huser, rfl, _, List.mem_singleton_self _, hroot⟩
  exact ⟨by decide, g, hg, 1, namedRoot, hnodes 1, rfl,
    hclosed.method (hclosed.target huser (by decide) (by decide)) hlists.mem_methods⟩

end UseGraph

end DeclExtract
