import DeclExtract.Proofs.Merge.Contents
import DeclExtract.Proofs.Merge.Origin
import DeclExtract.Proofs.Selection.Roots

/-!
# Declarations without identity

A declaration without identity, other than the root of the graph, was made for a sighting without
identity that was new (`Runs.exists_anonymous`), and every such sighting was given a declaration of
its own (`Runs.anonymous_of_fresh`). The batch of the sighting says what the declaration is: its
name, its visibility and its kind are kept. Nothing makes it a root. So the declarations without
identity are roots just where the batches have it so, and a function without identity can be named
and copied like any other (`UseGraph.anonymous_main`).
-/

namespace DeclExtract

namespace Merger

variable {m : Merger} {n : Node} {past : List Sighting} {steps : List Step} {x : Sighting}
variable {id : Nat}

/-! ### Sightings without identity -/

/-- **A new sighting is not that of the root of the graph**, and without identity it was given the
slot of an ordinal. -/
def PlacesFresh (m : Merger) (past : List Sighting) : Prop :=
  ∀ x ∈ past, x.recognition = .fresh →
    x.slot ≠ 0 ∧ (x.node.hasIdentity = false → x.slot ∈ m.anonymousRoots)

theorem PlacesFresh.sighted (h : m.PlacesFresh past) (hm : m.WellFormed) (n : Node) :
    (m.sighted n).PlacesFresh (past ++ [m.sighting n]) := by
  intro x hx hfresh
  rcases List.mem_append.mp hx with hx | hx
  · refine (h x hx hfresh).imp_right fun hroot hnone ↦ ?_
    have hkept := (roots_prefix_settleAs m n (m.recognise n)).subset
    exact Array.mem_toList_iff.mp (hkept (Array.mem_toList_iff.mpr (hroot hnone)))
  · obtain rfl := List.mem_singleton.mp hx
    rw [slot_sighting_of_fresh hfresh]
    refine ⟨Nat.ne_of_gt hm.slots_pos, fun hnone ↦ ?_⟩
    rw [anonymousRoots_sighted_of_fresh hfresh hnone]
    exact Array.mem_push_self

namespace Runs

variable (run : empty.Runs steps m)

include run

theorem placesFresh : m.PlacesFresh (steps.flatMap Step.sightings) := by
  have hstart : empty.PlacesFresh [] := fun _ hx ↦ nomatch hx
  exact run.preserves wellFormed_empty hstart (fun _ _ hm h ↦ h.sighted hm _) fun _ _ h ↦ h

/-- The slot of a new sighting says what the sighting says, as long as it represents its class. -/
theorem alike_of_fresh (hx : x ∈ steps.flatMap Step.sightings) (hfresh : x.recognition = .fresh)
    (hself : m.forest.find x.slot = x.slot) : (m.node x.slot).Alike x.node := by
  have horiginates := run.originates
  have hne := (run.placesFresh x hx hfresh).1
  obtain ⟨y, hy, hyfresh, hslot, halike⟩ :=
    (run.describes wellFormed_empty describes_empty).exists_fresh (horiginates.slot_lt hx) hself hne
  exact horiginates.eq_of_fresh hy hx hyfresh hfresh hslot ▸ halike

/-- **A declaration without identity was made for a sighting without identity**, unless it is the
root of the graph. -/
theorem exists_anonymous (hn : m.graph.node? id = some n) (hnone : n.hasIdentity = false)
    (hid : id ≠ 0) :
    ∃ x ∈ steps.flatMap Step.sightings, x.recognition = .fresh ∧ m.HasNumber x.slot id
      ∧ x.node.hasIdentity = false ∧ n.Alike x.node := by
  have hm := run.wellFormed wellFormed_empty
  obtain ⟨rep, hlt, hself, rfl, rfl⟩ := hm.exists_representative hn
  have hne : rep ≠ 0 := fun hzero ↦ hid (hzero ▸ hm.rank_zero)
  obtain ⟨x, hx, hfresh, rfl, hretains⟩ := run.originates.exists_origin hlt hself hne
  refine ⟨x, hx, hfresh, hm.hasNumber hlt, Bool.eq_false_of_not_eq_true fun hidentity ↦ ?_,
    (m.agrees_declaration _).toAlike.trans (run.alike_of_fresh hx hfresh hself)⟩
  -- what the sighting showed would be shown still
  obtain ⟨i, hi⟩ := Node.exists_identity hidentity
  have hshown : (m.node x.slot).hasIdentity = true :=
    Node.hasIdentity_of_mem (hretains.mem_identities i hi)
  have hshownnot : (m.node x.slot).hasIdentity = false := hnone
  rw [hshownnot] at hshown
  cases hshown

/-- **Every new sighting without identity has a declaration without identity.** -/
theorem anonymous_of_fresh (hx : x ∈ steps.flatMap Step.sightings) (hfresh : x.recognition = .fresh)
    (hnone : x.node.hasIdentity = false) : ∃ id n, m.HasNumber x.slot id ∧ m.graph.node? id = some n
      ∧ n.hasIdentity = false ∧ n.Alike x.node := by
  have hm := run.wellFormed wellFormed_empty
  have hroot := (run.placesFresh x hx hfresh).2 hnone
  have hlt := hm.root_lt hroot
  have hself := hm.find_root hroot
  refine ⟨m.forest.rank x.slot, _, hm.hasNumber hlt, hm.node?_graph_rank hlt, ?_, ?_⟩
  · rw [hself]
    exact hm.hasIdentity_root run.recognisable hroot
  · rw [hself]
    exact (m.agrees_declaration _).toAlike.trans (run.alike_of_fresh hx hfresh hself)

/-- **A sighting without identity and ordinal is new.** -/
theorem fresh_of_anonymous (hx : x ∈ steps.flatMap Step.sightings)
    (hnone : x.node.hasIdentity = false) (hord : x.node.subgraph = none) :
    x.recognition = .fresh := by
  obtain ⟨k, hmade⟩ := run.exists_sighting_eq wellFormed_empty hx
  rw [← hmade]
  refine (k.recognise_anonymous_iff hnone).mpr fun o ho ↦ ?_
  rw [hord] at ho
  cases ho

/-- A node without identity is the root of its batch or carries an ordinal. -/
theorem root_or_ordinal (hx : x ∈ steps.flatMap Step.sightings)
    (hnone : x.node.hasIdentity = false) : x.node.id = 0 ∨ x.node.subgraph.isSome = true := by
  obtain ⟨s, hs, hxs⟩ := List.mem_flatMap.mp hx
  obtain ⟨-, haccepted, -⟩ := run.of_mem wellFormed_empty hs
  rcases hord : x.node.subgraph with _ | o
  · exact Or.inl (haccepted.id_eq_zero (node_mem_of_mem_sightings hxs) hnone hord)
  · exact Or.inr rfl

end Runs

end Merger

namespace UseGraph

open Merger

/-- **What a node without identity is.** When accepted batches are merged, whatever ordinals their
nodes carry, a node without identity is the root of the graph, or it was made for a new sighting
without identity, which is the root of its batch or carries an ordinal; it has the name, the kind
and the visibility that it was sighted with. Each new sighting without identity has such a node. A
node without identity that is a root is found by no name and never copied. So if the batches give no
other kind to nodes without identity, all nodes without identity are like that. -/
theorem anonymous_ofBatches {bs : List Batch} (hcheck : ∀ b ∈ bs, b.check = .ok ()) : ∃ steps m,
    steps.map Step.batch = bs ∧ Merger.empty.Runs steps m ∧ (ofBatches bs).result = .ok m.graph
      ∧ (∀ id n, m.graph.node? id = some n → n.hasIdentity = false →
        (id = 0 ∧ n.kind = .root ∨ ∃ x ∈ steps.flatMap Step.sightings, x.recognition = .fresh
          ∧ m.HasNumber x.slot id ∧ x.node.hasIdentity = false
          ∧ (x.node.id = 0 ∨ x.node.subgraph.isSome = true)
          ∧ n.Alike x.node)
        ∧ (n.kind = .root → (∀ name, id ∉ m.graph.named name) ∧ ∀ t, id ∉ (m.graph.select t).seen))
      ∧ (∀ x ∈ steps.flatMap Step.sightings, x.recognition = .fresh → x.node.hasIdentity = false →
        ∃ id n, m.HasNumber x.slot id ∧ m.graph.node? id = some n ∧ n.hasIdentity = false
          ∧ n.Alike x.node)
      ∧ ((∀ b ∈ bs, ∀ k ∈ b.nodes, k.hasIdentity = false → k.kind = .root) →
        ∀ id n, m.graph.node? id = some n → n.hasIdentity = false →
          n.kind = .root ∧ (∀ name, id ∉ m.graph.named name)
            ∧ ∀ t, id ∉ (m.graph.select t).seen) := by
  obtain ⟨steps, m, rfl, run, hgraph⟩ := exists_run_ofBatches hcheck
  have hm := run.wellFormed wellFormed_empty
  have horigin {id : Nat} {n : Node} (hn : m.graph.node? id = some n)
      (hnone : n.hasIdentity = false) :
      id = 0 ∧ n.kind = .root ∨ ∃ x ∈ steps.flatMap Step.sightings, x.recognition = .fresh
        ∧ m.HasNumber x.slot id ∧ x.node.hasIdentity = false
        ∧ (x.node.id = 0 ∨ x.node.subgraph.isSome = true) ∧ n.Alike x.node := by
    rcases Nat.eq_zero_or_pos id with rfl | hpos
    · obtain ⟨root, hroot, hkind⟩ :=
        (hm.rooted_graph (run.describes wellFormed_empty describes_empty)).exists_root
      exact Or.inl ⟨rfl, Option.some.inj (hroot.symm.trans hn) ▸ hkind⟩
    · obtain ⟨x, hx, hfresh, hnumber, hxnone, halike⟩ :=
        run.exists_anonymous hn hnone (Nat.ne_of_gt hpos)
      exact Or.inr ⟨x, hx, hfresh, hnumber, hxnone, run.root_or_ordinal hx hxnone, halike⟩
  have hroot {id : Nat} {n : Node} (hn : m.graph.node? id = some n) (hnone : n.hasIdentity = false)
      (hkind : n.kind = .root) :
      (∀ name, id ∉ m.graph.named name) ∧ ∀ t, id ∉ (m.graph.select t).seen := by
    refine ⟨fun name hid ↦ ?_, fun t ↦ anonymous_root_notMem_seen run hn hkind hnone⟩
    obtain ⟨k, hk, hkroot, -⟩ := hm.wellFormed_graph.mem_named_iff.mp hid
    exact hkroot (Option.some.inj (hn.symm.trans hk) ▸ hkind)
  refine ⟨steps, m, rfl, run, hgraph, fun id n hn hnone ↦ ⟨horigin hn hnone, hroot hn hnone⟩,
    fun x ↦ run.anonymous_of_fresh, fun hroots id n hn hnone ↦ ?_⟩
  have hkind : n.kind = .root := by
    rcases horigin hn hnone with ⟨-, hkind⟩ | ⟨x, hx, -, -, hxnone, -, halike⟩
    · exact hkind
    · obtain ⟨s, hs, hxs⟩ := List.mem_flatMap.mp hx
      rw [halike.kind]
      exact hroots s.batch (List.mem_map_of_mem hs) x.node (node_mem_of_mem_sightings hxs) hxnone
  exact ⟨hkind, hroot hn hnone hkind⟩

/-- The roots of the three batches are what has no identity, so no node without identity is copied
with the type. -/
theorem anonymous_bridged : (∀ b ∈ bridged, b.check = .ok ())
    ∧ (∀ b ∈ bridged, ∀ k ∈ b.nodes, k.hasIdentity = false → k.kind = .root)
    ∧ ∃ g, (ofBatches bridged).result = .ok g
      ∧ ∀ id n, g.node? id = some n → n.hasIdentity = false →
        n.kind = .root ∧ (∀ name, id ∉ g.named name) ∧ ∀ t, id ∉ (g.select t).seen := by
  have hroots : ∀ b ∈ bridged, ∀ k ∈ b.nodes, k.hasIdentity = false → k.kind = .root := by decide
  obtain ⟨-, m, -, -, hgraph, -, -, hall⟩ := anonymous_ofBatches check_bridged
  exact ⟨check_bridged, hroots, m.graph, hgraph, hall hroots⟩

/-! ### A function without identity -/

/-- A function that is the root of its batch and cannot be recognised. -/
def anonymousMain : Node where
  id := 0
  name := "main"
  exported := false
  kind := .function

/-- The function. -/
def mainTargets : Targets where
  names := ["main"]
  names_ne_nil := by decide
  ne_empty := by decide
  pairwise := by decide

/-- **The function has no identity and is no root**: it is found by its name, and copied. -/
theorem anonymous_main : (∀ b ∈ [(⟨[anonymousMain]⟩ : Batch)], b.check = .ok ())
    ∧ ∃ g, (ofBatches [⟨[anonymousMain]⟩]).result = .ok g ∧ ∃ id n, g.node? id = some n
    ∧ n.hasIdentity = false
      ∧ n.kind ≠ .root ∧ id ∈ g.named "main" ∧ id ∈ (g.select mainTargets).seen := by
  have hcheck : ∀ b ∈ [(⟨[anonymousMain]⟩ : Batch)], b.check = .ok () := by decide
  obtain ⟨steps, m, hsteps, run, hgraph⟩ := exists_run_ofBatches hcheck
  have hg := (run.wellFormed wellFormed_empty).wellFormed_graph
  obtain ⟨x, hx, hnode⟩ : ∃ x ∈ steps.flatMap Step.sightings, x.node = anonymousMain := by
    rw [← List.mem_map, map_node_flatMap_sightings, hsteps]
    exact List.mem_singleton_self _
  have hxnone : x.node.hasIdentity = false := hnode ▸ rfl
  have hfresh := run.fresh_of_anonymous hx hxnone (hnode ▸ rfl)
  obtain ⟨id, n, -, hn, hnone, halike⟩ := run.anonymous_of_fresh hx hfresh hxnone
  rw [hnode] at halike
  have hkind : n.kind ≠ .root := by rw [halike.kind]; decide
  exact ⟨hcheck, m.graph, hgraph, id, n, hn, hnone, hkind,
    hg.mem_named_iff.mpr ⟨n, hn, hkind, halike.name⟩,
    (hg.isLeast_seen mainTargets).1.target hn hkind (by rw [halike.name]; decide)⟩

end UseGraph

end DeclExtract
