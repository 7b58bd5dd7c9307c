import Mathlib.Data.Set.Image
import Mathlib.Logic.Relation
import DeclExtract.Proofs.Declaration

/-!
# Linked nodes

Two nodes are linked when they share an identity. Among the nodes that were seen, those that a chain
of links connects are sightings of one declaration, whatever order they came in (`Connected`); nodes
that have an identity fall into components (`components`). Nothing here refers to a merge: this is
what a merge has to find.
-/

namespace DeclExtract

/-- Two nodes are linked when they share an identity. -/
def Node.Linked (n k : Node) : Prop :=
  ∃ i, i ∈ n.identities ∧ i ∈ k.identities

instance (n k : Node) : Decidable (n.Linked k) :=
  inferInstanceAs (Decidable (∃ i, i ∈ n.identities ∧ i ∈ k.identities))

/-- A chain of linked nodes, all of which were seen, leads from one node to another. -/
def Connected (seen : List Node) : Node → Node → Prop :=
  Relation.ReflTransGen fun n k ↦ n ∈ seen ∧ k ∈ seen ∧ n.Linked k

/-- The nodes that were seen and are connected to a given one. -/
def component (seen : List Node) (n : Node) : Set Node :=
  {k | k ∈ seen ∧ Connected seen n k}

/-- The components of the nodes that have an identity. -/
def components (seen : List Node) : Set (Set Node) :=
  component seen '' {n | n ∈ seen ∧ n.hasIdentity = true}

variable {seen more : List Node} {n k : Node} {i j : Identity}

theorem Node.Linked.symm (h : n.Linked k) : k.Linked n := by
  obtain ⟨i, hn, hk⟩ := h
  exact ⟨i, hk, hn⟩

namespace Connected

theorem refl (seen : List Node) (n : Node) : Connected seen n n :=
  Relation.ReflTransGen.refl

theorem trans {l : Node} (hnk : Connected seen n k) (hkl : Connected seen k l) :
    Connected seen n l :=
  Relation.ReflTransGen.trans hnk hkl

theorem symm (h : Connected seen n k) : Connected seen k n := by
  induction h with
  | refl => exact refl seen n
  | tail _ hstep ih =>
    obtain ⟨hn, hk, hlinked⟩ := hstep
    exact Relation.ReflTransGen.head ⟨hk, hn, hlinked.symm⟩ ih

theorem of_shared (hn : n ∈ seen) (hk : k ∈ seen) (hin : i ∈ n.identities)
    (hik : i ∈ k.identities) : Connected seen n k :=
  Relation.ReflTransGen.single ⟨hn, hk, i, hin, hik⟩

/-- More nodes can only connect more. -/
theorem mono (h : Connected seen n k) (hsub : ∀ l ∈ seen, l ∈ more) : Connected more n k :=
  Relation.ReflTransGen.mono (fun _ _ ⟨hn, hk, hlinked⟩ ↦ ⟨hsub _ hn, hsub _ hk, hlinked⟩) _ _ h

/-- A chain that starts at a node with an identity ends at one. -/
theorem hasIdentity (h : Connected seen n k) (hn : n.hasIdentity = true) :
    k.hasIdentity = true := by
  induction h with
  | refl => exact hn
  | tail _ hstep _ =>
    obtain ⟨-, -, i, -, hi⟩ := hstep
    exact Node.hasIdentity_of_mem hi

/-- **What all identities of a node have in common, all identities along a chain have in
common.** -/
theorem eq_of_identities {α : Type} {value : Identity → α}
    (hvalue : ∀ l ∈ seen, ∀ i ∈ l.identities, ∀ j ∈ l.identities, value i = value j)
    (h : Connected seen n k) (hn : n ∈ seen) (hi : i ∈ n.identities) (hj : j ∈ k.identities) :
    value i = value j := by
  induction h generalizing j with
  | refl => exact hvalue n hn i hi j hj
  | tail _ hstep ih =>
    obtain ⟨-, hk, shared, hleft, hright⟩ := hstep
    rw [ih hleft]
    exact hvalue _ hk shared hright j hj

end Connected

end DeclExtract
