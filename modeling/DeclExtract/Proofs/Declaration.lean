import DeclExtract.Declaration.Node

/-!
# Identities and edges of a node

Which identities a node offers, and where its edges lead. An identity that a node offers can tell
declarations apart (`Node.isStable_of_mem_identities`): it is an object path with an object, or a
position with a column. Besides these, a node says what is declared (`Node.Agrees`): a name, a kind,
whether it is exported, and a named type.
-/

namespace DeclExtract

/-- Whether an identity can tell declarations apart. -/
def Identity.isStable : Identity → Bool
  | .path p => !p.isEmpty
  | .position p => p.hasColumn

namespace Node

variable {n : Node} {i : Identity}

/-- The ids that a node has an edge to. -/
def targets (n : Node) : List Nat :=
  n.uses ++ n.owns

/-- A node offers its own position, if that has a column. -/
theorem position_mem_identities_iff {p : Position} :
    .position p ∈ n.identities ↔ n.position = p ∧ p.hasColumn = true := by
  rw [position_mem_identities, stablePosition]
  constructor
  · intro hp
    split at hp
    next hcol => exact Option.some.inj hp ▸ ⟨rfl, hcol⟩
    next => cases hp
  · rintro ⟨rfl, hcol⟩
    rw [if_pos hcol]

theorem isStable_of_mem_identities (hi : i ∈ n.identities) : i.isStable = true := by
  cases i with
  | path p => exact (Option.filter_eq_some_iff.mp (path_mem_identities.mp hi)).2
  | position p => exact (position_mem_identities_iff.mp hi).2

theorem hasIdentity_of_mem (hi : i ∈ n.identities) : n.hasIdentity = true :=
  hasIdentity_iff.mpr (List.ne_nil_of_mem hi)

theorem exists_identity (hn : n.hasIdentity = true) : ∃ i, i ∈ n.identities :=
  List.exists_mem_of_ne_nil _ (hasIdentity_iff.mp hn)

/-! ### What a node says of its declaration -/

/-- Two nodes say the same of what is declared. -/
structure Alike (n k : Node) : Prop where
  name : n.name = k.name
  kind : n.kind = k.kind
  exported : n.exported = k.exported

/-- Two nodes say the same of what is declared, and of the named type that it is declared with. -/
structure Agrees (n k : Node) : Prop extends n.Alike k where
  namedType : n.namedType = k.namedType

variable {k l : Node}

instance : Decidable (n.Agrees k) :=
  decidable_of_iff
    ((n.name = k.name ∧ n.kind = k.kind ∧ n.exported = k.exported) ∧ n.namedType = k.namedType)
    ⟨fun h ↦ ⟨⟨h.1.1, h.1.2.1, h.1.2.2⟩, h.2⟩, fun h ↦ ⟨⟨h.name, h.kind, h.exported⟩, h.namedType⟩⟩

theorem Alike.symm (h : n.Alike k) : k.Alike n :=
  ⟨h.name.symm, h.kind.symm, h.exported.symm⟩

theorem Alike.trans (hnk : n.Alike k) (hkl : k.Alike l) : n.Alike l :=
  ⟨hnk.name.trans hkl.name, hnk.kind.trans hkl.kind, hnk.exported.trans hkl.exported⟩

theorem Agrees.refl (n : Node) : n.Agrees n :=
  ⟨⟨rfl, rfl, rfl⟩, rfl⟩

theorem Agrees.symm (h : n.Agrees k) : k.Agrees n :=
  ⟨h.toAlike.symm, h.namedType.symm⟩

theorem Agrees.trans (hnk : n.Agrees k) (hkl : k.Agrees l) : n.Agrees l :=
  ⟨hnk.toAlike.trans hkl.toAlike, hnk.namedType.trans hkl.namedType⟩

end Node

end DeclExtract
