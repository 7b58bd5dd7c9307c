import DeclExtract.Codec.Declaration
import DeclExtract.Proofs.Json.Record

/-!
# Declarations are recovered from their JSON forms

From the JSON form of an identity, a named type, a node or a batch the decoder gives back what was
encoded. Ids and ordinals have to fit the words that they are read into (`Node.InRange`); everything
else is recovered as it is. A node without ordinal is written without that field and read with its
default, so the two cases are told apart (`Node.recovers`).
-/

namespace DeclExtract

open Json

/-! ### Identities -/

theorem ObjectPath.recovers (p : ObjectPath) : Recovers decode p.toJson p := by
  refine .record (by simp) fun b _ ↦ ?_
  simp [decode]

theorem Position.recovers (p : Position) : Recovers decode p.toJson p := by
  refine .record (by simp [Plain.ofOption]) fun b _ ↦ ?_
  simp [decode, Record.optional]

theorem Identity.recovers (i : Identity) : Recovers decode i.toJson i := by
  cases i with
  | path p => exact .variant p.recovers Identity.path fun _ ↦ by simp [decode]
  | position p => exact .variant p.recovers Identity.position fun _ ↦ by simp [decode]

theorem NodeKind.recovers (k : NodeKind) : Recovers decode k.toJson k where
  plain := .text _
  decode_eq budget _ := by cases budget <;> exact k.named?_text

theorem NamedType.recovers (t : NamedType) : Recovers decode t.toJson t := by
  have hmethods : Recovers (asList Identity.decode) (ofList Identity.toJson t.methods) t.methods :=
    .list fun i _ ↦ i.recovers
  refine .record (by simp [hmethods.plain]) fun b hb ↦ ?_
  simp only [List.forall_mem_cons] at hb
  simp [decode, hmethods.decode_eq b hb.2.1]

/-! ### Nodes and batches -/

/-- Ids and ordinals are numbers of 32 bits. -/
structure Node.InRange (n : Node) : Prop where
  id : n.id < UInt32.size
  uses : ∀ t ∈ n.uses, t < UInt32.size
  owns : ∀ t ∈ n.owns, t < UInt32.size
  subgraph : ∀ ordinal ∈ n.subgraph, ordinal < UInt32.size

theorem Node.recovers_ids {ids : List Nat} (h : ∀ t ∈ ids, t < UInt32.size) :
    Recovers decodeIds (idsToJson ids) ids :=
  .list fun t ht ↦ ⟨.natural t, fun _ _ ↦ asNat_natural (h t ht)⟩

theorem Node.recovers (n : Node) (h : n.InRange) : Recovers decode n.toJson n := by
  obtain ⟨id, name, exported, kind, path, position, namedType, uses, owns, subgraph⟩ := n
  have hid : asId (.natural id) = some id := asNat_natural h.id
  have hpath :
      Recovers (fun b ↦ asOption (ObjectPath.decode b)) (ofOption ObjectPath.toJson path) path :=
    .option nofun fun p _ ↦ p.recovers
  have htype : Recovers (fun b ↦ asOption (NamedType.decode b))
      (ofOption NamedType.toJson namedType) namedType :=
    .option nofun fun t _ ↦ t.recovers
  have huses := recovers_ids h.uses
  have howns := recovers_ids h.owns
  have hsubgraph : ∀ ordinal ∈ subgraph, asOption asId (.natural ordinal) = some (some ordinal) :=
    fun ordinal ho ↦ congrArg (Option.map some) (asNat_natural (h.subgraph ordinal ho))
  refine .record ?_ fun b hb ↦ ?_
  -- the ordinal is the one field that is not written where it is absent
  · cases subgraph <;>
      simp [kind.recovers.plain, hpath.plain, position.recovers.plain, htype.plain, huses.plain,
        howns.plain]
  · simp only [List.forall_mem_append, List.forall_mem_cons] at hb
    obtain ⟨⟨-, -, -, hkindb, hpathb, hpositionb, htypeb, husesb, hownsb, -⟩, -⟩ := hb
    cases subgraph <;>
      simp [decode, Record.optional, hid, kind.recovers.decode_eq b hkindb,
        hpath.decode_eq b hpathb, position.recovers.decode_eq b hpositionb,
        htype.decode_eq b htypeb, huses.decode_eq b husesb, howns.decode_eq b hownsb, hsubgraph]

theorem Batch.recovers (b : Batch) (h : ∀ n ∈ b.nodes, n.InRange) : Recovers decode b.toJson b := by
  have hnodes : Recovers (asList Node.decode) (ofList Node.toJson b.nodes) b.nodes :=
    .list fun n hn ↦ n.recovers (h n hn)
  refine .record (by simp [hnodes.plain]) fun budget hbudget ↦ ?_
  simp only [List.forall_mem_cons] at hbudget
  simp [decode, hnodes.decode_eq budget hbudget.1]

end DeclExtract
