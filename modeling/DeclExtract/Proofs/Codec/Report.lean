import DeclExtract.Codec.Report
import DeclExtract.Proofs.Codec.Declaration

/-!
# Reports and settings are recovered from their JSON forms

Counts have to fit the words that they are read into. The counts by kind are an object with a key
for each kind that occurs; of several counts for one kind the reader would keep the last, but a kind
is listed once, so what is looked up is what was listed (`Statistics.find?_listKinds`).
-/

namespace DeclExtract

open Json

theorem Config.recovers (c : Config) : Recovers decode c.toJson c := by
  refine .record (by simp) fun b _ ↦ ?_
  simp [decode]

/-! ### Merge reports -/

/-- All numbers are numbers of 64 bits. -/
structure MergeReport.InRange (r : MergeReport) : Prop where
  added : r.added < UInt64.size
  byPath : r.byPath < UInt64.size
  byPosition : r.byPosition < UInt64.size
  unified : r.unified < UInt64.size
  rootEdges : r.rootEdges < UInt64.size

theorem asCount_natural {n : Nat} (h : n < UInt64.size) : asCount (.natural n) = some n :=
  asNat_natural h

theorem MergeReport.recovers (r : MergeReport) (h : r.InRange) : Recovers decode r.toJson r := by
  refine .record (by simp) fun b _ ↦ ?_
  simp [decode, asCount_natural h.added, asCount_natural h.byPath, asCount_natural h.byPosition,
    asCount_natural h.unified, asCount_natural h.rootEdges]

/-! ### Statistics -/

namespace Statistics

variable {count : NodeKind → Option Nat} {k : NodeKind} {n : Nat}

/-- All numbers are numbers of 64 bits, and the counts by kind are those of a map. -/
structure InRange (s : Statistics) : Prop where
  nodes : s.nodes < UInt64.size
  useEdges : s.useEdges < UInt64.size
  ownsEdges : s.ownsEdges < UInt64.size
  exported : s.exported < UInt64.size
  byKind : ∃ count : NodeKind → Option Nat, s.byKind = listKinds count ∧ ∀ k, ∀ n ∈ count k,
    n < UInt64.size

/-- Each kind is listed with its own count. -/
theorem mem_listKinds : (k, n) ∈ listKinds count ↔ count k = some n := by
  have hall : k ∈ NodeKind.all := by cases k <;> decide
  simp [listKinds, hall]

/-- Looking a kind up in the listed counts gives its count back. -/
theorem find?_listKinds (k : NodeKind) :
    ((listKinds count).reverse.find? fun c ↦ c.1 == k).map Prod.snd = count k := by
  cases hfind : (listKinds count).reverse.find? fun c ↦ c.1 == k with
  | none =>
    have habsent : ∀ n, count k ≠ some n := fun n hn ↦
      List.find?_eq_none.mp hfind (k, n) (List.mem_reverse.mpr (mem_listKinds.mpr hn))
      (beq_self_eq_true k)
    exact (Option.eq_none_iff_forall_ne_some.mpr habsent).symm
  | some c =>
    obtain ⟨l, n⟩ := c
    obtain rfl : l = k := beq_iff_eq.mp (List.find?_some hfind :)
    exact (mem_listKinds.mp (List.mem_reverse.mp (List.mem_of_find?_eq_some hfind))).symm

theorem decodeKindCount_text (hn : n < UInt64.size) :
    decodeKindCount (.text k.text, .natural n) = some (k, n) := by
  simp [decodeKindCount, k.named?_text, asCount_natural hn]

theorem recovers_kinds (h : ∀ k, ∀ n ∈ count k, n < UInt64.size) :
    Recovers decodeKinds (kindsToJson (listKinds count)) (listKinds count) := by
  refine .record (List.forall_mem_map.mpr fun c _ ↦ .natural c.2) fun b _ ↦ ?_
  have hcounts : (((listKinds count).map fun c ↦ (c.1.text, Json.natural c.2)).map fun m ↦
      (Str.text m.1, m.2)).mapM decodeKindCount = some (listKinds count) := by
    rw [List.map_map]
    exact mapM_map_eq_some fun c hc ↦ decodeKindCount_text (h c.1 c.2 (mem_listKinds.mp hc))
  calc decodeKinds (b + 1) (kindsToJson (listKinds count))
    _ = ((((listKinds count).map fun c ↦ (c.1.text, Json.natural c.2)).map fun m ↦
          (Str.text m.1, m.2)).mapM decodeKindCount).bind fun counts ↦
          some (listKinds fun k ↦ (counts.reverse.find? fun c ↦ c.1 == k).map Prod.snd) := rfl
    _ = some (listKinds count) := by simp only [hcounts, Option.bind_some, find?_listKinds]

end Statistics

theorem Statistics.recovers (s : Statistics) (h : s.InRange) : Recovers decode s.toJson s := by
  obtain ⟨count, hkinds, hcount⟩ := h.byKind
  have hbyKind : Recovers decodeKinds (kindsToJson s.byKind) s.byKind :=
    hkinds ▸ recovers_kinds hcount
  refine .record (by simp [hbyKind.plain]) fun b hb ↦ ?_
  simp only [List.forall_mem_cons] at hb
  obtain ⟨-, -, -, -, hbyKindb, -⟩ := hb
  simp [decode, asCount_natural h.nodes, asCount_natural h.useEdges, asCount_natural h.ownsEdges,
    asCount_natural h.exported, hbyKind.decode_eq b hbyKindb]

end DeclExtract
