import DeclExtract.Proofs.Codec.Report
import DeclExtract.Proofs.Codec.TypeExpr

/-!
# Every value is read back from its text

A text may nest only so deep (`Json.depthLimit`). The JSON forms of declarations, reports and
settings are far from that whatever they hold, since nothing in them contains another value of its
own kind. Types do, so a type is read back if its form does not nest deeper than that
(`readsBack_all`).
-/

namespace DeclExtract

open Json

/-! ### Nesting -/

theorem ObjectPath.nesting_toJson (p : ObjectPath) : p.toJson.nesting ≤ 1 :=
  nesting_record_le_succ (by simp)

theorem Position.nesting_toJson (p : Position) : p.toJson.nesting ≤ 1 := by
  have hcolumn : (ofOption (fun c ↦ Json.natural c.toNat) p.column).nesting ≤ 0 :=
    nesting_ofOption_le fun c _ ↦ Nat.le_refl 0
  exact nesting_record_le_succ (by simpa using hcolumn)

theorem Identity.nesting_toJson (i : Identity) : i.toJson.nesting ≤ 2 := by
  cases i with
  | path p => exact nesting_record_le_succ (List.forall_mem_cons.mpr ⟨p.nesting_toJson, nofun⟩)
  | position p => exact nesting_record_le_succ (List.forall_mem_cons.mpr ⟨p.nesting_toJson, nofun⟩)

theorem NamedType.nesting_toJson (t : NamedType) : t.toJson.nesting ≤ 4 := by
  have hmethods : (ofList Identity.toJson t.methods).nesting ≤ 3 :=
    nesting_ofList_le fun i _ ↦ i.nesting_toJson
  exact nesting_record_le_succ (by simpa using hmethods)

theorem Node.nesting_toJson (n : Node) : n.toJson.nesting ≤ 5 := by
  have hids (ids : List Nat) : (idsToJson ids).nesting ≤ 1 :=
    nesting_ofList_le fun t _ ↦ Nat.le_refl 0
  have hpath : (ofOption ObjectPath.toJson n.path).nesting ≤ 1 :=
    nesting_ofOption_le fun p _ ↦ p.nesting_toJson
  have htype : (ofOption NamedType.toJson n.namedType).nesting ≤ 4 :=
    nesting_ofOption_le fun t _ ↦ t.nesting_toJson
  refine nesting_record_le_succ (List.forall_mem_append.mpr ⟨?_, ?_⟩)
  · have hkind : n.kind.toJson.nesting = 0 := rfl
    have := n.position.nesting_toJson
    have := hids n.uses
    have := hids n.owns
    simp [hkind]
    omega
  · cases n.subgraph <;> simp

theorem Batch.nesting_toJson (b : Batch) : b.toJson.nesting ≤ 7 := by
  have hnodes : (ofList Node.toJson b.nodes).nesting ≤ 6 :=
    nesting_ofList_le fun n _ ↦ n.nesting_toJson
  exact nesting_record_le_succ (by simpa using hnodes)

theorem Config.nesting_toJson (c : Config) : c.toJson.nesting ≤ 1 :=
  nesting_record_le_succ (by simp)

theorem MergeReport.nesting_toJson (r : MergeReport) : r.toJson.nesting ≤ 1 :=
  nesting_record_le_succ (by simp)

theorem Statistics.nesting_toJson (s : Statistics) : s.toJson.nesting ≤ 2 := by
  have hkinds : (kindsToJson s.byKind).nesting ≤ 1 :=
    nesting_record_le_succ (List.forall_mem_map.mpr fun c _ ↦ Nat.le_refl 0)
  exact nesting_record_le_succ (by simpa using hkinds)

/-! ### All values -/

/-- **Every value is read back from its compact text.** Ids, ordinals and counts have to be in
range, and a type, a field, a signature, a method, an interface or a method set may not nest deeper
than a text may. -/
theorem readsBack_all :
    (∀ b : Batch, (∀ n ∈ b.nodes, n.InRange) → ReadsBack Batch.toJson Batch.decode b)
    ∧ (∀ n : Node, n.InRange → ReadsBack Node.toJson Node.decode n)
    ∧ (∀ i : Identity, ReadsBack Identity.toJson Identity.decode i)
    ∧ (∀ t : NamedType, ReadsBack NamedType.toJson NamedType.decode t)
    ∧ (∀ t : TypeExpr, t.toJson.nesting ≤ depthLimit →
      ReadsBack TypeExpr.toJson (TypeExpr.decode .text) t)
    ∧ (∀ f : Field, f.toJson.nesting ≤ depthLimit → ReadsBack Field.toJson (Field.decode .text) f)
    ∧ (∀ s : Signature, s.toJson.nesting ≤ depthLimit →
      ReadsBack Signature.toJson (Signature.decode .text) s)
    ∧ (∀ m : Method, m.toJson.nesting ≤ depthLimit →
      ReadsBack Method.toJson (Method.decode .text) m)
    ∧ (∀ i : Interface, i.toJson.nesting ≤ depthLimit →
      ReadsBack Interface.toJson (Interface.decode .text) i)
    ∧ (∀ s : MethodSet, s.toJson.nesting ≤ depthLimit →
      ReadsBack MethodSet.toJson (MethodSet.decode .text) s)
    ∧ (∀ r : MergeReport, r.InRange → ReadsBack MergeReport.toJson MergeReport.decode r)
    ∧ (∀ s : Statistics, s.InRange → ReadsBack Statistics.toJson Statistics.decode s)
    ∧ (∀ c : Config, ReadsBack Config.toJson Config.decode c) := by
  have hlimit {n : Nat} (h : n ≤ 7) {j : Json} (hj : j.nesting ≤ n) : j.nesting ≤ depthLimit :=
    Nat.le_trans hj (Nat.le_trans h (by decide))
  refine ⟨fun b h ↦ ?batch, fun n h ↦ ?node, fun i ↦ ?identity, fun t ↦ ?namedType, fun t ↦ ?type,
    fun f ↦ ?field, fun s ↦ ?signature, fun m ↦ ?method, fun i ↦ ?interface, fun s ↦ ?methodSet,
    fun r h ↦ ?report, fun s h ↦ ?statistics, fun c ↦ ?config⟩
  case batch => exact (b.recovers h).readsBack (hlimit (by decide) b.nesting_toJson)
  case node => exact (n.recovers h).readsBack (hlimit (by decide) n.nesting_toJson)
  case identity => exact i.recovers.readsBack (hlimit (by decide) i.nesting_toJson)
  case namedType => exact t.recovers.readsBack (hlimit (by decide) t.nesting_toJson)
  case type => exact t.recovers.readsBack
  case field => exact f.recovers.readsBack
  case signature => exact s.recovers.readsBack
  case method => exact m.recovers.readsBack
  case interface => exact i.recovers.readsBack
  case methodSet => exact s.recovers.readsBack
  case report => exact (r.recovers h).readsBack (hlimit (by decide) r.nesting_toJson)
  case statistics => exact (s.recovers h).readsBack (hlimit (by decide) s.nesting_toJson)
  case config => exact c.recovers.readsBack (hlimit (by decide) c.nesting_toJson)

/-- A method without an object path, in a file whose name has to be escaped. -/
def handle : Method where
  name := "handle"
  package := some "net/http"
  signature := ⟨[.chan .recv (.map (.basic "string") (.pointer (.named none "T")))],
    [.array 18446744073709551615 (.slice (.basic "byte"))], true⟩
  identity := some (.position ⟨"a \"b\"\x01\n.go", 3, some 7⟩)

/-- The declaration of the method, with the largest id and ordinal. -/
def handleNode : Node where
  id := 4294967295
  name := "handle"
  exported := false
  kind := .method
  path := some ⟨"net/http", ""⟩
  namedType := some ⟨"Server", handle.identity.toList⟩
  owns := [0]
  subgraph := some 4294967295

/-- A struct that is embedded, with a function and an interface in it. -/
def handlerField : Field :=
  ⟨"next", none,
    .struct [⟨"Server", none, .func handle.signature, true⟩,
      ⟨"m", none, .interface ⟨[handle]⟩, false⟩], true⟩

/-- The counts of a root and two methods. -/
def handlerStatistics : Statistics :=
  ⟨3, 2, 1, 0, [(.root, 1), (.method, 2)]⟩

theorem readsBack_handler :
    ReadsBack Batch.toJson Batch.decode ⟨[Node.root, handleNode]⟩
    ∧ ReadsBack Node.toJson Node.decode handleNode
    ∧ ReadsBack TypeExpr.toJson (TypeExpr.decode .text) handlerField.type
    ∧ ReadsBack Field.toJson (Field.decode .text) handlerField
    ∧ ReadsBack Signature.toJson (Signature.decode .text) handle.signature
    ∧ ReadsBack Method.toJson (Method.decode .text) handle
    ∧ ReadsBack Interface.toJson (Interface.decode .text) ⟨[handle]⟩
    ∧ ReadsBack MethodSet.toJson (MethodSet.decode .text) ⟨[handle, handle]⟩
    ∧ ReadsBack MergeReport.toJson MergeReport.decode ⟨2, 1, 0, 1, 18446744073709551615⟩
    ∧ ReadsBack Statistics.toJson Statistics.decode handlerStatistics := by
  have hroot : Node.root.InRange := ⟨by decide, by decide, by decide, by decide⟩
  have hnode : handleNode.InRange := ⟨by decide, by decide, by decide, by decide⟩
  have hstatistics : handlerStatistics.InRange := ⟨by decide, by decide, by decide, by decide,
    ⟨fun k ↦ [(.root, 1), (.method, 2)].lookup k, by decide, fun k ↦ by cases k <;> decide⟩⟩
  obtain ⟨batch, node, -, -, type, field, signature, method, interface, methodSet, report,
    statistics, -⟩ := readsBack_all
  exact ⟨batch _ (by simp [hroot, hnode]), node _ hnode, type _ (by decide), field _ (by decide),
    signature _ (by decide), method _ (by decide), interface _ (by decide), methodSet _ (by decide),
    report _ ⟨by decide, by decide, by decide, by decide, by decide⟩, statistics _ hstatistics⟩

end DeclExtract
