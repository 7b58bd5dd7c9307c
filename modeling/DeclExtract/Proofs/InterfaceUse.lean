import Mathlib.Order.Bounds.Basic
import DeclExtract.Proofs.Batch
import DeclExtract.Proofs.TypeExpr.Satisfaction

/-!
# Uses of interfaces

A declaration that puts a value of a concrete type where an interface is asked for can reach the
methods of the type by way of the interface. If the type satisfies the interface, `Batch.link`
counts the methods that are bound as uses of the declaration, as far as the batch has nodes for
them.

A bound method is looked for under the identity that is recorded for it. Only an identity that tells
declarations apart is carried by a node (`Node.Carries`), and of several nodes that carry it the
first is meant (`Batch.find?_eq_some_iff`). So the bindings are passed through in their order, and
each contributes one node or none (`Batch.behind_providers`).

Linking appends to the uses of one node and leaves the rest of the batch as it is
(`Batch.AddsUses`), one node after the other or all at once (`Batch.addsUses_foldl`). What is
appended are ids of the batch, so a batch whose ids and edges are sound stays so
(`Batch.link_sound`).
-/

namespace DeclExtract

/-! ### Carrying an identity -/

/-- **A node carries an identity** if it is its object path and names an object, or if it is its
position and has a column. -/
def Node.Carries (n : Node) : Identity → Prop
  | .path p => n.path = some p ∧ p.object ≠ ""
  | .position p => n.position = p ∧ p.column ≠ none

/-- The identities that a node offers are those that it carries. -/
theorem Node.mem_identities_iff {n : Node} {i : Identity} : i ∈ n.identities ↔ n.Carries i := by
  cases i with
  | path p =>
    simp [path_mem_identities, stablePath, Option.filter_eq_some_iff, ObjectPath.isEmpty, Carries]
  | position p =>
    simp [position_mem_identities_iff, Position.hasColumn, Carries, Option.isSome_iff_ne_none]

namespace Batch

variable {b linked : Batch} {s : MethodSet} {t : Interface} {bindings : List Binding}
variable {targets : List Nat} {i : Identity} {id source : Nat}

/-- The ids of the nodes that carry an identity. -/
def carriers (b : Batch) (i : Identity) : Set Nat :=
  {id | ∃ n, b.nodes[id]? = some n ∧ n.Carries i}

theorem lt_size_of_mem_carriers (h : id ∈ b.carriers i) : id < b.size := by
  obtain ⟨n, hn, -⟩ := h
  exact (List.getElem?_eq_some_iff.mp hn).1

section

variable (h : b.checkNumbering = .ok ())

include h

/-- **The first node that carries an identity is found.** -/
theorem find?_eq_some_iff : b.find? i = some id ↔ IsLeast (b.carriers i) id := by
  have hid {index : Nat} {n : Node} (hn : b.nodes[index]? = some n) : n.id = index :=
    (checkNumbering_eq_ok_iff.mp h n index hn).1
  simp only [find?, Node.mem_identities_iff, Option.map_eq_some_iff, List.find?_eq_some_iff_getElem,
    decide_eq_true_eq, Bool.not_eq_true', decide_eq_false_iff_not]
  constructor
  · rintro ⟨n, ⟨hn, index, hlt, rfl, hbefore⟩, rfl⟩
    have hindex := List.getElem?_eq_getElem hlt
    rw [hid hindex]
    refine ⟨⟨_, hindex, hn⟩, fun other ⟨k, hk, hcarries⟩ ↦ Nat.le_of_not_lt fun hother ↦ ?_⟩
    obtain ⟨hotherlt, rfl⟩ := List.getElem?_eq_some_iff.mp hk
    exact hbefore other hother hcarries
  · rintro ⟨⟨n, hn, hcarries⟩, hleast⟩
    obtain ⟨hlt, rfl⟩ := List.getElem?_eq_some_iff.mp hn
    refine ⟨_, ⟨hcarries, id, hlt, rfl, fun other hother hcarries ↦ ?_⟩, hid hn⟩
    have hotherlt : other < b.nodes.length := Nat.lt_trans hother hlt
    exact Nat.not_le_of_lt hother (hleast ⟨_, List.getElem?_eq_getElem hotherlt, hcarries⟩)

omit h in
/-- Nothing is found just if no node carries the identity. -/
theorem find?_eq_none_iff : b.find? i = none ↔ b.carriers i = ∅ := by
  simp only [find?, Option.map_eq_none_iff, List.find?_eq_none, decide_eq_true_eq,
    Node.mem_identities_iff, Set.eq_empty_iff_forall_notMem]
  constructor
  · rintro hnone id ⟨n, hn, hcarries⟩
    exact hnone n (List.mem_of_getElem? hn) hcarries
  · intro hnone n hn hcarries
    obtain ⟨id, hid⟩ := List.mem_iff_getElem?.mp hn
    exact hnone id ⟨n, hid, hcarries⟩

end

/-! ### The nodes behind bindings -/

/-- **The nodes behind bindings**, in the order of the bindings. A binding has one if some node
carries the identity that is recorded for the provided method, and that is the first such node. -/
inductive Behind (b : Batch) : List Binding → List Nat → Prop
  | nil : b.Behind [] []
  /-- A node carries the recorded identity, and this is the first. -/
  | carried {binding : Binding} {bindings : List Binding} {id : Nat} {ids : List Nat} {i : Identity}
      (recorded : binding.provided.identity = some i) (least : IsLeast (b.carriers i) id)
      (rest : b.Behind bindings ids) : b.Behind (binding :: bindings) (id :: ids)
  /-- No identity is recorded, or no node carries it. -/
  | missing {binding : Binding} {bindings : List Binding} {ids : List Nat}
      (none_carries : ∀ i, binding.provided.identity = some i → b.carriers i = ∅)
      (rest : b.Behind bindings ids) : b.Behind (binding :: bindings) ids

theorem Behind.lt_size (h : b.Behind bindings targets) : ∀ target ∈ targets, target < b.size := by
  induction h with
  | nil => exact fun target htarget ↦ nomatch htarget
  | carried recorded least rest ih =>
    exact List.forall_mem_cons.mpr ⟨lt_size_of_mem_carriers least.1, ih⟩
  | missing none_carries rest ih => exact ih

/-- **Linking takes the nodes behind the bindings.** -/
theorem behind_providers (h : b.checkNumbering = .ok ()) (bindings : List Binding) :
    b.Behind bindings (b.providers bindings) := by
  induction bindings with
  | nil => exact .nil
  | cons binding bindings ih =>
    rw [providers, List.filterMap_cons]
    cases hidentity : binding.provided.identity with
    | none => exact .missing (fun i hi ↦ by rw [hidentity] at hi; cases hi) ih
    | some i =>
      cases hfind : b.find? i with
      | none =>
        simp only [Option.bind_some, hfind]
        refine .missing (fun j hj ↦ ?_) ih
        rw [hidentity, Option.some_inj] at hj
        exact find?_eq_none_iff.mp (hj ▸ hfind)
      | some id =>
        simp only [Option.bind_some, hfind]
        exact .carried hidentity ((find?_eq_some_iff h).mp hfind) ih

/-! ### Appending uses -/

/-- **A batch is another one with more uses of one node**, appended to what it uses already. -/
structure AddsUses (linked b : Batch) (source : Nat) (targets : List Nat) : Prop where
  size_eq : linked.size = b.size
  /-- The targets are appended to the uses of the source, which keeps all else. -/
  source_eq : linked.nodes[source]? = b.nodes[source]?.map fun n ↦
    { n with uses := n.uses ++ targets }
  /-- No other node is changed. -/
  other_eq : ∀ id, id ≠ source → linked.nodes[id]? = b.nodes[id]?

theorem addsUses_foldl (b : Batch) (source : Nat) (targets : List Nat) :
    (targets.foldl (fun b target ↦ b.addUse source target) b).AddsUses b source targets := by
  induction targets generalizing b with
  | nil => exact ⟨rfl, by simp, fun _ _ ↦ rfl⟩
  | cons target targets ih =>
    obtain ⟨hsize, hsource, hother⟩ := ih (b.addUse source target)
    have hfirst (id : Nat) : (b.addUse source target).nodes[id]? =
        (fun n ↦ if source = id then { n with uses := n.uses ++ [target] } else n) <$>
        b.nodes[id]? :=
      List.getElem?_modify _ source b.nodes id
    refine ⟨hsize.trans (by simp [size, addUse]), ?_, fun id hid ↦ ?_⟩
    · rw [List.foldl_cons, hsource, hfirst]
      cases b.nodes[source]? <;> simp
    · rw [List.foldl_cons, hother id hid, hfirst]
      simp [Ne.symm hid]

/-- Nothing is changed where there is no source. -/
theorem AddsUses.eq_self (h : linked.AddsUses b source targets) (hsource : b.size ≤ source) :
    linked = b := by
  have hnodes : linked.nodes = b.nodes := by
    refine List.ext_getElem? fun id ↦ ?_
    by_cases hid : id = source
    · rw [hid, h.source_eq, List.getElem?_eq_none hsource, Option.map_none]
    · exact h.other_eq id hid
  cases linked
  cases b
  exact congrArg _ hnodes

/-- **Ids and edges stay sound** when ids of the batch are appended. -/
theorem AddsUses.checkNumbering (h : linked.AddsUses b source targets)
    (hb : b.checkNumbering = .ok ()) (htargets : ∀ target ∈ targets, target < b.size) :
    linked.checkNumbering = .ok () := by
  rw [checkNumbering_eq_ok_iff] at hb ⊢
  rw [h.size_eq]
  intro n index hn
  by_cases hindex : index = source
  · subst hindex
    rw [h.source_eq, Option.map_eq_some_iff] at hn
    obtain ⟨k, hk, rfl⟩ := hn
    obtain ⟨hid, hinside⟩ := hb k index hk
    refine ⟨hid, fun t ht ↦ ?_⟩
    simp only [Node.targets, List.mem_append] at ht hinside
    rcases ht with (ht | ht) | ht
    · exact hinside t (Or.inl ht)
    · exact htargets t ht
    · exact hinside t (Or.inr ht)
  · exact hb n index (h.other_eq index hindex ▸ hn)

/-! ### Linking -/

theorem link_of_bindings_eq_none (h : (Implementor.concrete s).bindings? t = none) :
    b.link source s t = (b, false) := by
  rw [link, h]

theorem link_of_bindings_eq_some (h : (Implementor.concrete s).bindings? t = some bindings) :
    b.link source s t = ((b.providers bindings).foldl (fun b target ↦ b.addUse source target) b,
      true) := by
  rw [link, h]

/-- The bindings are for the methods of the interface, in their order. -/
theorem map_required_of_bindings_eq_some
    (h : (Implementor.concrete s).bindings? t = some bindings) :
    bindings.map Binding.required = t.methods := by
  rw [Implementor.bindings?_concrete] at h
  refine ((mapM_eq_some_iff_of_inverse fun {m binding} hbind ↦ ?_).mp h).1
  obtain ⟨found, -, -, rfl⟩ := MethodSet.bind?_eq_some_iff.mp hbind
  rfl

/-- **A use of an interface is a use of the methods behind it, and of nothing else.** Linking
answers whether the concrete type satisfies the interface. If not, the batch stays as it is. If so,
the bindings are for the methods of the interface in their order, the nodes behind the bindings are
appended to what the source uses, and nothing else is changed; if there is no source, nothing is.
The ids and edges of the batch stay sound. -/
theorem link_sound (h : b.checkNumbering = .ok ()) (source : Nat) (s : MethodSet) (t : Interface) :
    ((b.link source s t).2 = (Implementor.concrete s).satisfies t) ∧
    ((Implementor.concrete s).satisfies t = false → (b.link source s t).1 = b) ∧
    (∀ bindings, (Implementor.concrete s).bindings? t = some bindings →
      bindings.map Binding.required = t.methods ∧
      ∃ targets, b.Behind bindings targets ∧ (b.link source s t).1.AddsUses b source targets) ∧
    (b.size ≤ source → (b.link source s t).1 = b) ∧
    (b.link source s t).1.checkNumbering = .ok () := by
  cases hbindings : (Implementor.concrete s).bindings? t with
  | none =>
    have hnot : (Implementor.concrete s).satisfies t = false := by
      rw [Implementor.satisfies, hbindings]; rfl
    rw [link_of_bindings_eq_none hbindings, hnot]
    exact ⟨rfl, fun _ ↦ rfl, fun _ hsome ↦ absurd hsome.symm (Option.some_ne_none _),
      fun _ ↦ rfl, h⟩
  | some bindings =>
    have hsatisfies : (Implementor.concrete s).satisfies t = true := by
      rw [Implementor.satisfies, hbindings]; rfl
    have hbehind := behind_providers h bindings
    have hadds := addsUses_foldl b source (b.providers bindings)
    rw [link_of_bindings_eq_some hbindings, hsatisfies]
    refine ⟨rfl, fun hfalse ↦ Bool.noConfusion hfalse, ?_, hadds.eq_self,
      hadds.checkNumbering h hbehind.lt_size⟩
    rintro _ ⟨rfl⟩
    exact ⟨map_required_of_bindings_eq_some hbindings, _, hbehind, hadds⟩

/-- A batch with a declaration that copies, the methods that a file can be read and written with,
and a second node for one of the methods. -/
def copying : Batch :=
  let method (id : Nat) (name : String) : Node :=
    { id, name, exported := true, kind := .method, path := some ⟨"os", name⟩ }
  ⟨[Node.root,
    { id := 1, name := "copy", exported := false, kind := .function, path := some ⟨"io", "copy"⟩,
      uses := [3] },
    method 2 "Read", method 3 "Write", method 4 "Read"]⟩

theorem link_sound_copying :
    copying.checkNumbering = .ok () ∧ (copying.link 1 file readWriter).2 = true ∧
    (copying.link 1 file readWriter).1.checkNumbering = .ok () ∧
    (copying.link 5 file readWriter).1 = copying ∧
    ∃ bindings targets, bindings.map Binding.required = readWriter.methods ∧
      copying.Behind bindings targets ∧
      (copying.link 1 file readWriter).1.AddsUses copying 1 targets := by
  have hcheck : copying.checkNumbering = .ok () := by decide
  have hsatisfies : (Implementor.concrete file).satisfies readWriter = true := by decide +kernel
  obtain ⟨bindings, hbindings⟩ := Option.isSome_iff_exists.mp hsatisfies
  obtain ⟨hanswer, -, hlinked, -, hchecked⟩ := link_sound hcheck 1 file readWriter
  obtain ⟨-, -, -, hnowhere, -⟩ := link_sound hcheck 5 file readWriter
  obtain ⟨hrequired, targets, hbehind, hadds⟩ := hlinked bindings hbindings
  exact ⟨hcheck, hanswer.trans hsatisfies, hchecked, hnowhere (by decide), bindings, targets,
    hrequired, hbehind, hadds⟩

/-- Writing comes before reading in the interface, and reading is asked for twice. -/
example : ((copying.link 1 file readWriter).1.nodes[1]?.map Node.uses) = some [3, 3, 2, 2] := by
  decide +kernel

end Batch

end DeclExtract
