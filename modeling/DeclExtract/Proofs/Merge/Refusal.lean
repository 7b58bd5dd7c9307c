import DeclExtract.Proofs.Merge.InBounds

/-!
# Which batches are refused

A batch is refused when it is malformed (`Batch.Malformed`), whatever has been merged before, and
the refusal names the first of its faults (`Batch.FirstFault`): nodes are gone through in their
order, the id of each before its uses and these before what it owns, and only if all of that is
sound a node that could never be recognised again is looked for.

The check reports the head of a list of all faults. The list is put together node by node, so its
head stands in the first part that is not empty (`Batch.head?_numberingFaults_iff`).

That a refusal changes nothing says little about a function that returns a new merger. So a merge is
read as a change of the merger in place, node by node, which may break off wherever a table has no
entry (`Merger.mergeInPlace`). It never does, since nothing outside the tables is asked for once a
batch has passed the check: a merge either is refused before it has changed anything, or goes
through (`Merger.Runs.run_mergeInPlace`).
-/

namespace DeclExtract

/-- Whether nothing tells of a node where it was seen before: it has no path, no position with a
column, and no ordinal. -/
def Node.Untraceable (n : Node) : Prop :=
  n.stablePath = none ∧ n.position.hasColumn = false ∧ n.subgraph = none

theorem Node.untraceable_iff {n : Node} :
    n.Untraceable ↔ n.hasIdentity = false ∧ n.subgraph = none := by
  simp [Untraceable, hasIdentity, stablePosition, and_assoc]

namespace Batch

variable {b : Batch} {n : Node} {e : Error} {size index : Nat}

/-! ### Malformed batches -/

/-- **A batch is malformed** if a node has not the id of its place, an edge leaves the batch, or a
node besides the root could never be recognised again. -/
def Malformed (b : Batch) : Prop :=
  ∃ (index : Nat) (n : Node), b.nodes[index]? = some n ∧
    (n.id ≠ index ∨ (∃ t ∈ n.targets, b.size ≤ t) ∨ (index ≠ 0 ∧ n.Untraceable))

/-- The ids of some first nodes of a batch are their places, and their edges stay below its size. -/
def Numbered (size : Nat) (ns : List Node) : Prop :=
  ∀ (n : Node) (index : Nat), ns[index]? = some n → n.id = index ∧ ∀ t ∈ n.targets, t < size

/-- **The first fault of a batch**, and the error that tells of it. -/
inductive FirstFault (b : Batch) : Error → Prop
  /-- The first node that is not sound has a wrong id. -/
  | id {before after : List Node} {n : Node} (hnodes : b.nodes = before ++ n :: after)
      (hbefore : Numbered b.size before) (hid : n.id ≠ before.length) :
      FirstFault b (.misplacedNode before.length n.id)
  /-- The first node that is not sound has the right id, and its first edge that leaves the batch is
  this one. -/
  | edge {before after : List Node} {n : Node} {inside rest : List Nat} {t : Nat}
      (hnodes : b.nodes = before ++ n :: after) (hbefore : Numbered b.size before)
      (hid : n.id = before.length) (htargets : n.targets = inside ++ t :: rest)
      (hinside : ∀ u ∈ inside, u < b.size) (ht : b.size ≤ t) :
      FirstFault b (.danglingEdge n.id t b.size)
  /-- Ids and edges are sound, and the first node besides the root that could never be recognised
  again is this one. -/
  | identity {before after : List Node} {n : Node} (hall : Numbered b.size b.nodes)
      (hnodes : b.nodes = before ++ n :: after) (hbefore : ∀ k ∈ before, k.id ≠ 0 → ¬ k.Untraceable)
      (hid : n.id ≠ 0) (hn : n.Untraceable) : FirstFault b (.missingIdentity n.name n.id)

theorem isAnonymous_iff : isAnonymous n = true ↔ n.id ≠ 0 ∧ n.Untraceable := by
  simp [isAnonymous, Node.untraceable_iff, and_assoc]

/-- **A batch is accepted unless it is malformed.** -/
theorem accepted_iff : b.Accepted ↔ ¬ b.Malformed := by
  constructor
  · rintro h ⟨index, n, hn, hid | ⟨t, ht, hle⟩ | ⟨hindex, huntraceable⟩⟩
    · exact hid (h.id_eq hn)
    · exact Nat.not_lt_of_le hle (h.target_lt (List.mem_of_getElem? hn) ht)
    · obtain ⟨hnone, hord⟩ := Node.untraceable_iff.mp huntraceable
      have hzero := h.id_eq_zero (List.mem_of_getElem? hn) hnone hord
      exact hindex ((h.id_eq hn).symm.trans hzero)
  · intro h
    have hid {index : Nat} {n : Node} (hn : b.nodes[index]? = some n) : n.id = index := by
      by_contra hne
      exact h ⟨index, n, hn, Or.inl hne⟩
    refine ⟨hid, fun {n t} hn ht ↦ ?_, fun {n} hn hnone hord ↦ ?_⟩
    all_goals
      obtain ⟨index, hindex⟩ := List.mem_iff_getElem?.mp hn
      by_contra hfault
    · exact h ⟨index, n, hindex, Or.inr (Or.inl ⟨t, ht, Nat.le_of_not_lt hfault⟩)⟩
    · exact h
        ⟨index, n, hindex,
          Or.inr (Or.inr ⟨hid hindex ▸ hfault, Node.untraceable_iff.mpr ⟨hnone, hord⟩⟩)⟩

/-! ### The first fault -/

/-- A node that is not sound has a wrong id, or else a first edge that leaves the batch. -/
theorem head?_nodeFaults_iff : (nodeFaults size n index).head? = some e ↔
    (n.id ≠ index ∧ .misplacedNode index n.id = e) ∨
    (n.id = index ∧ ∃ inside t rest, n.targets = inside ++ t :: rest ∧ (∀ u ∈ inside, u < size)
      ∧ size ≤ t ∧ .danglingEdge n.id t size = e) := by
  by_cases hid : n.id = index
  · simp only [nodeFaults, if_pos hid, List.nil_append, List.head?_map, List.head?_filter,
      Option.map_eq_some_iff, List.find?_eq_some_iff_append, decide_eq_true_eq, Bool.not_eq_true',
      decide_eq_false_iff_not, Nat.not_le]
    constructor
    · rintro ⟨t, ⟨ht, inside, rest, htargets, hinside⟩, rfl⟩
      exact Or.inr ⟨hid, inside, t, rest, htargets, hinside, ht, rfl⟩
    · rintro (⟨hne, -⟩ | ⟨-, inside, t, rest, htargets, hinside, ht, rfl⟩)
      · exact absurd hid hne
      · exact ⟨t, ⟨ht, inside, rest, htargets, hinside⟩, rfl⟩
  · simp [nodeFaults, hid]

/-- **The first fault of ids and edges** is that of the first node that is not sound. -/
theorem head?_numberingFaults_iff : b.numberingFaults.head? = some e ↔
    ∃ before n after, b.nodes = before ++ n :: after ∧ Numbered b.size before ∧
      (nodeFaults b.size n before.length).head? = some e := by
  have hsound {ns : List Node} :
      (∀ entry ∈ ns.zipIdx, (nodeFaults b.size entry.1 entry.2).head? = none) ↔
        Numbered b.size ns := by
    simp only [Prod.forall, List.mk_mem_zipIdx_iff_getElem?, List.head?_eq_none_iff,
      nodeFaults_eq_nil_iff, Numbered]
  rw [numberingFaults, List.head?_flatMap, List.findSome?_eq_some_iff]
  constructor
  · rintro ⟨before, ⟨n, index⟩, after, hnodes, hfault, hbefore⟩
    obtain ⟨earlier, rest, hsplit, rfl, hrest⟩ := List.zipIdx_eq_append_iff.mp hnodes
    obtain ⟨k, later, rfl, hk, -⟩ := List.zipIdx_eq_cons_iff.mp hrest.symm
    obtain ⟨rfl, rfl⟩ := Prod.mk.inj hk
    rw [Nat.zero_add] at hfault
    exact ⟨earlier, n, later, hsplit, hsound.mp hbefore, hfault⟩
  · rintro ⟨before, n, after, hnodes, hbefore, hfault⟩
    refine ⟨before.zipIdx, (n, before.length), after.zipIdx (before.length + 1), ?_, hfault,
      hsound.mpr hbefore⟩
    rw [hnodes, List.zipIdx_append, List.zipIdx_cons, Nat.zero_add]

/-- **The first node that could never be recognised again** is the one that is reported. -/
theorem head?_identityFaults_iff : b.identityFaults.head? = some e ↔
    ∃ before n after, b.nodes = before ++ n :: after ∧ (∀ k ∈ before, k.id ≠ 0 → ¬ k.Untraceable) ∧
      n.id ≠ 0 ∧ n.Untraceable ∧ .missingIdentity n.name n.id = e := by
  have hsound {k : Node} : (!isAnonymous k) = true ↔ (k.id ≠ 0 → ¬ k.Untraceable) := by
    rw [Bool.not_eq_true', Bool.eq_false_iff, ne_eq, isAnonymous_iff, not_and]
  simp only [identityFaults, List.head?_map, List.head?_filter, Option.map_eq_some_iff,
    List.find?_eq_some_iff_append, isAnonymous_iff, hsound]
  constructor
  · rintro ⟨n, ⟨⟨hid, hn⟩, before, after, hnodes, hbefore⟩, rfl⟩
    exact ⟨before, n, after, hnodes, hbefore, hid, hn, rfl⟩
  · rintro ⟨before, n, after, hnodes, hbefore, hid, hn, rfl⟩
    exact ⟨n, ⟨⟨hid, hn⟩, before, after, hnodes, hbefore⟩, rfl⟩

/-- **The first fault of a batch** is the head of the list of its faults. -/
theorem head?_faults_iff : b.faults.head? = some e ↔ b.FirstFault e := by
  rw [faults, List.head?_append, Option.or_eq_some_iff, List.head?_eq_none_iff,
    numberingFaults_eq_nil_iff, head?_numberingFaults_iff, head?_identityFaults_iff]
  constructor
  · rintro (⟨before, n, after, hnodes, hbefore, hfault⟩ | ⟨hall, before, n, after, hnodes, hbefore,
      hid, hn, rfl⟩)
    · rcases head?_nodeFaults_iff.mp hfault with ⟨hid, rfl⟩ | ⟨hid, inside, t, rest, htargets,
        hinside, ht, rfl⟩
      · exact .id hnodes hbefore hid
      · exact .edge hnodes hbefore hid htargets hinside ht
    · exact .identity hall hnodes hbefore hid hn
  · intro h
    cases h with
    | id hnodes hbefore hid =>
      exact Or.inl ⟨_, _, _, hnodes, hbefore, head?_nodeFaults_iff.mpr (Or.inl ⟨hid, rfl⟩)⟩
    | edge hnodes hbefore hid htargets hinside ht =>
      refine Or.inl ⟨_, _, _, hnodes, hbefore, head?_nodeFaults_iff.mpr (Or.inr ?_)⟩
      exact ⟨hid, _, _, _, htargets, hinside, ht, rfl⟩
    | identity hall hnodes hbefore hid hn =>
      exact Or.inr ⟨hall, _, _, _, hnodes, hbefore, hid, hn, rfl⟩

theorem faults_eq_nil_iff : b.faults = [] ↔ ¬ b.Malformed := by
  rw [← accepted_iff, ← check_eq_ok_iff, check]
  cases b.faults <;> simp

/-- A batch has a first fault just if it is malformed. -/
theorem exists_firstFault_iff : (∃ e, b.FirstFault e) ↔ b.Malformed := by
  simp only [← head?_faults_iff, ← Option.isSome_iff_exists, List.isSome_head?, ne_eq,
    faults_eq_nil_iff, not_not]

/-- **A refusal names the first fault.** -/
theorem check_eq_error_iff : b.check = .error e ↔ b.FirstFault e := by
  rw [← head?_faults_iff, check]
  cases b.faults <;> simp

/-- An edge of the root that leaves the batch comes before the wrong id of the next node, and this
before the node that could never be recognised again. -/
example :
    let stray : Node := { id := 2, name := "f", exported := false, kind := .function }
    (⟨[{ Node.root with owns := [2] }, stray]⟩ : Batch).check = .error (.danglingEdge 0 2 2)
    ∧ (⟨[Node.root, stray]⟩ : Batch).check = .error (.misplacedNode 1 2)
    ∧ (⟨[Node.root, { stray with id := 1 }]⟩ : Batch).check = .error (.missingIdentity "f" 1) := by
  decide

end Batch

/-! ### Merging in place -/

namespace Merging

/-- The strict reading of `sight`, with the merger changed in place: where a table has no entry it
breaks off without an error, and leaves the merger as it is at that moment. -/
def sightInPlace (s : Merging) (n : Node) : EStateM (Option Error) Merger Merging := do
  match { s with merger := ← get }.sight? n with
  | none => throw none
  | some next => modifyGet fun _ ↦ (next, next.merger)

/-- The strict reading of `connect`, with the merger changed in place. -/
def connectInPlace (s : Merging) (n : Node) : EStateM (Option Error) Merger Unit := do
  match s.connect? (← get) n with
  | none => throw none
  | some next => set next

variable {s s' : Merging} {ns : List Node} {m m' : Merger}

theorem foldlM_sightInPlace (h : ns.foldlM sight? s = some s') :
    (ns.foldlM sightInPlace s).run s.merger = .ok s' s'.merger := by
  induction ns generalizing s with
  | nil =>
    cases h
    rfl
  | cons n ns ih =>
    rw [List.foldlM_cons, Option.bind_eq_bind, Option.bind_eq_some_iff] at h
    obtain ⟨next, hnext, hrest⟩ := h
    have hfirst : (s.sightInPlace n).run s.merger = .ok next next.merger := by
      simp [sightInPlace, hnext]
    rw [List.foldlM_cons, EStateM.run_bind, hfirst]
    exact ih hrest

theorem forM_connectInPlace (h : ns.foldlM s.connect? m = some m') :
    (forM ns s.connectInPlace).run m = .ok () m' := by
  induction ns generalizing m with
  | nil =>
    cases h
    rfl
  | cons n ns ih =>
    rw [List.foldlM_cons, Option.bind_eq_bind, Option.bind_eq_some_iff] at h
    obtain ⟨next, hnext, hrest⟩ := h
    have hfirst : (s.connectInPlace n).run m = .ok () next := by
      simp [connectInPlace, hnext]
    rw [List.forM_cons, EStateM.run_bind, hfirst]
    exact ih hrest

end Merging

namespace Merger

/-- The strict reading of `merge`, with the merger changed in place. A failure has an error as its
cause, or none where a table has no entry, and it leaves the merger as it is at that moment. -/
def mergeInPlace (b : Batch) : EStateM (Option Error) Merger MergeReport := do
  match b.check with
  | .error e => throw (some e)
  | .ok () => do
    let s ← b.nodes.foldlM Merging.sightInPlace (Merging.start (← get))
    forM b.nodes s.connectInPlace
    return s.report

variable {m : Merger} {b : Batch} {bs : List Batch} {e : Error} {steps : List Step}

theorem merge_eq_error_iff : m.merge b = .error e ↔ b.FirstFault e := by
  rw [← Batch.check_eq_error_iff, merge]
  cases b.check <;> simp

/-- **A merge in place does what `merge` says**: a refusal comes before anything has been changed,
and after it nothing can fail. -/
theorem Runs.run_mergeInPlace (run : empty.Runs steps m) (b : Batch) :
    (mergeInPlace b).run m = match m.merge b with
      | .ok merged => .ok merged.report merged.merger
      | .error e => .error (some e) m := by
  have hstrict := run.inBounds.merge b
  rw [merge?, merge] at hstrict
  rw [mergeInPlace, merge]
  cases hcheck : b.check with
  | error e => rfl
  | ok _ =>
    rw [hcheck] at hstrict
    obtain ⟨merged, hmerged, heq⟩ := Option.map_eq_some_iff.mp hstrict
    obtain rfl : merged = m.mergeSound b := Except.ok.inj heq
    obtain ⟨s, hsighted, hconnected⟩ := Option.bind_eq_some_iff.mp hmerged
    obtain ⟨final, hfinal, hmerged⟩ := Option.bind_eq_some_iff.mp hconnected
    have hfirst : (b.nodes.foldlM Merging.sightInPlace (Merging.start m)).run m = .ok s s.merger :=
      Merging.foldlM_sightInPlace hsighted
    have hsecond := Merging.forM_connectInPlace hfinal
    rw [← Option.some.inj hmerged]
    simp only [EStateM.run_bind, EStateM.run_get, hfirst, hsecond, EStateM.run_pure]

/-- A list of batches is refused with the first fault of any. -/
theorem mergeAll_eq_error_iff_findSome? :
    (m.mergeAll bs).result = .error e ↔ bs.findSome? (fun b ↦ b.faults.head?) = some e := by
  induction bs generalizing m with
  | nil => simp [mergeAll]
  | cons b bs ih =>
    rw [mergeAll, List.findSome?_cons]
    cases hfault : b.faults.head? with
    | some fault => simp [merge_eq_error_iff.mpr (Batch.head?_faults_iff.mp hfault)]
    | none =>
      have haccepted :=
        Batch.accepted_iff.mpr (Batch.faults_eq_nil_iff.mp (List.head?_eq_none_iff.mp hfault))
      rw [merge_eq_ok_iff.mpr ⟨haccepted, rfl⟩]
      exact ih

/-- **The first malformed batch ends it**, with its first fault. -/
theorem mergeAll_eq_error_iff : (m.mergeAll bs).result = .error e ↔
    ∃ before b after, bs = before ++ b :: after ∧ (∀ c ∈ before, ¬ c.Malformed)
      ∧ b.FirstFault e := by
  simp only [mergeAll_eq_error_iff_findSome?, List.findSome?_eq_some_iff, Batch.head?_faults_iff,
    List.head?_eq_none_iff, Batch.faults_eq_nil_iff]
  simp only [and_comm (a := Batch.FirstFault _ _)]

/-- A list of batches is merged just if none of them is malformed. -/
theorem exists_mergeAll_eq_ok_iff :
    (∃ m', (m.mergeAll bs).result = .ok m') ↔ ∀ b ∈ bs, ¬ b.Malformed := by
  have hnone : bs.findSome? (fun b ↦ b.faults.head?) = none ↔ ∀ b ∈ bs, ¬ b.Malformed := by
    simp only [List.findSome?_eq_none_iff, List.head?_eq_none_iff, Batch.faults_eq_nil_iff]
  rw [← hnone, Option.eq_none_iff_forall_not_mem]
  simp only [Option.mem_def, ← mergeAll_eq_error_iff_findSome? (m := m)]
  cases (m.mergeAll bs).result <;> simp

end Merger

namespace UseGraph

variable {bs : List Batch} {e : Error}

theorem exists_ofBatches_eq_ok_iff :
    (∃ g, (ofBatches bs).result = .ok g) ↔ ∀ b ∈ bs, ¬ b.Malformed := by
  rw [← Merger.exists_mergeAll_eq_ok_iff (m := Merger.empty), ofBatches]
  cases (Merger.empty.mergeAll bs).result <;> simp [Except.map]

theorem ofBatches_eq_error_iff : (ofBatches bs).result = .error e ↔
    ∃ before b after, bs = before ++ b :: after ∧ (∀ c ∈ before, ¬ c.Malformed)
      ∧ b.FirstFault e := by
  rw [← Merger.mergeAll_eq_error_iff (m := Merger.empty), ofBatches]
  cases (Merger.empty.mergeAll bs).result <;> simp [Except.map]

end UseGraph

namespace Merger

/-- **Just the malformed batches are refused, and a refusal changes nothing.** Whatever batches have
been offered, a merge fails just if the batch is malformed, and it fails with the first fault of the
batch. Read as a change of the merger in place, it fails for no other cause, and leaves the merger
as it was. So a list of batches has a graph just if none of them is malformed, and otherwise the
first that is malformed says why not. -/
theorem refuses_malformed (offered : List Batch) :
    (∀ b : Batch, let m := empty.offerAll offered
      ((∃ e, m.merge b = .error e) ↔ b.Malformed)
      ∧ (∀ e, m.merge b = .error e ↔ b.FirstFault e)
      ∧ (∀ cause m', (mergeInPlace b).run m = .error cause m' ↔
          m' = m ∧ ∃ e, cause = some e ∧ b.FirstFault e)
      ∧ ∀ report m', (mergeInPlace b).run m = .ok report m' ↔
          ∃ merged, m.merge b = .ok merged ∧ report = merged.report ∧ m' = merged.merger)
    ∧ ((∃ g, (UseGraph.ofBatches offered).result = .ok g) ↔ ∀ b ∈ offered, ¬ b.Malformed)
    ∧ ∀ e, (UseGraph.ofBatches offered).result = .error e ↔
        ∃ before b after, offered = before ++ b :: after ∧ (∀ c ∈ before, ¬ c.Malformed)
          ∧ b.FirstFault e := by
  refine ⟨fun b ↦ ?_, UseGraph.exists_ofBatches_eq_ok_iff, fun _ ↦ UseGraph.ofBatches_eq_error_iff⟩
  obtain ⟨steps, -, run⟩ := exists_runs_offerAll empty offered
  have hinPlace := run.run_mergeInPlace b
  refine ⟨?_, fun _ ↦ merge_eq_error_iff, fun cause m' ↦ ?_, fun report m' ↦ ?_⟩
  · simp only [merge_eq_error_iff, Batch.exists_firstFault_iff]
  · simp only [← merge_eq_error_iff (m := empty.offerAll offered), hinPlace]
    cases (empty.offerAll offered).merge b with
    | error e => simp [eq_comm, and_comm]
    | ok merged => simp
  · rw [hinPlace]
    cases (empty.offerAll offered).merge b with
    | error e => simp
    | ok merged => simp [eq_comm]

end Merger

end DeclExtract
