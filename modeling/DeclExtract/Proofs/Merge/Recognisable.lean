import DeclExtract.Proofs.Merge.Graph
import DeclExtract.Proofs.Merge.Preservation

/-!
# What a slot shows is enough to recognise it

A slot shows at most one path, one position and one ordinal, although its declaration may be known
under many identities. Whatever it shows leads back to it: an identity that a representative shows
is known under it, and an anonymous root shows its own ordinal. And it shows something: a
representative has an identity unless it is an anonymous root (`Merger.Recognisable`).

The invariant holds of every run, with or without ordinals in the batches. Where the batches carry
no ordinals, an ordinal that a slot shows is that of an anonymous root (`Merger.Unnumbered`);
otherwise a declaration with an identity may have brought an ordinal along that belongs to nobody,
or to another declaration later on.
-/

namespace DeclExtract

/-- A node shows the path of one of two nodes, and the position of one of them; the first comes
first. -/
structure Node.Gathers (n a b : Node) : Prop where
  stablePath : n.stablePath = a.stablePath.or b.stablePath
  stablePosition : n.stablePosition = a.stablePosition.or b.stablePosition

namespace Node.Gathers

variable {n a b : Node} {i : Identity}

theorem mem_identities (h : n.Gathers a b) (hi : i ∈ n.identities) :
    i ∈ a.identities ∨ i ∈ b.identities := by
  cases i with
  | path p =>
    simp only [path_mem_identities, h.stablePath, Option.or_eq_some_iff] at hi ⊢
    exact hi.imp_right And.right
  | position p =>
    simp only [position_mem_identities, h.stablePosition, Option.or_eq_some_iff] at hi ⊢
    exact hi.imp_right And.right

theorem hasIdentity (h : n.Gathers a b) (ha : a.hasIdentity = true) : n.hasIdentity = true := by
  unfold Node.hasIdentity at ha ⊢
  rw [h.stablePath, h.stablePosition, Option.isSome_or, Option.isSome_or]
  rcases Bool.or_eq_true_iff.mp ha with ha | ha <;> simp [ha]

end Node.Gathers

/-- Two nodes show the same path, the same position and the same ordinal. -/
structure Node.ShowsSame (n k : Node) : Prop where
  path : n.path = k.path
  position : n.position = k.position
  subgraph : n.subgraph = k.subgraph

namespace Node.ShowsSame

variable {n k : Node}

theorem stablePath (h : n.ShowsSame k) : n.stablePath = k.stablePath := by
  rw [Node.stablePath, h.path, Node.stablePath]

theorem identities (h : n.ShowsSame k) : n.identities = k.identities := by
  rw [Node.identities, h.stablePath, Node.stablePosition, h.position, Node.identities,
    Node.stablePosition]

theorem hasIdentity (h : n.ShowsSame k) : n.hasIdentity = k.hasIdentity := by
  rw [Bool.eq_iff_iff, Node.hasIdentity_iff, Node.hasIdentity_iff, h.identities]

end Node.ShowsSame

namespace Merger

variable {m : Merger} {n : Node} {r : Recognition} {i : Identity} {slot : Nat}

/-! ### What the operations let a slot show -/

theorem stablePath_filter (p : Option ObjectPath) :
    (p.filter fun p ↦ !p.isEmpty).filter (fun p ↦ !p.isEmpty) = p.filter fun p ↦ !p.isEmpty := by
  simp [Option.filter_filter]

theorem complete_gathers (known sighted : Node) :
    (complete known sighted).Gathers known sighted where
  stablePath := by
    unfold complete
    rw [Node.stablePath]
    dsimp only
    split
    next hsome =>
      obtain ⟨p, hp⟩ := Option.isSome_iff_exists.mp hsome
      rw [hp, Option.some_or]
      exact hp
    next hnone =>
      rw [Option.not_isSome_iff_eq_none.mp hnone, Option.none_or]
      exact stablePath_filter _
  stablePosition := by
    unfold complete Node.stablePosition
    by_cases hknown : known.position.hasColumn = true
    · simp [hknown]
    · by_cases hsighted : sighted.position.hasColumn = true <;> simp [hknown, hsighted]

theorem inherit_gathers (survivor absorbed : Node) :
    (inherit survivor absorbed).Gathers survivor absorbed where
  stablePath := (complete_gathers survivor absorbed).stablePath
  stablePosition := by
    unfold inherit Node.stablePosition
    by_cases hsurvivor : survivor.position.hasColumn = true <;> simp [hsurvivor]

@[simp] theorem identities_settle (m : Merger) (n : Node) (slot : Nat) :
    (m.settle n slot).identities = n.identities := by
  rw [Node.identities, Node.identities]
  congr 2
  exact congrArg (Option.map Identity.path) (stablePath_filter n.path)

@[simp] theorem hasIdentity_settle (m : Merger) (n : Node) (slot : Nat) :
    (m.settle n slot).hasIdentity = n.hasIdentity := by
  rw [Bool.eq_iff_iff, Node.hasIdentity_iff, Node.hasIdentity_iff, identities_settle]

/-! ### The invariant -/

/-- **What a slot shows is enough to recognise it.** -/
structure Recognisable (m : Merger) : Prop where
  /-- A slot shows no path that could not tell declarations apart. -/
  path_eq : ∀ s, (m.node s).path = (m.node s).stablePath
  /-- An anonymous root shows its ordinal. -/
  ordinal_eq : ∀ {o s}, m.anonymousRoots[o]? = some s → (m.node s).subgraph = some o
  /-- An identity that a representative shows is known under it. -/
  known_eq : ∀ {s i}, m.forest.find s = s → i ∈ (m.node s).identities → m.known? i = some s
  /-- A representative shows an identity unless it is an anonymous root. -/
  root_or : ∀ {s}, s < m.slots.size → m.forest.find s = s →
    s ∈ m.anonymousRoots ∨ (m.node s).hasIdentity = true

theorem recognisable_empty : empty.Recognisable where
  path_eq s := by
    rw [node_empty]
    split <;> rfl
  ordinal_eq {o s} hroot := by
    obtain ⟨ho, rfl⟩ := Array.getElem?_eq_some_iff.mp hroot
    obtain rfl : o = 0 := Nat.lt_one_iff.mp ho
    rfl
  known_eq {s i} _ hi := by
    rw [node_empty] at hi
    split at hi <;> cases hi
  root_or {s} hs _ := by
    obtain rfl : s = 0 := Nat.lt_one_iff.mp hs
    exact Or.inl wellFormed_empty.root_mem

/-- What a completed declaration shows tells declarations apart if what was known did. -/
theorem path_complete {known : Node} (h : known.path = known.stablePath) (sighted : Node) :
    (complete known sighted).path = (complete known sighted).stablePath := by
  rw [(complete_gathers known sighted).stablePath, complete]
  dsimp only
  split
  next hsome =>
    obtain ⟨p, hp⟩ := Option.isSome_iff_exists.mp hsome
    rw [h, hp, Option.some_or]
  next hnone => rw [Option.not_isSome_iff_eq_none.mp hnone, Option.none_or]

theorem known?_register (m : Merger) (n : Node) (slot : Nat) (i : Identity) :
    (m.register n slot).known? i
      = (m.known? i).or (if i ∈ n.identities then some (m.forest.find slot) else none) := by
  rw [known?, indexed?_register, forest_register, known?]
  cases m.indexed? i with
  | some s => rfl
  | none =>
    rw [Option.none_or, Option.map_none, Option.none_or]
    split <;> rfl

/-- What was known under the slot that was given up is known under the one that was kept. -/
theorem WellFormed.known?_unify {a b : Nat} (hm : m.WellFormed) (hne : a ≠ b)
    (ha : a < m.slots.size ∧ m.forest.find a = a) (hb : b < m.slots.size ∧ m.forest.find b = b)
    (i : Identity) :
    (m.unify a b).known? i = (m.known? i).map fun c ↦ if c = max a b then min a b else c := by
  rw [known?, indexed?_unify, known?, Option.map_map]
  exact Option.map_congr fun s _ ↦ hm.find_unify hne ha hb s

/-- What was known before stays known, and what was not is known under the new slot if the new node
shows it. -/
theorem WellFormed.known?_allocate (hm : m.WellFormed) (n : Node) (i : Identity) :
    (m.allocate n).known? i
      = (m.known? i).or (if i ∈ n.identities then some m.slots.size else none) := by
  have hself : m.forest.find m.slots.size = m.slots.size :=
    Forest.find_of_size_le (Nat.le_of_eq hm.size_forest)
  rw [Merger.allocate, known?_register, known?_extend, forest_extend, Forest.find_grow, hself]

/-- An ordinal of a merger that was given a slot is an old one, or the next one if the slot is that
of a node without identity. -/
theorem root_extend_iff {o s : Nat} : (m.extend n).anonymousRoots[o]? = some s ↔
    m.anonymousRoots[o]? = some s
      ∨ n.hasIdentity = false ∧ o = m.anonymousRoots.size ∧ s = m.slots.size := by
  rw [anonymousRoots_extend]
  by_cases hidentity : n.hasIdentity = true
  · simp [hidentity]
  · rw [if_neg hidentity, Array.getElem?_push]
    split
    next ho => simp [ho, hidentity, eq_comm]
    next ho => simp [ho]

namespace Recognisable

/-- A sighting may be registered for a representative that all of its known identities belong to. -/
theorem register (h : m.Recognisable) (hslot : slot < m.slots.size)
    (hself : m.forest.find slot = slot)
    (hknown : ∀ {i c}, i ∈ n.identities → m.known? i = some c → c = slot) :
    (m.register n slot).Recognisable where
  path_eq s := by
    rw [node_register hslot]
    split
    · exact path_complete (h.path_eq s) n
    · exact h.path_eq s
  ordinal_eq {o s} hroot := by
    rw [node_register hslot]
    split <;> exact h.ordinal_eq hroot
  known_eq {s i} hs hi := by
    rw [known?_register]
    rw [node_register hslot] at hi
    have hold (hi : i ∈ (m.node s).identities) : (m.known? i).or
        (if i ∈ n.identities then some (m.forest.find slot) else none) = some s := by
      rw [h.known_eq hs hi, Option.some_or]
    split at hi
    next heq =>
      rcases (complete_gathers (m.node s) n).mem_identities hi with hi | hi
      · exact hold hi
      · rw [if_pos hi, hself, heq]
        cases hcase : m.known? i with
        | none => rfl
        | some c => rw [hknown hi hcase, Option.some_or]
    next => exact hold hi
  root_or {s} hlt hs := by
    rw [size_slots_register] at hlt
    rw [anonymousRoots_register, node_register hslot]
    refine (h.root_or hlt hs).imp_right fun hidentity ↦ ?_
    split
    · exact (complete_gathers (m.node s) n).hasIdentity hidentity
    · exact hidentity

/-- The classes of two representatives may be joined unless one of them is an anonymous root. -/
theorem unify {a b : Nat} (h : m.Recognisable) (hm : m.WellFormed) (hne : a ≠ b)
    (ha : a < m.slots.size ∧ m.forest.find a = a ∧ a ∉ m.anonymousRoots)
    (hb : b < m.slots.size ∧ m.forest.find b = b ∧ b ∉ m.anonymousRoots) :
    (m.unify a b).Recognisable := by
  have hnode := node_unify hne ha.1 hb.1
  obtain ⟨hminlt, hmin, hminroot⟩ := min_rec' (fun c ↦ c < m.slots.size ∧ m.forest.find c = c
    ∧ c ∉ m.anonymousRoots) ha hb
  obtain ⟨hmaxlt, hmax, hmaxroot⟩ :=
    max_rec' (fun c ↦ c < m.slots.size ∧ m.forest.find c = c ∧ c ∉ m.anonymousRoots) ha hb
  have hknown {i : Identity} {c : Nat} (hc : m.known? i = some c) :
      (m.unify a b).known? i = some (if c = max a b then min a b else c) := by
    rw [hm.known?_unify hne ⟨ha.1, ha.2.1⟩ ⟨hb.1, hb.2.1⟩, hc, Option.map_some]
  have hrep {rep : Nat} (hself : (m.unify a b).forest.find rep = rep) :=
    hm.find_eq_of_unify hne ⟨ha.1, ha.2.1⟩ ⟨hb.1, hb.2.1⟩ hself
  exact {
    path_eq := fun s ↦ by
      rw [hnode]
      split
      · exact path_complete (h.path_eq (min a b)) (m.node (max a b))
      · split
        · rfl
        · exact h.path_eq s
    ordinal_eq := fun {o s} hroot ↦ by
      have hmem : s ∈ m.anonymousRoots := Array.mem_of_getElem? hroot
      have hkeep : s ≠ min a b := fun heq ↦ hminroot (heq ▸ hmem)
      have hgone : s ≠ max a b := fun heq ↦ hmaxroot (heq ▸ hmem)
      rw [hnode, if_neg hkeep, if_neg hgone]
      exact h.ordinal_eq hroot
    known_eq := fun {s i} hs hi ↦ by
      obtain ⟨hold, hgone⟩ := hrep hs
      rw [hnode, if_neg hgone] at hi
      split at hi
      next hkeep =>
        rcases (inherit_gathers _ _).mem_identities hi with hi | hi
        · rw [hknown (h.known_eq hmin hi), if_neg (hkeep ▸ hgone), hkeep]
        · rw [hknown (h.known_eq hmax hi), if_pos rfl, hkeep]
      next => rw [hknown (h.known_eq hold hi), if_neg hgone]
    root_or := fun {s} hlt hs ↦ by
      obtain ⟨hold, hgone⟩ := hrep hs
      rw [size_slots_unify] at hlt
      rw [anonymousRoots_unify, hnode, if_neg hgone]
      refine (h.root_or hlt hold).imp_right fun hidentity ↦ ?_
      split
      next hkeep => exact (inherit_gathers _ _).hasIdentity (hkeep ▸ hidentity)
      next => exact hidentity }

/-- The new slot of a declaration that was not recognised shows what the declaration shows. -/
theorem allocate (h : m.Recognisable) (hm : m.WellFormed) (hcand : m.candidates n = []) :
    (m.allocate n).Recognisable := by
  -- the new slot, and any other one
  have hnew : (m.allocate n).node m.slots.size = complete (m.settle n m.slots.size) n := by
    rw [node_allocate hm.slots_pos, if_pos rfl]
  have hother {s : Nat} (hs : s ≠ m.slots.size) : ((m.allocate n).node s).ShowsSame (m.node s) := by
    rw [node_allocate hm.slots_pos, if_neg hs]
    split
    next hzero => rw [hzero.1]; exact ⟨rfl, rfl, rfl⟩
    next => exact ⟨rfl, rfl, rfl⟩
  have hfind (s : Nat) : (m.allocate n).forest.find s = m.forest.find s :=
    Forest.find_grow m.forest s
  have hgathers := complete_gathers (m.settle n m.slots.size) n
  exact {
    path_eq := fun s ↦ by
      by_cases hs : s = m.slots.size
      · rw [hs, hnew]
        exact path_complete (stablePath_filter n.path).symm n
      · rw [(hother hs).path, (hother hs).stablePath]
        exact h.path_eq s
    ordinal_eq := fun {o s} hroot ↦ by
      rcases root_extend_iff.mp hroot with hold | ⟨hidentity, rfl, rfl⟩
      · have hlt : s < m.slots.size := hm.root_lt (Array.mem_of_getElem? hold)
        rw [(hother (Nat.ne_of_lt hlt)).subgraph]
        exact h.ordinal_eq hold
      · rw [hnew]
        simp [complete, settle, hidentity]
    known_eq := fun {s i} hs hi ↦ by
      rw [hfind] at hs
      rw [hm.known?_allocate]
      by_cases heq : s = m.slots.size
      · -- no identity of the new slot was known
        rw [heq, hnew] at hi
        have hin : i ∈ n.identities := by simpa using hgathers.mem_identities hi
        have hnone : m.known? i = none := List.filterMap_eq_nil_iff.mp hcand i hin
        rw [hnone, if_pos hin, Option.none_or, heq]
      · rw [(hother heq).identities] at hi
        rw [h.known_eq hs hi, Option.some_or]
    root_or := fun {s} hlt hs ↦ by
      by_cases heq : s = m.slots.size
      · rw [heq, hnew]
        cases hidentity : n.hasIdentity with
        | true => exact Or.inr (hgathers.hasIdentity (by rwa [hasIdentity_settle]))
        | false =>
          exact Or.inl (Array.mem_of_getElem? (root_extend_iff.mpr (Or.inr ⟨hidentity, rfl, rfl⟩)))
      · rw [size_slots_allocate] at hlt
        rw [hfind] at hs
        rw [(hother heq).hasIdentity]
        refine (h.root_or (by omega) hs).imp_left fun hroot ↦ ?_
        obtain ⟨o, ho⟩ := Array.mem_iff_getElem?.mp hroot
        exact Array.mem_of_getElem? (root_extend_iff.mpr (Or.inl ho)) }

/-- Edges change nothing that a slot shows. -/
theorem addEdges {uses owns : List Nat} (h : m.Recognisable) (hslot : slot < m.slots.size) :
    (m.addEdges slot uses owns).Recognisable := by
  have hnode (s : Nat) : ((m.addEdges slot uses owns).node s).ShowsSame (m.node s) := by
    rw [node_addEdges (Forest.find_lt hslot)]
    split <;> exact ⟨rfl, rfl, rfl⟩
  exact {
    path_eq := fun s ↦ by
      rw [(hnode s).path, (hnode s).stablePath]
      exact h.path_eq s
    ordinal_eq := fun {o s} hroot ↦ by
      rw [(hnode s).subgraph]
      exact h.ordinal_eq hroot
    known_eq := fun {s i} hs hi ↦ by
      rw [(hnode s).identities] at hi
      rw [known?, indexed?_addEdges]
      exact h.known_eq hs hi
    root_or := fun {s} hlt hs ↦ by
      rw [size_slots_addEdges] at hlt
      rw [(hnode s).hasIdentity]
      exact h.root_or hlt hs }

/-- **However a node is recognised, slots show enough.** -/
theorem settleAs (h : m.Recognisable) (hm : m.WellFormed) (hr : Recognises m n r) :
    (m.settleAs n r).1.Recognisable := by
  have honly {a : Nat} (hcand : m.candidates n = [a]) {i : Identity} {c : Nat}
      (hi : i ∈ n.identities) (hc : m.known? i = some c) : c = a := by
    have hmem : c ∈ m.candidates n := mem_candidates.mpr ⟨i, hi, hc⟩
    rwa [hcand, List.mem_singleton] at hmem
  exact hm.settleAs_preserves hr h (fun hcand hlt hself _ ↦ h.register hlt hself (honly hcand))
    (h.unify hm) fun _ ↦ h.allocate hm

end Recognisable

/-- **Every run ends with slots that show enough to be recognised.** -/
theorem Runs.recognisable {steps : List Step} (run : empty.Runs steps m) : m.Recognisable := by
  let P (m : Merger) (_ : List Sighting) : Prop := m.Recognisable
  have hstart : P empty [] := recognisable_empty
  exact run.preserves wellFormed_empty hstart (fun _ _ hm h ↦ h.settleAs hm (recognises _ _))
    fun _ hslot h ↦ h.addEdges hslot

/-! ### Ordinals -/

/-- The ordinals that slots show are those of anonymous roots. -/
def Unnumbered (m : Merger) : Prop :=
  ∀ o s, (m.node s).subgraph = some o → m.anonymousRoots[o]? = some s

theorem unnumbered_empty : empty.Unnumbered := by
  intro o s ho
  rw [node_empty] at ho
  split at ho
  next hs =>
    obtain rfl : 0 = o := Option.some.inj ho
    rw [hs]
    rfl
  next => cases ho

namespace Unnumbered

theorem register (h : m.Unnumbered) (hslot : slot < m.slots.size) :
    (m.register n slot).Unnumbered := by
  intro o s ho
  rw [node_register hslot] at ho
  split at ho <;> exact h o s ho

theorem unify {a b : Nat} (h : m.Unnumbered) (hne : a ≠ b) (ha : a < m.slots.size)
    (hb : b < m.slots.size) : (m.unify a b).Unnumbered := by
  intro o s ho
  rw [node_unify hne ha hb] at ho
  split at ho
  next hs => exact hs ▸ h o _ ho
  next =>
    split at ho
    next => cases ho
    next => exact h o s ho

theorem extend (h : m.Unnumbered) (hpos : 0 < m.slots.size) (hord : n.subgraph = none) :
    (m.extend n).Unnumbered := by
  intro o s ho
  rw [root_extend_iff]
  rw [node_extend hpos] at ho
  split at ho
  next hs =>
    cases hidentity : n.hasIdentity with
    | true => simp [settle, hidentity, hord] at ho
    | false =>
      simp only [settle, hidentity] at ho
      exact Or.inr ⟨rfl, (Option.some.inj ho).symm, hs⟩
  next =>
    split at ho
    next hzero => exact Or.inl (hzero.1 ▸ h o _ ho)
    next => exact Or.inl (h o s ho)

theorem addEdges {uses owns : List Nat} (h : m.Unnumbered) (hslot : slot < m.slots.size) :
    (m.addEdges slot uses owns).Unnumbered := by
  intro o s ho
  rw [node_addEdges (Forest.find_lt hslot)] at ho
  split at ho <;> exact h o s ho

/-- A node without an ordinal brings none along. -/
theorem settleAs (h : m.Unnumbered) (hm : m.WellFormed) (hr : Recognises m n r)
    (hord : n.subgraph = none) : (m.settleAs n r).1.Unnumbered := by
  refine hm.settleAs_preserves hr h (fun _ hlt _ _ ↦ h.register hlt)
    (fun hne ha hb ↦ h.unify hne ha.1 hb.1) fun _ _ ↦ (h.extend hm.slots_pos hord).register ?_
  rw [size_slots_extend]
  exact Nat.lt_succ_self _

end Unnumbered

/-- **A run over batches without ordinals shows no others than its own.** -/
theorem Runs.unnumbered {steps : List Step} (run : empty.Runs steps m)
    (hord : ∀ s ∈ steps, ∀ n ∈ s.batch.nodes, n.subgraph = none) : m.Unnumbered := by
  let P (m : Merger) (_ : List Sighting) : Prop := m.Unnumbered
  have hstart : P empty [] := unnumbered_empty
  exact run.preserves wellFormed_empty hstart
    (fun hs hn hm h ↦ h.settleAs hm (recognises _ _) (hord _ hs _ hn)) fun _ hslot h ↦
      h.addEdges hslot

end Merger
end DeclExtract
