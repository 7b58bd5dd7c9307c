import Mathlib.Data.List.Sort
import Mathlib.Data.Set.Card
import Mathlib.Data.Set.Function
import DeclExtract.Proofs.Merge.Edges
import DeclExtract.Proofs.Selection.Closure

/-!
# Corresponding graphs

Two graphs correspond when their ids can be paired so that paired nodes agree on what is declared,
identities are looked up to paired ids, and edges lead between paired ids, however often and in
whatever order (`UseGraph.Corresponds`). The edges of the root of the graph are left out: the root
is never copied, so nothing depends on them.

Corresponding graphs have corresponding selections (`Corresponds.mem_seen_iff`,
`Corresponds.mem_external_iff`). The argument is one-sided: what the second selection copies is
closed, read through the pairing, in the first graph. The other side follows because correspondence
is symmetric.

Since an id is paired with one id only, a pairing is a renumbering (`Corresponds.exists_renumbers`).
If every id is paired with itself the same ids are copied, and where the nodes are the same the rest
of the selections follows from that (`SameNodes.select_eq_of_seen`). So graphs that differ only in
how often their edges are listed have the same selections (`Resembles.select_eq`).
-/

namespace DeclExtract

namespace UseGraph

variable {g g' : UseGraph} {t : Targets} {id other : Nat}

/-! ### The root of a graph -/

/-- **The root of a graph is never copied**: nothing is looked up to it, so no named type lists
it. -/
theorem WellFormed.zero_notMem_seen (h : g.WellFormed) (hroot : g.Rooted) (t : Targets) :
    0 ∉ (g.select t).seen := by
  have hzero : 0 ∈ ({0} : Set Nat) := rfl
  refine h.notMem_seen_of_not_lists (fun id hid n hn ↦ ?_)
    (fun _ _ _ other hother hlists ↦ ?_) hzero
  · by_contra hkind
    exact hroot.ne_zero hn hkind hid
  · obtain ⟨n, type, -, -, i, -, hlookup⟩ := hlists
    exact hroot.lookup_ne i (hother ▸ hlookup)

/-- What is copied is a node of the graph. -/
theorem lt_size_of_mem_seen (hid : id ∈ (g.select t).seen) : id < g.size := by
  have hvisited : id ∈ (Walk.ofTargets g t).visited.toList := hid
  rw [NodeSet.toList, List.mem_filter, List.mem_range] at hvisited
  have hbounds : (Walk.ofTargets g t).visited.inBounds id = true := decide_eq_true hvisited.1
  rw [Walk.ofTargets, Walk.inBounds_run, Walk.start, NodeSet.inBounds_empty] at hbounds
  exact of_decide_eq_true hbounds

/-- What is referred to is a node of the graph. -/
theorem lt_size_of_mem_external (hid : id ∈ (g.select t).external) : id < g.size := by
  obtain ⟨u, hu, -⟩ := isBoundary_iff.mp (mem_external.mp hid).2.2
  exact lt_size_of_node? hu

/-! ### Correspondence -/

/-- **Two graphs correspond** under a pairing of their ids. -/
structure Corresponds (r : Nat → Nat → Prop) (g g' : UseGraph) : Prop where
  /-- Paired ids are those of nodes which agree. -/
  agrees : ∀ {id id'}, r id id' →
    ∃ n n', g.node? id = some n ∧ g'.node? id' = some n' ∧ n.Agrees n'
  /-- Every id of the first graph is paired with one of the second. -/
  exists_right : ∀ {id}, id < g.size → ∃ id', r id id'
  /-- Every id of the second graph is paired with one of the first. -/
  exists_left : ∀ {id'}, id' < g'.size → ∃ id, r id id'
  /-- An id is paired with one id only. -/
  eq_iff : ∀ {a a' b b'}, r a a' → r b b' → (a = b ↔ a' = b')
  /-- The roots are paired. -/
  root : r 0 0
  /-- What belongs to one of two paired ids belongs to the other. -/
  lookup_iff : ∀ {id id'}, r id id' → ∀ i, g.lookup i = some id ↔ g'.lookup i = some id'
  /-- Edges of one kind lead between paired ids, those of the root apart. -/
  along_iff : ∀ {id id' other other' n n'}, r id id' → r other other' → id ≠ 0 →
    g.node? id = some n → g'.node? id' = some n' →
      ∀ kind, other ∈ n.along kind ↔ other' ∈ n'.along kind

namespace Corresponds

variable {r : Nat → Nat → Prop} {id' other' : Nat}

theorem ne_zero_iff (h : Corresponds r g g') (hr : r id id') : id ≠ 0 ↔ id' ≠ 0 :=
  not_congr (h.eq_iff hr h.root)

theorem symm (h : Corresponds r g g') : Corresponds (fun id' id ↦ r id id') g' g where
  agrees hr := by
    obtain ⟨n, n', hn, hn', hagrees⟩ := h.agrees hr
    exact ⟨n', n, hn', hn, hagrees.symm⟩
  exists_right := h.exists_left
  exists_left := h.exists_right
  eq_iff ha hb := (h.eq_iff ha hb).symm
  root := h.root
  lookup_iff hr i := (h.lookup_iff hr i).symm
  along_iff hr hother hid hn hn' kind :=
    (h.along_iff hr hother ((h.ne_zero_iff hr).mpr hid) hn' hn kind).symm

/-- Paired ids are those of nodes which agree: one of them is given. -/
theorem agrees_of_node? (h : Corresponds r g g') (hr : r id id') {n : Node}
    (hn : g.node? id = some n) : ∃ n', g'.node? id' = some n' ∧ n.Agrees n' := by
  obtain ⟨k, n', hk, hn', hagrees⟩ := h.agrees hr
  rw [hk, Option.some_inj] at hn
  exact ⟨n', hn', hn ▸ hagrees⟩

/-- The methods of paired nodes are paired. -/
theorem mem_methods_of_mem (h : Corresponds r g g') (hr : r id id') (hother : r other other')
    (hid : id ≠ 0) (hm : other ∈ g.methods id) : other' ∈ g'.methods id' := by
  obtain ⟨n, hn, hcases⟩ := mem_methods.mp hm
  obtain ⟨n', hn', hagrees⟩ := h.agrees_of_node? hr hn
  refine mem_methods.mpr ⟨n', hn', ?_⟩
  rcases hcases with ⟨type, htype, i, hi, hlookup⟩ | ⟨hkind, howns, k, hk, hmethod⟩
  · exact Or.inl ⟨type, hagrees.namedType ▸ htype, i, hi, (h.lookup_iff hother i).mp hlookup⟩
  · obtain ⟨k', hk', hagreesk⟩ := h.agrees_of_node? hother hk
    have howns' : other' ∈ n'.owns := (h.along_iff hr hother hid hn hn' .owns).mp howns
    exact Or.inr ⟨hagrees.kind ▸ hkind, howns', k', hk', hagreesk.kind ▸ hmethod⟩

/-- **What is copied in one graph is copied in the other.** -/
theorem mem_seen_of_mem (h : Corresponds r g g') (hg : g.WellFormed) (hg' : g'.WellFormed)
    (hroot : g'.Rooted) (hr : r id id') (hid : id ∈ (g.select t).seen) :
    id' ∈ (g'.select t).seen := by
  have hseen := (hg'.isLeast_seen t).1
  have hzero := hg'.zero_notMem_seen hroot t
  -- whatever is paired with something that the other selection copies
  have hclosed : g.Closed t {id | ∀ id', r id id' → id' ∈ (g'.select t).seen} := by
    have hcopied {id : Nat} {n : Node} (hid : ∀ id', r id id' → id' ∈ (g'.select t).seen)
        (hn : g.node? id = some n) : ∃ id', r id id' ∧ id' ∈ (g'.select t).seen ∧ id ≠ 0 := by
      obtain ⟨id', hr⟩ := h.exists_right (lt_size_of_node? hn)
      refine ⟨id', hr, hid id' hr, fun heq ↦ hzero ?_⟩
      rw [← (h.eq_iff hr h.root).mp heq]
      exact hid id' hr
    refine ⟨fun hn hkind hname id' hr ↦ ?_, fun {id other} hid hmethod other' hother ↦ ?_,
      fun {id n other u} hid hn hmem hu hkind hside other' hother ↦ ?_⟩
    · obtain ⟨n', hn', hagrees⟩ := h.agrees_of_node? hr hn
      exact hseen.target hn' (hagrees.kind ▸ hkind) (hagrees.name ▸ hname)
    · obtain ⟨n, hn, -⟩ := mem_methods.mp hmethod
      obtain ⟨id', hr, hid', hne⟩ := hcopied hid hn
      exact hseen.method hid' (h.mem_methods_of_mem hr hother hne hmethod)
    · obtain ⟨id', hr, hid', hne⟩ := hcopied hid hn
      obtain ⟨n', hn', -⟩ := h.agrees_of_node? hr hn
      obtain ⟨u', hu', hagrees⟩ := h.agrees_of_node? hother hu
      have hmem' : other' ∈ n'.uses := (h.along_iff hr hother hne hn hn' .uses).mp hmem
      exact hseen.use hid' hn' hmem' hu' (hagrees.kind ▸ hkind)
        (hagrees.exported ▸ hagrees.name ▸ hside)
  exact (hg.isLeast_seen t).2 hclosed hid id' hr

section

variable (h : Corresponds r g g') (hg : g.WellFormed) (hg' : g'.WellFormed) (hroot : g.Rooted)
  (hroot' : g'.Rooted)

include h hg hg' hroot hroot'

/-- **Corresponding graphs have corresponding selections.** -/
theorem mem_seen_iff (hr : r id id') : id ∈ (g.select t).seen ↔ id' ∈ (g'.select t).seen :=
  ⟨h.mem_seen_of_mem hg hg' hroot' hr, h.symm.mem_seen_of_mem hg' hg hroot hr⟩

theorem mem_external_of_mem (hr : r id id') (hid : id ∈ (g.select t).external) :
    id' ∈ (g'.select t).external := by
  obtain ⟨hnot, ⟨k, hk, huse⟩, hboundary⟩ := mem_external.mp hid
  obtain ⟨u, hu, hkind, hexported, hname⟩ := isBoundary_iff.mp hboundary
  obtain ⟨u', hu', hagreesu⟩ := h.agrees_of_node? hr hu
  obtain ⟨n, hn, hmem⟩ := mem_usesOf.mp huse
  obtain ⟨k', hrk⟩ := h.exists_right (lt_size_of_node? hn)
  obtain ⟨n', hn', -⟩ := h.agrees_of_node? hrk hn
  have hne : k ≠ 0 := fun heq ↦ hg.zero_notMem_seen hroot t (heq ▸ hk)
  have hmem' : id' ∈ n'.uses := (h.along_iff hrk hr hne hn hn' .uses).mp hmem
  refine mem_external.mpr ⟨fun hseen ↦ hnot ?_, ⟨k', ?_, mem_usesOf.mpr ⟨n', hn', hmem'⟩⟩, ?_⟩
  · exact (h.mem_seen_iff hg hg' hroot hroot' hr).mpr hseen
  · exact (h.mem_seen_iff hg hg' hroot hroot' hrk).mp hk
  · exact isBoundary_iff.mpr ⟨u', hu', hagreesu.kind ▸ hkind, hagreesu.exported ▸ hexported,
      hagreesu.name ▸ hname⟩

/-- **Corresponding selections refer to corresponding declarations.** -/
theorem mem_external_iff (hr : r id id') :
    id ∈ (g.select t).external ↔ id' ∈ (g'.select t).external :=
  ⟨h.mem_external_of_mem hg hg' hroot hroot' hr, h.symm.mem_external_of_mem hg' hg hroot' hroot hr⟩

end

end Corresponds

/-! ### Renumbering -/

/-- **One graph is the other with new ids**: the root keeps its id, identities belong to the
renumbered nodes, renumbered nodes agree, and the selections are the renumbered ones. -/
structure Renumbers (number : Nat → Nat) (g g' : UseGraph) : Prop where
  bijOn : Set.BijOn number {id | id < g.size} {id | id < g'.size}
  root : number 0 = 0
  lookup : ∀ i, g'.lookup i = (g.lookup i).map number
  agrees : ∀ {id n}, g.node? id = some n → ∃ n', g'.node? (number id) = some n' ∧ n.Agrees n'
  seen : ∀ t, number '' {id | id ∈ (g.select t).seen} = {id | id ∈ (g'.select t).seen}
  external : ∀ t, number '' {id | id ∈ (g.select t).external} = {id | id ∈ (g'.select t).external}

/-- Renumbered graphs have as many nodes. -/
theorem Renumbers.size_eq {number : Nat → Nat} (h : Renumbers number g g') : g.size = g'.size := by
  have hcard (size : Nat) : {id | id < size}.ncard = size := by
    rw [Set.Iio_def, ← Finset.coe_range, Set.ncard_coe_finset, Finset.card_range]
  rw [← hcard g.size, ← h.bijOn.injOn.ncard_image, h.bijOn.image_eq, hcard]

/-- **Corresponding graphs are renumberings of each other.** -/
theorem Corresponds.exists_renumbers {r : Nat → Nat → Prop} (h : Corresponds r g g')
    (hg : g.WellFormed) (hg' : g'.WellFormed) (hroot : g.Rooted) (hroot' : g'.Rooted) :
    ∃ number, Renumbers number g g' := by
  have hchoice (id : Nat) : ∃ id', id < g.size → r id id' := by
    by_cases hid : id < g.size
    · obtain ⟨id', hr⟩ := h.exists_right hid
      exact ⟨id', fun _ ↦ hr⟩
    · exact ⟨0, fun hlt ↦ absurd hlt hid⟩
  choose number hnumber using hchoice
  have heq {id id' : Nat} (hr : r id id') : id < g.size ∧ number id = id' := by
    obtain ⟨n, -, hn, -, -⟩ := h.agrees hr
    have hlt := lt_size_of_node? hn
    exact ⟨hlt, (h.eq_iff (hnumber id hlt) hr).mp rfl⟩
  -- sets of ids that are the same up to the pairing are images of each other
  have himage {s s' : Set Nat} (hs : ∀ id ∈ s, id < g.size) (hs' : ∀ id' ∈ s', id' < g'.size)
      (hiff : ∀ {id id'}, r id id' → (id ∈ s ↔ id' ∈ s')) : number '' s = s' := by
    ext id'
    constructor
    · rintro ⟨id, hid, rfl⟩
      exact (hiff (hnumber id (hs id hid))).mp hid
    · intro hid'
      obtain ⟨id, hr⟩ := h.exists_left (hs' id' hid')
      exact ⟨id, (hiff hr).mpr hid', (heq hr).2⟩
  refine ⟨number, ⟨?_, ?_, ?_⟩, (heq h.root).2, fun i ↦ ?_, fun {id n} hn ↦ ?_, fun t ↦ ?_,
    fun t ↦ ?_⟩
  · intro id hid
    obtain ⟨-, n', -, hn', -⟩ := h.agrees (hnumber id hid)
    exact lt_size_of_node? hn'
  · intro id hid other hother hsame
    exact (h.eq_iff (hnumber id hid) (hnumber other hother)).mpr hsame
  · intro id' hid'
    obtain ⟨id, hr⟩ := h.exists_left hid'
    exact ⟨id, heq hr⟩
  · cases hi : g.lookup i with
    | some id => exact (h.lookup_iff (hnumber id (hg.lookup_lt hi)) i).mp hi
    | none =>
      by_contra hsome
      obtain ⟨id', hi'⟩ := Option.ne_none_iff_exists'.mp hsome
      obtain ⟨id, hr⟩ := h.exists_left (hg'.lookup_lt hi')
      rw [(h.lookup_iff hr i).mpr hi'] at hi
      cases hi
  · exact h.agrees_of_node? (hnumber id (lt_size_of_node? hn)) hn
  · exact himage (fun _ ↦ lt_size_of_mem_seen) (fun _ ↦ lt_size_of_mem_seen)
      (h.mem_seen_iff hg hg' hroot hroot')
  · exact himage (fun _ ↦ lt_size_of_mem_external) (fun _ ↦ lt_size_of_mem_external)
      (h.mem_external_iff hg hg' hroot hroot')

/-! ### Edges that are listed more than once -/

theorem pairwise_toList (s : NodeSet) : s.toList.Pairwise (· < ·) :=
  List.pairwise_lt_range.filter _

/-- What is copied is listed in ascending order. -/
theorem pairwise_seen (g : UseGraph) (t : Targets) : (g.select t).seen.Pairwise (· < ·) :=
  pairwise_toList _

/-- What is referred to is listed in ascending order. -/
theorem pairwise_external (g : UseGraph) (t : Targets) : (g.select t).external.Pairwise (· < ·) :=
  (pairwise_toList _).filter _

/-- A target is resolved when a declaration has its name. -/
theorem WellFormed.resolves_iff (h : g.WellFormed) {name : String} :
    g.resolves name = true ↔ ∃ id n, g.node? id = some n ∧ n.kind ≠ .root ∧ n.name = name := by
  rw [resolves, Bool.not_eq_true', List.isEmpty_eq_false_iff_exists_mem]
  exact exists_congr fun id ↦ h.mem_named_iff

/-- **Nodes with one id say the same and have the same edges**, however often and in whatever order
these are listed. What identities are looked up to may differ. -/
structure SameNodes (g g' : UseGraph) : Prop where
  size_eq : g.size = g'.size
  node : ∀ {id n}, g.node? id = some n → ∃ n', g'.node? id = some n' ∧ n.Agrees n'
    ∧ n.position = n'.position ∧ ∀ kind t, t ∈ n.along kind ↔ t ∈ n'.along kind

namespace SameNodes

theorem symm (h : g.SameNodes g') : g'.SameNodes g where
  size_eq := h.size_eq.symm
  node {id n'} hn' := by
    obtain ⟨n, hn⟩ := exists_node? (h.size_eq ▸ lt_size_of_node? hn')
    obtain ⟨k, hk, hagrees, hposition, halong⟩ := h.node hn
    obtain rfl := Option.some.inj (hn'.symm.trans hk)
    exact ⟨n, hn, hagrees.symm, hposition.symm, fun kind t ↦ (halong kind t).symm⟩

theorem mem_usesOf_of_mem (h : g.SameNodes g') (hmem : id ∈ g.usesOf other) :
    id ∈ g'.usesOf other := by
  obtain ⟨n, hn, huse⟩ := mem_usesOf.mp hmem
  obtain ⟨n', hn', -, -, halong⟩ := h.node hn
  exact mem_usesOf.mpr ⟨n', hn', (halong .uses id).mp huse⟩

theorem isBoundary_of_isBoundary (h : g.SameNodes g') (hside : g.isBoundary t id = true) :
    g'.isBoundary t id = true := by
  obtain ⟨u, hu, hkind, hexported, hname⟩ := isBoundary_iff.mp hside
  obtain ⟨u', hu', hagrees, -⟩ := h.node hu
  exact isBoundary_iff.mpr
    ⟨u', hu', hagrees.kind ▸ hkind, hagrees.exported ▸ hexported, hagrees.name ▸ hname⟩

theorem resolves_of_resolves (h : g.SameNodes g') (hg : g.WellFormed) (hg' : g'.WellFormed)
    {name : String} (hresolves : g.resolves name = true) : g'.resolves name = true := by
  obtain ⟨id, n, hn, hkind, hname⟩ := hg.resolves_iff.mp hresolves
  obtain ⟨n', hn', hagrees, -⟩ := h.node hn
  exact hg'.resolves_iff.mpr ⟨id, n', hn', hagrees.kind ▸ hkind, hagrees.name ▸ hname⟩

theorem resolves_eq (h : g.SameNodes g') (hg : g.WellFormed) (hg' : g'.WellFormed) :
    g.resolves = g'.resolves := by
  funext name
  exact Bool.eq_iff_iff.mpr ⟨h.resolves_of_resolves hg hg', h.symm.resolves_of_resolves hg' hg⟩

theorem external_eq (h : g.SameNodes g') (hseen : (g.select t).seen = (g'.select t).seen) :
    (g.select t).external = (g'.select t).external := by
  have huses (k id : Nat) : id ∈ g.usesOf k ↔ id ∈ g'.usesOf k :=
    ⟨h.mem_usesOf_of_mem, h.symm.mem_usesOf_of_mem⟩
  have hboundary (id : Nat) : g.isBoundary t id = true ↔ g'.isBoundary t id = true :=
    ⟨h.isBoundary_of_isBoundary, h.symm.isBoundary_of_isBoundary⟩
  refine (g.pairwise_external t).eq_of_mem_iff (g'.pairwise_external t) fun id ↦ ?_
  rw [mem_external, mem_external, hseen, hboundary]
  simp only [huses]

theorem wanted_eq (h : g.SameNodes g') (hseen : (g.select t).seen = (g'.select t).seen) :
    (g.select t).wanted = (g'.select t).wanted := by
  show ((g.select t).seen.filterMap g.node?).map Node.position
    = ((g'.select t).seen.filterMap g'.node?).map Node.position
  rw [← hseen, List.map_filterMap, List.map_filterMap]
  refine List.filterMap_congr fun id hid ↦ ?_
  obtain ⟨n, hn⟩ := exists_node? (lt_size_of_mem_seen hid)
  obtain ⟨n', hn', -, hposition, -⟩ := h.node hn
  rw [hn, hn', Option.map_some, Option.map_some, hposition]

/-- **The rest of a selection follows from what it copies.** -/
theorem select_eq_of_seen (h : g.SameNodes g') (hg : g.WellFormed) (hg' : g'.WellFormed)
    (hseen : (g.select t).seen = (g'.select t).seen) : g.select t = g'.select t := by
  have hresolved : (g.select t).resolved = (g'.select t).resolved := by
    show t.names.filter g.resolves = t.names.filter g'.resolves
    rw [h.resolves_eq hg hg']
  have hunresolved : (g.select t).unresolved = (g'.select t).unresolved := by
    show (t.names.filter fun name ↦ !g.resolves name) = t.names.filter fun name ↦ !g'.resolves name
    rw [h.resolves_eq hg hg']
  calc g.select t
      = ⟨(g.select t).seen, (g.select t).external, (g.select t).resolved, (g.select t).unresolved,
          (g.select t).wanted⟩ := rfl
    _ = g'.select t := by
        rw [hseen, h.external_eq hseen, hresolved, hunresolved, h.wanted_eq hseen]

end SameNodes

/-- **Two graphs differ at most in the lists of edges**: in how often an edge is listed, and in the
order. -/
structure Resembles (g g' : UseGraph) : Prop where
  size_eq : g.size = g'.size
  lookup_eq : ∀ i, g.lookup i = g'.lookup i
  node : ∀ {id n}, g.node? id = some n → ∃ n', g'.node? id = some n' ∧ n.Agrees n'
    ∧ n.position = n'.position ∧ ∀ kind t, t ∈ n.along kind ↔ t ∈ n'.along kind

namespace Resembles

theorem sameNodes (h : g.Resembles g') : g.SameNodes g' :=
  ⟨h.size_eq, h.node⟩

theorem rooted (h : g.Resembles g') (hroot : g.Rooted) : g'.Rooted where
  exists_root := by
    obtain ⟨n, hn, hkind⟩ := hroot.exists_root
    obtain ⟨n', hn', hagrees, -⟩ := h.node hn
    exact ⟨n', hn', hagrees.kind ▸ hkind⟩
  lookup_ne i := h.lookup_eq i ▸ hroot.lookup_ne i

/-- Each id corresponds to itself. -/
theorem corresponds (h : g.Resembles g') (hroot : g.Rooted) :
    Corresponds (fun id id' ↦ id = id' ∧ id < g.size) g g' where
  agrees := by
    rintro id _ ⟨rfl, hid⟩
    obtain ⟨n, hn⟩ := exists_node? hid
    obtain ⟨n', hn', hagrees, -⟩ := h.node hn
    exact ⟨n, n', hn, hn', hagrees⟩
  exists_right {id} hid := ⟨id, rfl, hid⟩
  exists_left {id} hid := ⟨id, rfl, h.size_eq ▸ hid⟩
  eq_iff := by
    rintro a _ b _ ⟨rfl, -⟩ ⟨rfl, -⟩
    rfl
  root := by
    obtain ⟨n, hn, -⟩ := hroot.exists_root
    exact ⟨rfl, lt_size_of_node? hn⟩
  lookup_iff := by
    rintro id _ ⟨rfl, -⟩ i
    rw [h.lookup_eq]
  along_iff := by
    rintro id _ other _ n k ⟨rfl, -⟩ ⟨rfl, -⟩ - hn hk kind
    obtain ⟨n', hn', -, -, halong⟩ := h.node hn
    rw [hk, Option.some_inj] at hn'
    rw [halong, hn']

/-- **Graphs that resemble each other have the same selections.** -/
theorem select_eq (h : g.Resembles g') (hg : g.WellFormed) (hg' : g'.WellFormed) (hroot : g.Rooted)
    (t : Targets) : g.select t = g'.select t := by
  have hcorr := h.corresponds hroot
  have hself {id : Nat} (hid : id < g.size) : id = id ∧ id < g.size := ⟨rfl, hid⟩
  refine h.sameNodes.select_eq_of_seen hg hg' ?_
  refine (g.pairwise_seen t).eq_of_mem_iff (g'.pairwise_seen t) fun id ↦
    ⟨fun hid ↦ ?_, fun hid ↦ ?_⟩
  · exact (hcorr.mem_seen_iff hg hg' hroot (h.rooted hroot)
      (hself (lt_size_of_mem_seen hid))).mp hid
  · have hlt : id < g.size := h.size_eq ▸ lt_size_of_mem_seen hid
    exact (hcorr.mem_seen_iff hg hg' hroot (h.rooted hroot) (hself hlt)).mpr hid

end Resembles

end UseGraph

end DeclExtract
