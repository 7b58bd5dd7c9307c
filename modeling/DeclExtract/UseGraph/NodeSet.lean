/-!
# Sets of nodes

A set of ids below a bound, with one flag per id. Members are listed in ascending order. A walk that
adds an id which was not there before has one id fewer left to add (`missing_insert_lt`).
-/

namespace DeclExtract

/-- A set of ids below the number of flags. -/
structure NodeSet where
  flags : Array Bool

namespace NodeSet

/-- The empty set of ids below `bound`. -/
def empty (bound : Nat) : NodeSet :=
  ⟨Array.replicate bound false⟩

/-- Whether an id is in the set. -/
def contains (s : NodeSet) (id : Nat) : Bool :=
  s.flags[id]?.getD false

/-- Whether an id could be in the set. -/
def inBounds (s : NodeSet) (id : Nat) : Bool :=
  id < s.flags.size

/-- The set with one more id; an id beyond the bound is left out. -/
def insert (s : NodeSet) (id : Nat) : NodeSet :=
  ⟨s.flags.setIfInBounds id true⟩

/-- The set with more ids. -/
def insertAll (s : NodeSet) (ids : List Nat) : NodeSet :=
  ids.foldl insert s

/-- The ids of the set, in ascending order. -/
def toList (s : NodeSet) : List Nat :=
  (List.range s.flags.size).filter s.contains

/-- The number of ids below the bound that are not in the set. -/
def missing (s : NodeSet) : Nat :=
  s.flags.count false

/-! ### What insertion changes -/

theorem contains_insert {s : NodeSet} {id other : Nat} :
    (s.insert id).contains other = true ↔
      (other = id ∧ s.inBounds id = true) ∨ s.contains other = true := by
  unfold contains insert inBounds
  by_cases h : other = id
  · subst h
    by_cases hb : other < s.flags.size
    · simp [hb]
    · simp [hb]
  · simp [h, Ne.symm h]

theorem inBounds_insert {s : NodeSet} {id other : Nat} :
    (s.insert id).inBounds other = s.inBounds other := by
  simp [inBounds, insert]

theorem missing_insert_lt {s : NodeSet} {id : Nat} (hb : s.inBounds id = true)
    (h : s.contains id = false) : (s.insert id).missing < s.missing := by
  have hlt : id < s.flags.size := by simpa [inBounds] using hb
  have hfalse : s.flags[id] = false := by simpa [contains, hlt] using h
  have hmem : false ∈ s.flags := hfalse ▸ Array.getElem_mem hlt
  have hpos : 0 < s.flags.count false := Array.count_pos_iff.mpr hmem
  unfold missing insert
  rw [Array.setIfInBounds, dif_pos hlt, Array.count_set hlt, hfalse]
  simp
  omega

@[simp] theorem inBounds_empty {bound id : Nat} :
    (empty bound).inBounds id = decide (id < bound) := by
  simp [inBounds, empty]

@[simp] theorem contains_empty {bound id : Nat} : (empty bound).contains id = false := by
  unfold contains empty
  rw [Array.getElem?_replicate]
  split <;> rfl

theorem inBounds_insertAll {s : NodeSet} {ids : List Nat} {other : Nat} :
    (s.insertAll ids).inBounds other = s.inBounds other := by
  unfold insertAll
  induction ids generalizing s with
  | nil => rfl
  | cons id ids ih => rw [List.foldl_cons, ih, inBounds_insert]

theorem contains_insertAll {s : NodeSet} {ids : List Nat} {other : Nat} :
    (s.insertAll ids).contains other = true ↔
      (other ∈ ids ∧ s.inBounds other = true) ∨ s.contains other = true := by
  unfold insertAll
  induction ids generalizing s with
  | nil => simp
  | cons id ids ih =>
    rw [List.foldl_cons, ih, inBounds_insert, contains_insert, List.mem_cons]
    grind

theorem contains_foldl_insertAll {s : NodeSet} {ids : List Nat} {marks : Nat → List Nat}
    {other : Nat} : (ids.foldl (fun s id ↦ s.insertAll (marks id)) s).contains other = true ↔
      (s.inBounds other = true ∧ ∃ id ∈ ids, other ∈ marks id) ∨ s.contains other = true := by
  induction ids generalizing s with
  | nil => simp
  | cons id ids ih =>
    rw [List.foldl_cons, ih, inBounds_insertAll, contains_insertAll]
    grind

theorem mem_toList {s : NodeSet} {id : Nat} : id ∈ s.toList ↔ s.contains id = true := by
  unfold toList
  rw [List.mem_filter, List.mem_range]
  refine ⟨fun h ↦ h.2, fun h ↦ ⟨?_, h⟩⟩
  by_cases hb : id < s.flags.size
  · exact hb
  · simp [contains, Array.getElem?_eq_none (Nat.le_of_not_lt hb)] at h

end NodeSet

end DeclExtract
