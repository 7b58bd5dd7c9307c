import Mathlib.Data.List.Nodup
import DeclExtract.Merge.Forest

/-!
# Classes of a growing forest

A merge changes its forest in two ways: it adds a slot in a class of its own (`grow`), and it joins
the class of one representative to that of a smaller one (`absorb`). The first leaves every
representative as it is (`find_grow`), the second replaces exactly one of them (`find_absorb`). So a
forest only ever gets coarser. `Refines` says so without mentioning the steps in between: a slot and
its old representative have the same representative later on. The number of classes goes up by one
with a new slot (`classes_grow`), and down by one when two classes are joined (`classes_absorb`).

## Ranks

`Forest.rank` is the number that the graph gives to a slot: the place of its representative among
the representatives in ascending order. The table of ranks that the program computes in one pass
over the slots has this number at every slot of the forest (`getElem?_ranks`), so a default is never
needed there. Two slots have one rank when they have one representative (`rank_inj`).
-/

namespace DeclExtract

namespace Forest

variable {f g h : Forest} {keep gone slot other : Nat}

/-! ### Growing and absorbing -/

@[simp] theorem size_grow (f : Forest) : f.grow.size = f.size + 1 := by
  simp [grow, size]

@[simp] theorem size_absorb (f : Forest) (keep gone : Nat) :
    (f.absorb keep gone).size = f.size := by
  simp [absorb, size]

@[simp] theorem parent_grow (f : Forest) (slot : Nat) : f.grow.parent slot = f.parent slot := by
  unfold parent grow
  rw [Array.getElem?_push]
  split
  · rename_i heq
    simp [heq]
  · rfl

theorem parent_absorb (hgone : gone < f.size) (slot : Nat) :
    (f.absorb keep gone).parent slot = if slot = gone then keep else f.parent slot := by
  unfold parent absorb
  rw [Array.getElem?_setIfInBounds]
  by_cases hslot : gone = slot
  · subst hslot
    rw [if_pos rfl, if_pos rfl, if_pos (by exact hgone)]
    rfl
  · rw [if_neg hslot, if_neg (Ne.symm hslot)]

/-- A new slot changes no representative. -/
@[simp] theorem find_grow (f : Forest) (slot : Nat) : f.grow.find slot = f.find slot := by
  fun_induction find f slot with
  | case1 slot hlt ih => rw [find, parent_grow, if_pos hlt, ih]
  | case2 slot hge => exact find_of_not_parent_lt (by rwa [parent_grow])

/-- **Joining two classes replaces one representative.** The slots of the class of `gone` are found
at `keep`, and every other slot is found where it was. -/
theorem find_absorb (hgone : gone < f.size) (hlt : keep < gone) (hkeep : f.find keep = keep)
    (hrep : f.find gone = gone) (slot : Nat) :
    (f.absorb keep gone).find slot = if f.find slot = gone then keep else f.find slot := by
  -- `keep` is still a representative, and the walk from `gone` now goes there
  have hkeep' : (f.absorb keep gone).find keep = keep := by
    refine find_of_not_parent_lt ?_
    rw [parent_absorb hgone, if_neg (Nat.ne_of_lt hlt)]
    have := f.not_parent_find_lt keep
    rwa [hkeep] at this
  have hgone' : (f.absorb keep gone).find gone = keep := by
    rw [find, parent_absorb hgone, if_pos rfl, if_pos hlt, hkeep']
  fun_induction find f slot with
  | case1 slot hstep ih =>
    by_cases hslot : slot = gone
    · have hstuck := f.not_parent_find_lt gone
      rw [hrep, ← hslot] at hstuck
      exact absurd hstep hstuck
    · rw [find, parent_absorb hgone, if_neg hslot, if_pos hstep, ih]
  | case2 slot hstuck =>
    by_cases hslot : slot = gone
    · rw [if_pos hslot, hslot, hgone']
    · rw [if_neg hslot]
      refine find_of_not_parent_lt ?_
      rwa [parent_absorb hgone, if_neg hslot]

/-- A slot that is not there yet is found where it is. -/
theorem find_of_size_le (hslot : f.size ≤ slot) : f.find slot = slot := by
  refine find_of_not_parent_lt ?_
  unfold parent
  rw [Array.getElem?_eq_none hslot]
  exact Nat.lt_irrefl slot

theorem find_lt {bound : Nat} (hslot : slot < bound) : f.find slot < bound :=
  Nat.lt_of_le_of_lt (f.find_le slot) hslot

@[simp] theorem find_zero (f : Forest) : f.find 0 = 0 :=
  Nat.le_zero.mp (f.find_le 0)

/-! ### Coarser forests -/

/-- Every class of `f` lies within a class of `g`: a slot is found where its old representative
is. -/
def Refines (f g : Forest) : Prop :=
  ∀ slot, g.find (f.find slot) = g.find slot

theorem Refines.refl (f : Forest) : f.Refines f :=
  f.find_find

theorem Refines.trans (hfg : f.Refines g) (hgh : g.Refines h) : f.Refines h := fun slot ↦
  calc h.find (f.find slot)
      = h.find (g.find (f.find slot)) := (hgh _).symm
    _ = h.find (g.find slot) := by rw [hfg slot]
    _ = h.find slot := hgh slot

theorem refines_grow (f : Forest) : f.Refines f.grow := fun slot ↦ by
  rw [find_grow, find_grow, find_find]

/-- What was in one class stays in one class. -/
theorem Refines.find_eq (hfg : f.Refines g) (heq : f.find slot = f.find other) :
    g.find slot = g.find other := by
  rw [← hfg slot, heq, hfg other]

/-! ### Ranks -/

/-- The place of a slot's representative among the representatives in ascending order. -/
def rank (f : Forest) (slot : Nat) : Nat :=
  f.representatives.idxOf (f.find slot)

@[simp] theorem rank_find (f : Forest) (slot : Nat) : f.rank (f.find slot) = f.rank slot := by
  rw [rank, rank, find_find]

/-- A coarser forest gives a slot the number that it gives to the old representative. -/
theorem Refines.rank_find (hfg : f.Refines g) (slot : Nat) :
    g.rank (f.find slot) = g.rank slot := by
  rw [rank, rank, hfg slot]

theorem nodup_representatives (f : Forest) : f.representatives.Nodup :=
  List.nodup_range.filter _

theorem pairwise_representatives (f : Forest) : f.representatives.Pairwise (· < ·) :=
  List.pairwise_lt_range.filter _

/-- Smaller representatives stand before larger ones. -/
theorem lt_of_getElem?_representatives {i j : Nat} (hi : f.representatives[i]? = some slot)
    (hj : f.representatives[j]? = some other) (hlt : slot < other) : i < j := by
  obtain ⟨hilt, rfl⟩ := List.getElem?_eq_some_iff.mp hi
  obtain ⟨hjlt, rfl⟩ := List.getElem?_eq_some_iff.mp hj
  by_contra hge
  obtain rfl | hlater := Nat.eq_or_lt_of_le (Nat.le_of_not_lt hge)
  · exact Nat.lt_irrefl _ hlt
  · have hreverse := List.pairwise_iff_getElem.mp f.pairwise_representatives j i hjlt hilt hlater
    omega

theorem rank_lt_classes (hslot : slot < f.size) : f.rank slot < f.classes :=
  List.idxOf_lt_length_of_mem (find_mem_representatives hslot)

/-- The representative of a slot stands at the slot's rank. -/
theorem getElem?_representatives_rank (hslot : slot < f.size) :
    f.representatives[f.rank slot]? = some (f.find slot) :=
  List.getElem?_idxOf (find_mem_representatives hslot)

/-- **Slots have one rank when they are in one class.** -/
theorem rank_inj (hslot : slot < f.size) :
    f.rank slot = f.rank other ↔ f.find slot = f.find other :=
  List.idxOf_inj (find_mem_representatives hslot)

/-- The slot that represents the class of rank `id`. -/
theorem rank_of_getElem?_representatives {id : Nat} (h : f.representatives[id]? = some slot) :
    f.rank slot = id := by
  obtain ⟨hid, rfl⟩ := List.getElem?_eq_some_iff.mp h
  rw [rank, (mem_representatives.mp (List.getElem_mem hid)).2]
  exact f.nodup_representatives.idxOf_getElem id hid

theorem rank_zero (hsize : 0 < f.size) : f.rank 0 = 0 := by
  obtain ⟨n, hn⟩ := Nat.exists_eq_add_of_lt hsize
  have hhead : f.representatives[0]? = some 0 := by
    rw [representatives, hn, Nat.zero_add, List.range_succ_eq_map, List.filter_cons,
      if_pos (by simp [isRepresentative])]
    rfl
  exact rank_of_getElem?_representatives hhead

/-! ### The number of classes -/

theorem representatives_grow (f : Forest) :
    f.grow.representatives = f.representatives ++ [f.size] := by
  have hsame : f.grow.isRepresentative = f.isRepresentative := by
    funext slot
    rw [isRepresentative, find_grow, isRepresentative]
  have hnew : f.isRepresentative f.size = true := beq_iff_eq.mpr (find_of_size_le (Nat.le_refl _))
  rw [representatives, hsame, size_grow, List.range_succ, List.filter_append,
    List.filter_singleton, hnew, representatives]
  rfl

/-- A new slot is a class of its own. -/
@[simp] theorem classes_grow (f : Forest) : f.grow.classes = f.classes + 1 := by
  rw [classes, representatives_grow, List.length_append, List.length_singleton, classes]

theorem representatives_absorb (hgone : gone < f.size) (hlt : keep < gone)
    (hkeep : f.find keep = keep) (hrep : f.find gone = gone) :
    (f.absorb keep gone).representatives = f.representatives.erase gone := by
  rw [f.nodup_representatives.erase_eq_filter, representatives, representatives, List.filter_filter,
    size_absorb]
  refine List.filter_congr fun slot _ ↦ ?_
  rw [Bool.eq_iff_iff, isRepresentative, isRepresentative, find_absorb hgone hlt hkeep hrep]
  simp only [beq_iff_eq, Bool.and_eq_true, bne_iff_ne]
  split
  next hslot =>
    constructor
    · rintro rfl
      omega
    · rintro ⟨hne, hself⟩
      exact absurd (hself.symm.trans hslot) hne
  next hslot =>
    refine ⟨fun hself ↦ ⟨?_, hself⟩, And.right⟩
    rintro rfl
    exact hslot hrep

/-- **Joining two classes leaves one class less.** -/
theorem classes_absorb (hgone : gone < f.size) (hlt : keep < gone) (hkeep : f.find keep = keep)
    (hrep : f.find gone = gone) : (f.absorb keep gone).classes + 1 = f.classes := by
  have hmem : gone ∈ f.representatives := mem_representatives.mpr ⟨hgone, hrep⟩
  rw [classes, representatives_absorb hgone hlt hkeep hrep, List.length_erase_add_one hmem, classes]

/-! ### The table of ranks -/

/-- The pass over the first slots: it has counted the representatives below each of them. -/
theorem foldl_countsBelow (f : Forest) (n : Nat) :
    (List.range n).foldl
        (fun (counts, count) slot ↦
          (counts.push count, if f.isRepresentative slot then count + 1 else count))
        ((#[] : Array Nat), 0) =
      (((List.range n).map fun slot ↦ ((List.range slot).filter f.isRepresentative).length).toArray,
        ((List.range n).filter f.isRepresentative).length) := by
  induction n with
  | zero => rfl
  | succ n ih =>
    rw [List.range_succ, List.foldl_append, ih]
    by_cases hrep : f.isRepresentative n = true
    · simp [hrep, List.filter_append]
    · simp [hrep, List.filter_append]

theorem getElem?_countsBelow (hslot : slot < f.size) :
    f.countsBelow[slot]? = some ((List.range slot).filter f.isRepresentative).length := by
  rw [countsBelow, foldl_countsBelow]
  simp [hslot]

/-- A representative has as many representatives below it as stand before it. -/
theorem idxOf_representatives (hslot : slot < f.size) (hrep : f.isRepresentative slot = true) :
    f.representatives.idxOf slot = ((List.range slot).filter f.isRepresentative).length := by
  have hsplit : List.range f.size
      = List.range slot ++ slot :: (List.range (f.size - (slot + 1))).map (slot + 1 + ·) := by
    have hsum : f.size = slot + 1 + (f.size - (slot + 1)) := by omega
    conv_lhs => rw [hsum, List.range_add, List.range_succ, List.append_assoc]
    rfl
  rw [representatives, hsplit, List.filter_append, List.filter_cons, if_pos hrep,
    List.idxOf_append_of_notMem (by simp), List.idxOf_cons_self, Nat.add_zero]

/-- **The table is right at every slot of the forest.** -/
theorem getElem?_ranks (hslot : slot < f.size) : f.ranks[slot]? = some (f.rank slot) := by
  have hfind : f.find slot < f.size := find_lt hslot
  have hrep : f.isRepresentative (f.find slot) = true := by simp [isRepresentative]
  rw [rank, idxOf_representatives hfind hrep]
  simp [ranks, hslot, getElem?_countsBelow hfind]

end Forest

end DeclExtract
