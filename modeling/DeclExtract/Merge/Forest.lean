/-!
# Classes of slots

The slots of a merge fall into classes: two slots that turn out to stand for one declaration are put
into one class. The classes are kept as a forest in which no parent exceeds its child, so a walk
towards the root visits smaller and smaller slots and stops at the smallest slot of the class, its
representative (`find_le`, `find_find`). Numbering the representatives in ascending order gives
every slot a rank, and the ranks of `n` classes are the numbers below `n`.
-/

namespace DeclExtract

/-- A partition of the slots below `parents.size`, as a forest of parents. -/
structure Forest where
  /-- The parent of each slot; a representative is its own parent. -/
  parents : Array Nat
  deriving Repr

namespace Forest

/-- The forest without slots. -/
def empty : Forest := ⟨#[]⟩

/-- The number of slots. -/
def size (f : Forest) : Nat :=
  f.parents.size

/-- The parent of a slot; a slot outside the forest is its own. -/
def parent (f : Forest) (slot : Nat) : Nat :=
  f.parents[slot]?.getD slot

/-- The representative of a slot: where the walk towards smaller parents ends. -/
def find (f : Forest) (slot : Nat) : Nat :=
  if f.parent slot < slot then f.find (f.parent slot) else slot
termination_by slot

/-- The forest with one more slot, in a class of its own. -/
def grow (f : Forest) : Forest :=
  ⟨f.parents.push f.parents.size⟩

/-- The forest with the class of the representative `gone` added to that of `keep`. -/
def absorb (f : Forest) (keep gone : Nat) : Forest :=
  ⟨f.parents.setIfInBounds gone keep⟩

/-- Whether a slot represents its class. -/
def isRepresentative (f : Forest) (slot : Nat) : Bool :=
  f.find slot == slot

/-- The representatives of all classes, in ascending order. -/
def representatives (f : Forest) : List Nat :=
  (List.range f.size).filter f.isRepresentative

/-- The number of classes. -/
def classes (f : Forest) : Nat :=
  f.representatives.length

/-! ### Walking to the representative -/

theorem find_le (f : Forest) (slot : Nat) : f.find slot ≤ slot := by
  fun_induction find f slot with
  | case1 slot h ih => omega
  | case2 slot h => exact Nat.le_refl _

theorem not_parent_find_lt (f : Forest) (slot : Nat) :
    ¬ f.parent (f.find slot) < f.find slot := by
  fun_induction find f slot with
  | case1 slot h ih => exact ih
  | case2 slot h => exact h

theorem find_of_not_parent_lt {f : Forest} {slot : Nat} (h : ¬ f.parent slot < slot) :
    f.find slot = slot := by
  rw [find, if_neg h]

@[simp] theorem find_find (f : Forest) (slot : Nat) : f.find (f.find slot) = f.find slot :=
  find_of_not_parent_lt (f.not_parent_find_lt slot)

theorem mem_representatives {f : Forest} {slot : Nat} :
    slot ∈ f.representatives ↔ slot < f.size ∧ f.find slot = slot := by
  simp [representatives, isRepresentative]

/-- The representative of a slot of the forest is one of the representatives. -/
theorem find_mem_representatives {f : Forest} {slot : Nat} (h : slot < f.size) :
    f.find slot ∈ f.representatives :=
  mem_representatives.mpr ⟨Nat.lt_of_le_of_lt (f.find_le slot) h, f.find_find slot⟩

/-! ### Ranks -/

/-- For each slot of the forest, the number of representatives below it. -/
def countsBelow (f : Forest) : Array Nat :=
  ((List.range f.size).foldl
    (fun (counts, count) slot ↦
      (counts.push count, if f.isRepresentative slot then count + 1 else count))
    ((#[] : Array Nat), 0)).1

/-- For each slot of the forest, the place of its representative among the representatives. -/
def ranks (f : Forest) : Array Nat :=
  let counts := f.countsBelow
  (Array.range f.size).map fun slot ↦ counts[f.find slot]?.getD 0

end Forest

end DeclExtract
