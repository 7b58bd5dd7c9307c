import Mathlib.Data.List.Forall2

/-!
# Lists whose members are computed or compared one by one

A pass over a list that may fail for a member (`List.mapM`) is told by the results for all members
(`mapM_eq_some_iff`), and two lists that are related place by place (`List.Forall₂`) by what holds
of each member.
-/

namespace DeclExtract

variable {α β : Type}

/-! ### Optional results for each member of a list -/

section

variable {f : α → Option β} {xs : List α} {ys : List β}

theorem isSome_mapM : (xs.mapM f).isSome = xs.all fun x ↦ (f x).isSome := by
  induction xs with
  | nil => rfl
  | cons x xs ih =>
    rw [List.all_cons, ← ih]
    cases hx : f x <;> simp [hx, Option.isSome_bind]

theorem mapM_eq_some_iff : xs.mapM f = some ys ↔ xs.map f = ys.map some := by
  induction xs generalizing ys with
  | nil => cases ys <;> simp
  | cons x xs ih =>
    cases hx : f x <;> cases ys <;> simp [← ih, hx, Option.bind_eq_some_iff, and_comm]

/-- The result for the member at a place stands at that place. -/
theorem getElem?_of_mapM {x : α} {k : Nat} (h : xs.mapM f = some ys) (hx : xs[k]? = some x) :
    ∃ y, f x = some y ∧ ys[k]? = some y := by
  have hplace : (xs.map f)[k]? = (ys.map some)[k]? := by rw [mapM_eq_some_iff.mp h]
  rw [List.getElem?_map, List.getElem?_map, hx, Option.map_some, eq_comm,
    Option.map_eq_some_iff] at hplace
  obtain ⟨y, hy, hfx⟩ := hplace
  exact ⟨y, hfx.symm, hy⟩

/-- A pass that fails nowhere is a map. -/
theorem mapM_eq_some_map {g : α → β} (h : ∀ x ∈ xs, f x = some (g x)) :
    xs.mapM f = some (xs.map g) := by
  rw [mapM_eq_some_iff, List.map_map]
  exact List.map_congr_left h

/-- A pass that undoes a map. -/
theorem mapM_map_eq_some {g : β → α} (h : ∀ y ∈ ys, f (g y) = some y) :
    (ys.map g).mapM f = some ys := by
  rw [mapM_eq_some_iff, List.map_map]
  exact List.map_congr_left h

/-- A pass whose results tell what they were computed from. -/
theorem mapM_eq_some_iff_of_inverse {g : β → α} (hg : ∀ {x y}, f x = some y → g y = x) :
    xs.mapM f = some ys ↔ ys.map g = xs ∧ ∀ y ∈ ys, f (g y) = some y := by
  constructor
  · intro h
    rw [mapM_eq_some_iff] at h
    induction ys generalizing xs with
    | nil =>
      obtain rfl := List.map_eq_nil_iff.mp h
      exact ⟨rfl, fun y hy ↦ nomatch hy⟩
    | cons y ys ih =>
      obtain ⟨x, xs, rfl, hx, hxs⟩ := List.map_eq_cons_iff.mp h
      obtain ⟨hmap, hrest⟩ := ih hxs
      refine ⟨by rw [List.map_cons, hg hx, hmap], List.forall_mem_cons.mpr ⟨?_, hrest⟩⟩
      rw [hg hx, hx]
  · rintro ⟨rfl, h⟩
    exact mapM_map_eq_some h

end

/-- A function on lists that takes member by member is a map. -/
theorem eq_map_of_cons {f : List α → List β} {g : α → β} (hnil : f [] = [])
    (hcons : ∀ x xs, f (x :: xs) = g x :: f xs) (xs : List α) : f xs = xs.map g := by
  induction xs with
  | nil => exact hnil
  | cons x xs ih => rw [hcons, ih, List.map_cons]

/-! ### Lists that are related place by place -/

section

variable {r p : α → α → Prop} {xs ys : List α}

/-- A relation between lists, place by place, may be replaced by one that follows from it at each
member of the first list. -/
theorem forall₂_imp_of_mem (h : List.Forall₂ r xs ys) (himp : ∀ x ∈ xs, ∀ y, r x y → p x y) :
    List.Forall₂ p xs ys :=
  ((List.forall₂_and_left xs ys).mpr ⟨himp, h⟩).imp fun _ y ⟨himp, hr⟩ ↦ himp y hr

/-- Each member of a list has a related one in a list that is related place by place. -/
theorem exists_of_forall₂ (h : List.Forall₂ r xs ys) {x : α} (hx : x ∈ xs) : ∃ y ∈ ys, r x y := by
  induction h with
  | nil => nomatch hx
  | cons hfirst _ ih =>
    rcases List.mem_cons.mp hx with rfl | hx
    · exact ⟨_, List.mem_cons_self, hfirst⟩
    · obtain ⟨y, hy, hxy⟩ := ih hx
      exact ⟨y, List.mem_cons_of_mem _ hy, hxy⟩

end

end DeclExtract
