import DeclExtract.Proofs.Text.Separated
import DeclExtract.Targets

/-!
# Targets in several lists

Targets are written as lists with commas, and several lists may be given. It makes no difference
whether the lists are separated one by one or joined to one list first, since no name that is read
from a list has a comma (`Targets.ofNames_flatMap_pieces`). A set of such names can be written as a
list and read again.
-/

namespace DeclExtract

/-! ### Ascending lists -/

section

variable {α : Type} [LT α] [DecidableLT α] [DecidableEq α] {x : α} {xs : List α}

theorem insertAscending_eq_cons (h : ∀ y ∈ xs, x < y) : insertAscending x xs = x :: xs := by
  cases xs with
  | nil => rfl
  | cons y ys => rw [insertAscending, if_pos (h y List.mem_cons_self)]

/-- A list that ascends already is left as it is. -/
theorem ascending_eq_self (h : xs.Pairwise (· < ·)) : ascending xs = xs := by
  induction xs with
  | nil => rfl
  | cons x xs ih =>
    obtain ⟨hx, hxs⟩ := List.pairwise_cons.mp h
    rw [ascending, List.foldr_cons, ← ascending, ih hxs, insertAscending_eq_cons hx]

end

namespace Targets

variable {names args : List String} {t : Targets} {e : Error}

/-! ### Sets of names -/

/-- **Names make no set of targets** if one of them is empty, or else if there are none. -/
theorem ofNames_eq_error_iff : ofNames names = .error e ↔
    ("" ∈ names ∧ e = .emptyTargetName) ∨ (names = [] ∧ e = .noTargets) := by
  unfold ofNames
  split
  next hempty => simp [hempty, List.ne_nil_of_mem hempty, eq_comm]
  next hempty =>
    split
    next hnil => simp [hnil, eq_comm]
    next hnil => simp [hempty, hnil]

/-- The names of a set that was made from names, in ascending order. -/
theorem names_of_ofNames (h : ofNames names = .ok t) : t.names = ascending names := by
  unfold ofNames at h
  split at h
  next => cases h
  next =>
    split at h
    next => cases h
    next => rw [← Except.ok.inj h]

/-- A set of targets is made from its own names. -/
theorem ofNames_names (t : Targets) : ofNames t.names = .ok t := by
  have hempty : "" ∉ t.names := fun h ↦ t.ne_empty "" h rfl
  rw [ofNames, dif_neg hempty, dif_neg t.names_ne_nil]
  congr
  exact ascending_eq_self t.pairwise

/-! ### Lists with commas -/

/-- The pieces of a list are the texts without commas that it is made of. -/
theorem pieces_eq_iff {text : String} : pieces text = names ↔
    names ≠ [] ∧ (∀ name ∈ names, ',' ∉ name.toList) ∧ ",".intercalate names = text :=
  Text.parts_eq_iff

/-- The pieces of several lists are those of one list that is made of them. -/
theorem pieces_intercalate (h : args ≠ []) : pieces (",".intercalate args) = args.flatMap pieces :=
  Text.parts_intercalate h

/-- **A set of targets can be written and read again** if no name has a comma. -/
theorem parse_text (h : ∀ name ∈ t.names, ',' ∉ name.toList) : parse t.text = .ok t := by
  rw [parse, Targets.text, pieces_eq_iff.mpr ⟨t.names_ne_nil, h, rfl⟩, ofNames_names]

/-- Pieces are refused if one of them is empty; there is always some piece. -/
theorem ofNames_pieces_eq_error_iff (h : args ≠ []) :
    ofNames (args.flatMap pieces) = .error e ↔ "" ∈ args.flatMap pieces ∧ e = .emptyTargetName := by
  have hsome : args.flatMap pieces ≠ [] := pieces_intercalate h ▸ (pieces_eq_iff.mp rfl).1
  rw [ofNames_eq_error_iff, or_iff_left fun hnone ↦ hsome hnone.1]

/-- **Lists of targets may be separated one by one or joined to one list.** Either way the same set
is made, that of all pieces, or the same refusal comes of it. It is refused just if some piece is
empty. The text of the set gives the set again. -/
theorem ofNames_flatMap_pieces (h : args ≠ []) :
    ofNames (args.flatMap pieces) = parse (",".intercalate args) ∧
    (∀ e, ofNames (args.flatMap pieces) = .error e ↔
      "" ∈ args.flatMap pieces ∧ e = .emptyTargetName) ∧
    ∀ t, ofNames (args.flatMap pieces) = .ok t →
      (∀ name, name ∈ t.names ↔ name ∈ args.flatMap pieces) ∧ parse t.text = .ok t := by
  refine ⟨by rw [parse, pieces_intercalate h], fun e ↦ ofNames_pieces_eq_error_iff h, fun t ht ↦ ?_⟩
  have hmem (name : String) : name ∈ t.names ↔ name ∈ args.flatMap pieces := by
    rw [names_of_ofNames ht, mem_ascending]
  refine ⟨hmem, parse_text fun name hname ↦ ?_⟩
  obtain ⟨arg, -, hpiece⟩ := List.mem_flatMap.mp ((hmem name).mp hname)
  exact (pieces_eq_iff.mp rfl).2.1 name hpiece

/-- Two lists, of which the second repeats a name of the first. -/
theorem ofNames_flatMap_pieces_repeated : ["Reader,newReader", "Closer,Reader"] ≠ [] ∧
    ∃ t, ofNames (["Reader,newReader", "Closer,Reader"].flatMap pieces) = .ok t ∧
      parse "Reader,newReader,Closer,Reader" = .ok t ∧
      t.names = ["Closer", "Reader", "newReader"] ∧ parse t.text = .ok t := by
  have hne : ["Reader,newReader", "Closer,Reader"] ≠ [] := List.cons_ne_nil _ _
  obtain ⟨hjoined, -, hread⟩ := ofNames_flatMap_pieces hne
  have hpieces :
      ["Reader,newReader", "Closer,Reader"].flatMap pieces
        = ["Reader", "newReader", "Closer", "Reader"] := by
    decide
  have hmade : ∃ t, ofNames (["Reader,newReader", "Closer,Reader"].flatMap pieces) = .ok t := by
    rw [hpieces]
    exact ⟨_, rfl⟩
  obtain ⟨t, ht⟩ := hmade
  refine ⟨hne, t, ht, hjoined.symm.trans ht, ?_, (hread t ht).2⟩
  rw [names_of_ofNames ht, hpieces]
  decide

/-- A comma at the end is followed by one more piece, and that is empty. -/
example : (parse "Reader,").isOk = false := by
  decide

end Targets

end DeclExtract
