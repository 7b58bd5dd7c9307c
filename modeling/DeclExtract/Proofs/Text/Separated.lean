import DeclExtract.Text.Separated

/-!
# Separating and joining

Separating a text at its marks is the inverse of joining texts without marks with a mark between
them: the parts of a text are the only texts without marks, at least one of them, that can be joined
to it (`parts_eq_iff`). So texts may be joined before or after they are separated
(`parts_intercalate`).
-/

namespace DeclExtract.Text

variable {mark : Char} {text : String} {ps texts : List String}

/-! ### The parts of a text -/

/-- A mark ends a part, and anything else belongs to the part that it stands in front of. -/
theorem exists_splitOn_cons (mark c : Char) (cs : List Char) : ∃ run runs,
    cs.splitOn mark = run :: runs ∧ (c :: cs).splitOn mark =
      if c = mark then [] :: run :: runs else (c :: run) :: runs := by
  obtain ⟨run, runs, hruns⟩ := List.exists_cons_of_ne_nil (List.splitOn_ne_nil mark cs)
  refine ⟨run, runs, hruns, ?_⟩
  rw [List.splitOn_cons_eq_if_modifyHead, hruns]
  by_cases h : c = mark <;> simp [h]

theorem length_splitOn (mark : Char) (cs : List Char) :
    (cs.splitOn mark).length = cs.count mark + 1 := by
  induction cs with
  | nil => rw [List.splitOn_nil]; rfl
  | cons c cs ih =>
    obtain ⟨run, runs, hruns, hcons⟩ := exists_splitOn_cons mark c cs
    rw [hruns] at ih
    rw [hcons]
    by_cases h : c = mark
    · rw [if_pos h, h, List.count_cons_self, List.length_cons, ih]
    · rw [if_neg h, List.count_cons_of_ne h, ← ih, List.length_cons, List.length_cons]

theorem notMem_of_mem_splitOn {cs run : List Char} (h : run ∈ cs.splitOn mark) : mark ∉ run := by
  induction cs generalizing run with
  | nil =>
    rw [List.splitOn_nil, List.mem_singleton] at h
    exact h ▸ List.not_mem_nil
  | cons c cs ih =>
    obtain ⟨first, runs, hruns, hcons⟩ := exists_splitOn_cons mark c cs
    rw [hruns] at ih
    rw [hcons] at h
    by_cases hc : c = mark
    · rw [if_pos hc] at h
      rcases List.mem_cons.mp h with rfl | h
      · exact List.not_mem_nil
      · exact ih h
    · rw [if_neg hc] at h
      rcases List.mem_cons.mp h with rfl | h
      · exact List.not_mem_cons_of_ne_of_not_mem (Ne.symm hc) (ih List.mem_cons_self)
      · exact ih (List.mem_cons_of_mem first h)

/-- **There is one part more than there are marks.** -/
theorem length_parts (mark : Char) (text : String) :
    (parts mark text).length = text.toList.count mark + 1 := by
  rw [parts, List.length_map, length_splitOn]

theorem parts_ne_nil (mark : Char) (text : String) : parts mark text ≠ [] := by
  simp [parts]

/-- **No part holds a mark.** -/
theorem notMem_of_mem_parts {part : String} (h : part ∈ parts mark text) : mark ∉ part.toList := by
  obtain ⟨run, hrun, rfl⟩ := List.mem_map.mp h
  rw [String.toList_ofList]
  exact notMem_of_mem_splitOn hrun

/-- The parts of a text are joined to the text. -/
theorem intercalate_parts (mark : Char) (text : String) :
    (String.singleton mark).intercalate (parts mark text) = text := by
  rw [← String.toList_inj, String.toList_intercalate, String.toList_singleton, parts, List.map_map]
  simp only [Function.comp_def, String.toList_ofList, List.map_id', List.intercalate_splitOn]

/-- **The parts of a text** are the texts without marks that are joined to it. -/
theorem parts_eq_iff : parts mark text = ps ↔
    ps ≠ [] ∧ (∀ part ∈ ps, mark ∉ part.toList)
      ∧ (String.singleton mark).intercalate ps = text := by
  constructor
  · rintro rfl
    exact ⟨parts_ne_nil mark text, fun part ↦ notMem_of_mem_parts, intercalate_parts mark text⟩
  · rintro ⟨hne, hmark, rfl⟩
    have hruns : ∀ run ∈ ps.map String.toList, mark ∉ run := by
      intro run hrun
      obtain ⟨part, hpart, rfl⟩ := List.mem_map.mp hrun
      exact hmark part hpart
    rw [parts, String.toList_intercalate, String.toList_singleton,
      List.splitOn_intercalate mark hruns (by simpa using hne), List.map_map]
    simp [Function.comp_def]

theorem intercalate_flatMap_parts (mark : Char) (texts : List String) :
    (String.singleton mark).intercalate (texts.flatMap (parts mark))
      = (String.singleton mark).intercalate texts := by
  induction texts with
  | nil => rfl
  | cons text texts ih =>
    rw [List.flatMap_cons]
    by_cases hnil : texts = []
    · simp [hnil, intercalate_parts]
    · have hparts : texts.flatMap (parts mark) ≠ [] := by
        obtain ⟨other, rest, rfl⟩ := List.exists_cons_of_ne_nil hnil
        simp [parts_ne_nil]
      rw [String.intercalate_append_of_ne_nil (parts_ne_nil mark text) hparts,
        intercalate_parts, ih, String.intercalate_cons_of_ne_nil hnil]

/-- **The parts of joined texts** are the parts of the texts, one text after the other. -/
theorem parts_intercalate (h : texts ≠ []) :
    parts mark ((String.singleton mark).intercalate texts) = texts.flatMap (parts mark) := by
  refine parts_eq_iff.mpr ⟨?_, fun part hpart ↦ ?_, intercalate_flatMap_parts mark texts⟩
  · obtain ⟨text, rest, rfl⟩ := List.exists_cons_of_ne_nil h
    simp [parts_ne_nil]
  · obtain ⟨text, -, hmem⟩ := List.mem_flatMap.mp hpart
    exact notMem_of_mem_parts hmem

end DeclExtract.Text
