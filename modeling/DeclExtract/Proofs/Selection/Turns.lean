import Mathlib.Algebra.GroupWithZero.Nat
import DeclExtract.Proofs.Selection.Closure

/-!
# The walk turn by turn

The walk is a loop. A turn takes one id from the stack: it visits the id and puts successors of it
on the stack, or it passes the id over (`Walk.turn`). What every turn preserves holds at the end,
with an empty stack (`Walk.run_induction`).

How many turns there are is counted by the walk itself. With a limit on its turns the loop has no
result while the limit is below that number, and its result is the walk from there on
(`Walk.runFor_eq`): so the loop ends on every graph, whatever cycles and repeated edges it has.

* The trail lists the visited ids, each of them once (`Walk.Traced`). So no id is visited twice,
  although an id that has not been visited may be on the stack many times over.
* A turn takes one id away from the stack, and only a visit puts ids there, no more than the visited
  node has uses and methods. What was taken from the stack and what is left on it are thus bounded
  by the seeds and by the trail (`Walk.Within`).
-/

namespace DeclExtract

namespace UseGraph

/-- How many ways lead on from a node: its uses and its methods. -/
def fanOut (g : UseGraph) (id : Nat) : Nat :=
  (g.usesOf id).length + (g.methods id).length

theorem length_successors_le (g : UseGraph) (t : Targets) (id : Nat) :
    (g.successors t id).length ≤ g.fanOut id := by
  rw [successors, List.length_append, fanOut, Nat.add_comm]
  exact Nat.add_le_add_right (List.length_filter_le _ _) _

end UseGraph

namespace Walk

variable {g : UseGraph} {t : Targets} {w : Walk} {stack : List Nat} {id : Nat}

/-! ### One turn -/

/-- A turn of the loop: the walk and the stack after an id was taken from the stack. -/
def turn (g : UseGraph) (t : Targets) (w : Walk) (id : Nat) (stack : List Nat) : Walk × List Nat :=
  if w.isNew id then
    (w.visit id,
      (g.successors t id).filter (fun next ↦ !(w.visit id).visited.contains next) ++ stack)
  else (w.pass, stack)

theorem turn_of_isNew (hnew : w.isNew id = true) : turn g t w id stack =
    (w.visit id, (g.successors t id).filter (fun next ↦ !(w.visit id).visited.contains next)
      ++ stack) :=
  if_pos hnew

theorem turn_of_not_isNew (hnew : ¬ w.isNew id = true) : turn g t w id stack = (w.pass, stack) :=
  if_neg hnew

/-- Every turn is counted. -/
theorem pops_turn : (turn g t w id stack).1.pops = w.pops + 1 := by
  by_cases hnew : w.isNew id = true
  · rw [turn_of_isNew hnew]
    rfl
  · rw [turn_of_not_isNew hnew]
    rfl

/-- The loop goes on after a turn with what the turn left. -/
theorem run_cons :
    run g t w (id :: stack) = run g t (turn g t w id stack).1 (turn g t w id stack).2 := by
  rw [run]
  by_cases hnew : w.isNew id = true
  · rw [if_pos hnew, turn_of_isNew hnew]
  · rw [if_neg hnew, turn_of_not_isNew hnew]

/-- **What every turn preserves holds at the end.** -/
theorem run_induction {P : Walk → List Nat → Prop}
    (hturn : ∀ w id stack, P w (id :: stack) → P (turn g t w id stack).1 (turn g t w id stack).2)
    (h : P w stack) : P (run g t w stack) [] := by
  fun_induction run g t w stack with
  | case1 w => exact h
  | case2 w id stack hnew w' ih =>
    exact ih (by simpa only [turn_of_isNew hnew] using hturn w id stack h)
  | case3 w id stack hnew ih =>
    exact ih (by simpa only [turn_of_not_isNew hnew] using hturn w id stack h)

/-! ### The loop ends -/

/-- The loop with a limit on its turns: without a result if the stack is not empty after the last of
them. -/
def runFor (g : UseGraph) (t : Targets) : Nat → Walk → List Nat → Option Walk
  | _, w, [] => some w
  | 0, _, _ :: _ => none
  | turns + 1, w, id :: stack => runFor g t turns (turn g t w id stack).1 (turn g t w id stack).2

theorem pops_le_pops_run : w.pops ≤ (run g t w stack).pops := by
  refine run_induction (P := fun w' _ ↦ w.pops ≤ w'.pops) (fun w' id stack h ↦ ?_) (Nat.le_refl _)
  rw [pops_turn]
  exact Nat.le_succ_of_le h

/-- **The loop ends after as many turns as the walk counts**, and not before. -/
theorem runFor_eq (turns : Nat) : runFor g t turns w stack =
    if (run g t w stack).pops ≤ w.pops + turns then some (run g t w stack) else none := by
  induction turns generalizing w stack with
  | zero =>
    cases stack with
    | nil => rw [runFor, run, Nat.add_zero, if_pos (Nat.le_refl _)]
    | cons id stack =>
      have hlater : w.pops < (run g t w (id :: stack)).pops := by
        rw [run_cons, Nat.lt_iff_add_one_le, ← pops_turn]
        exact pops_le_pops_run
      rw [runFor, Nat.add_zero, if_neg (Nat.not_le.mpr hlater)]
  | succ turns ih =>
    cases stack with
    | nil => rw [runFor, run, if_pos (Nat.le_add_right _ _)]
    | cons id stack => rw [runFor, ih, ← run_cons, pops_turn, Nat.add_assoc, Nat.add_comm 1]

/-! ### The trail -/

/-- **The trail of a walk** lists what the walk visited, each id once. -/
structure Traced (w : Walk) : Prop where
  nodup : w.trail.toList.Nodup
  mem_iff : ∀ id, id ∈ w.trail.toList ↔ w.visited.contains id = true

theorem traced_start (g : UseGraph) : (start g).Traced where
  nodup := List.nodup_nil
  mem_iff id := by simp [start]

/-- A visit of a new id adds the id to the trail, which did not have it. -/
theorem Traced.visit (h : w.Traced) (hnew : w.isNew id = true) : (w.visit id).Traced := by
  obtain ⟨hbounds, hunvisited⟩ := isNew_iff.mp hnew
  have htrail : (w.visit id).trail.toList = w.trail.toList ++ [id] := Array.toList_push
  refine ⟨?_, fun other ↦ ?_⟩
  · have hnot : id ∉ w.trail.toList := fun hmem ↦ by
      rw [(h.mem_iff id).mp hmem] at hunvisited
      cases hunvisited
    rw [htrail]
    exact h.nodup.append (List.nodup_singleton id) (List.disjoint_singleton.mpr hnot)
  · rw [htrail, List.mem_append, List.mem_singleton, h.mem_iff]
    show _ ↔ (w.visited.insert id).contains other = true
    rw [NodeSet.contains_insert, and_iff_left hbounds, or_comm]

theorem Traced.turn (h : w.Traced) : (turn g t w id stack).1.Traced := by
  by_cases hnew : w.isNew id = true
  · rw [turn_of_isNew hnew]
    exact h.visit hnew
  · rw [turn_of_not_isNew hnew]
    exact ⟨h.nodup, h.mem_iff⟩

theorem Traced.run (h : w.Traced) : (run g t w stack).Traced :=
  run_induction (P := fun w _ ↦ w.Traced) (fun _ _ _ h ↦ h.turn) h

/-! ### How many turns there are -/

/-- **What a walk has taken from its stack and what is left there** came from the seeds or from a
visited node. -/
def Within (g : UseGraph) (seeds : Nat) (w : Walk) (stack : List Nat) : Prop :=
  w.pops + stack.length ≤ seeds + (w.trail.toList.map g.fanOut).sum

theorem Within.turn {seeds : Nat} (h : Within g seeds w (id :: stack)) :
    Within g seeds (turn g t w id stack).1 (turn g t w id stack).2 := by
  unfold Within at h ⊢
  rw [pops_turn]
  rw [List.length_cons] at h
  by_cases hnew : w.isNew id = true
  · rw [turn_of_isNew hnew]
    have hpushed :
        ((g.successors t id).filter fun next ↦ !(w.visit id).visited.contains next).length
          ≤ g.fanOut id := (List.length_filter_le _ _).trans (g.length_successors_le t id)
    have hsum : ((w.visit id).trail.toList.map g.fanOut).sum
        = (w.trail.toList.map g.fanOut).sum + g.fanOut id := by
      simp [visit]
    rw [List.length_append, hsum]
    omega
  · rw [turn_of_not_isNew hnew]
    show w.pops + 1 + stack.length ≤ seeds + (w.trail.toList.map g.fanOut).sum
    omega

/-- **The walk ends on every graph.** With a limit on its turns the loop has a result once it may
take as many turns as the walk counts, and the result is the walk. The trail lists the copied
declarations, each of them once, and there are no more turns than seeds and ways on from what is on
the trail. -/
theorem ofTargets_ends (g : UseGraph) (t : Targets) :
    (∀ turns, runFor g t turns (start g) (g.seeds t) =
        if (ofTargets g t).pops ≤ turns then some (ofTargets g t) else none)
      ∧ (ofTargets g t).trail.toList.Nodup
      ∧ (∀ id, id ∈ (ofTargets g t).trail.toList ↔ id ∈ (g.select t).seen)
      ∧ (ofTargets g t).pops ≤ (g.seeds t).length
        + ((ofTargets g t).trail.toList.map fun id ↦ (g.usesOf id).length
          + (g.methods id).length).sum := by
  have htraced : (ofTargets g t).Traced := (traced_start g).run
  refine ⟨fun turns ↦ ?_, htraced.nodup, fun id ↦ ?_, ?_⟩
  · rw [runFor_eq, ofTargets, show (start g).pops = 0 from rfl, Nat.zero_add]
  · exact (htraced.mem_iff id).trans NodeSet.mem_toList.symm
  · have hstart : Within g (g.seeds t).length (start g) (g.seeds t) := by
      unfold Within
      rw [show (start g).pops = 0 from rfl, Nat.zero_add]
      exact Nat.le_add_right _ _
    exact run_induction (fun _ _ _ h ↦ h.turn) hstart

end Walk

end DeclExtract
