import CodeEditor.Pattern.Parser
import Mathlib.Tactic
/-!
Patterns with other group numbers.

Where a pattern stands inside of another one, its groups have other numbers, all of them larger by the same amount
(`Pattern.regroup`). Nothing that puts patterns together minds the numbers of groups, other than whether two are the
same, so a pattern put together from regrouped parts is the regrouped pattern.
-/

namespace CodeEditor

namespace Pattern

/-- the pattern with `k` added to the number of each group -/
def regroup (k : Nat) : Pattern → Pattern
  | empty => empty
  | set s => set s
  | anchor a => anchor a
  | seq p q => seq (p.regroup k) (q.regroup k)
  | alt p q => alt (p.regroup k) (q.regroup k)
  | times low high greedy p => times low high greedy (p.regroup k)
  | group index p => group (k + index) (p.regroup k)

variable {k : Nat}

/-- without groups there is nothing to number -/
theorem regroup_of_groups_eq_zero {p : Pattern} (h : p.groups = 0) : p.regroup k = p := by
  induction p with
  | empty | set | anchor => rfl
  | seq p q hp hq | alt p q hp hq =>
    obtain ⟨hleft, hright⟩ := Nat.add_eq_zero_iff.1 h
    rw [regroup, hp hleft, hq hright]
  | times low high greedy p hp => rw [regroup, hp h]
  | group => cases h

@[simp] theorem leastRead?_regroup (p : Pattern) : (p.regroup k).leastRead? = p.leastRead? := by
  induction p with
  | empty | set | anchor => rfl
  | seq p q hp hq | alt p q hp hq => simp only [regroup, leastRead?, hp, hq]
  | times low high greedy p hp | group index p hp => simp only [regroup, leastRead?, hp]

@[simp] theorem isNullable_regroup (p : Pattern) : (p.regroup k).isNullable = p.isNullable := by
  simp only [isNullable, leastRead?_regroup]

@[simp] theorem isZeroWidth_regroup (p : Pattern) : (p.regroup k).isZeroWidth = p.isZeroWidth := by
  induction p with
  | empty | set | anchor => rfl
  | seq p q hp hq | alt p q hp hq => simp only [regroup, isZeroWidth, hp, hq]
  | times low high greedy p hp | group index p hp => simp only [regroup, isZeroWidth, hp]

@[simp] theorem weight_regroup (p : Pattern) : (p.regroup k).weight = p.weight := by
  induction p with
  | empty | set | anchor => rfl
  | seq p q hp hq | alt p q hp hq => simp only [regroup, weight, hp, hq]
  | times low high greedy p hp | group index p hp => simp only [regroup, weight, hp]

@[simp] theorem set?_regroup (p : Pattern) : (p.regroup k).set? = p.set? := by
  cases p <;> rfl

@[simp] theorem isChar_regroup (p : Pattern) : (p.regroup k).isChar = p.isChar := by
  cases p <;> rfl

@[simp] theorem isClass_regroup (p : Pattern) : (p.regroup k).isClass = p.isClass := by
  cases p <;> rfl

@[simp] theorem same_regroup (p q : Pattern) : (p.regroup k).same (q.regroup k) = p.same q := by
  induction p generalizing q with
  | empty | set | anchor => cases q <;> rfl
  | seq p p' hp hp' | alt p p' hp hp' => cases q <;> simp only [regroup, same, hp, hp']
  | times low high greedy p hp => cases q <;> simp only [regroup, same, hp]
  | group index p hp => cases q <;> simp [regroup, same, hp, beq_eq_decide]

/-! ## Concatenations -/

theorem factors_regroup (p : Pattern) : (p.regroup k).factors = p.factors.map (regroup k) := by
  induction p with
  | seq p q hp hq => simp only [regroup, factors, hp, hq, List.map_append]
  | _ => rfl

theorem ofFactors_regroup (ps : List Pattern) : ofFactors (ps.map (regroup k)) = (ofFactors ps).regroup k := by
  induction ps with
  | nil => rfl
  | cons p ps ih =>
    cases ps with
    | nil => rfl
    | cons q ps => exact congrArg (seq (p.regroup k)) ih

theorem inOrder_regroup (ps : List Pattern) : inOrder (ps.map (regroup k)) = (inOrder ps).regroup k := by
  have hfactors : (ps.map (regroup k)).flatMap factors = (ps.flatMap factors).map (regroup k) := by
    simp only [List.flatMap_map, List.map_flatMap, factors_regroup]
  rw [inOrder, hfactors, ofFactors_regroup, inOrder]

theorem chunks_regroup (ps : List Pattern) : chunks (ps.map (regroup k)) = (chunks ps).map (List.map (regroup k)) := by
  induction ps with
  | nil => rfl
  | cons p ps ih =>
    rw [List.map_cons, chunks, chunks, ih]
    rcases chunks ps with _ | ⟨_ | ⟨q, qs⟩, rest⟩
    · rfl
    · rfl
    · simp only [List.map_cons, isChar_regroup]
      split_ifs <;> rfl

theorem sameChunk_regroup (ps qs : List Pattern) :
    sameChunk (ps.map (regroup k)) (qs.map (regroup k)) = sameChunk ps qs := by
  simp only [sameChunk, List.length_map, List.zip_map, List.all_map, Function.comp_def, Prod.map, same_regroup]

theorem sharedStart_regroup (first other : List (List Pattern)) :
    sharedStart (first.map (List.map (regroup k))) (other.map (List.map (regroup k))) = sharedStart first other := by
  simp only [sharedStart, List.zip_map, List.takeWhile_map, List.length_map, Function.comp_def, Prod.map,
    sameChunk_regroup]

/-! ## Choices -/

theorem alternatives_regroup (p : Pattern) : (p.regroup k).alternatives = p.alternatives.map (regroup k) := by
  induction p with
  | alt p q hp hq => simp only [regroup, alternatives, hp, hq, List.map_append]
  | _ => rfl

theorem ofAlternatives_regroup (ps : List Pattern) :
    ofAlternatives (ps.map (regroup k)) = (ofAlternatives ps).regroup k := by
  induction ps with
  | nil => rfl
  | cons p ps ih =>
    cases ps with
    | nil => rfl
    | cons q ps => exact congrArg (alt (p.regroup k)) ih

theorem ofSet_regroup (s : CharSet) : (ofSet s).regroup k = ofSet s := by
  unfold ofSet
  split
  · rfl
  · split_ifs <;> rfl
  · rfl

theorem oneOfFrom_regroup (fuel : Nat) (ps : List Pattern) :
    oneOfFrom fuel (ps.map (regroup k)) = (oneOfFrom fuel ps).regroup k := by
  induction fuel generalizing ps with
  | zero => exact ofAlternatives_regroup ps
  | succ fuel ih =>
    have halts : (ps.map (regroup k)).flatMap alternatives = (ps.flatMap alternatives).map (regroup k) := by
      simp only [List.flatMap_map, List.map_flatMap, alternatives_regroup]
    rw [oneOfFrom, oneOfFrom, halts]
    generalize ps.flatMap alternatives = qs
    have hbranches : (qs.map (regroup k)).map (fun p => chunks p.factors) =
        (qs.map fun p => chunks p.factors).map (List.map (List.map (regroup k))) := by
      simp only [List.map_map, Function.comp_def, factors_regroup, chunks_regroup]
    simp only [hbranches]
    generalize (qs.map fun p => chunks p.factors) = branches
    have hfirst : (branches.map (List.map (List.map (regroup k)))).headD [] =
      (branches.headD []).map (List.map (regroup k)) := by
      cases branches <;> rfl
    simp only [hfirst, List.length_map, List.all_map, Function.comp_def, isChar_regroup, isClass_regroup,
      List.filterMap_map, set?_regroup, List.foldl_map, sharedStart_regroup]
    generalize (if branches.all (2 ≤ ·.length) then
      branches.foldl (fun n b => min n (sharedStart (branches.headD []) b)) (branches.headD []).length else 0) = shared
    split_ifs
    · exact ofAlternatives_regroup qs
    · exact (ofSet_regroup _).symm
    · exact ofAlternatives_regroup qs
    · rw [← inOrder_regroup, List.map_append, List.map_singleton, ← ih]
      simp only [List.map_map, Function.comp_def, ← List.map_take, ← List.map_drop, ← List.map_flatten,
        ofFactors_regroup]

theorem oneOf_regroup (ps : List Pattern) : oneOf (ps.map (regroup k)) = (oneOf ps).regroup k := by
  rw [oneOf, List.foldl_map]
  simp only [weight_regroup]
  exact oneOfFrom_regroup _ ps

/-! ## Repetitions -/

theorem repeated_regroup (low : Nat) (high : Option Nat) (greedy : Bool) (p : Pattern) :
    repeated low high greedy (p.regroup k) = (repeated low high greedy p).regroup k := by
  unfold repeated
  rw [isZeroWidth_regroup]
  generalize (if p.isZeroWidth then (min low 1, some ((high.map (min · 1)).getD 1)) else (low, high)) = bounds
  dsimp only
  split_ifs <;> rfl

end Pattern

end CodeEditor
