import CodeEditor.Proofs.Text.Lines
import Mathlib.Data.List.DropRight
/-!
Runs of characters of one class.

A run at the start of a text goes up to the first character that is not of the class (`charAt_takeWhile_class`), and a
run at the end begins behind the last one (`charAt_dropEndWhile`). Behind the end of a text a NUL is read. As long as
that is not of the class, a run that takes up the whole text is no case of its own.
-/

namespace CodeEditor.Text

variable {p : Char → Bool}

theorem charAt_take (t : Text) {i n : Nat} (h : i < n) : charAt (t.take n) i = t.charAt i := by
  rw [charAt, charAt, List.getD_eq_getElem?_getD, List.getD_eq_getElem?_getD, List.getElem?_take_of_lt h]

/-- **A run at the start** is of the class, and the character behind it is not. -/
theorem charAt_takeWhile_class (hp : p nul = false) (u : Text) :
    (∀ i, i < (u.takeWhile p).length → p (u.charAt i) = true) ∧ p (u.charAt (u.takeWhile p).length) = false := by
  induction u with
  | nil => exact ⟨fun i hi => absurd hi (Nat.not_lt_zero i), hp⟩
  | cons c u ih =>
    obtain ⟨hrun, hbehind⟩ := ih
    by_cases hc : p c = true
    · rw [List.takeWhile_cons_of_pos hc, List.length_cons]
      refine ⟨fun i hi => ?_, hbehind⟩
      cases i with
      | zero => exact hc
      | succ i => exact hrun i (Nat.lt_of_succ_lt_succ hi)
    · rw [List.takeWhile_cons_of_neg hc]
      exact ⟨fun i hi => absurd hi (Nat.not_lt_zero i), Bool.eq_false_iff.2 hc⟩

theorem dropEndWhile_length_le (p : Char → Bool) (u : Text) : (u.dropEndWhile p).length ≤ u.length :=
  (List.rdropWhile_prefix p u).length_le

/-- **A run at the end** is of the class, and the character before it is not. -/
theorem charAt_dropEndWhile (p : Char → Bool) (u : Text) :
    (∀ i, (u.dropEndWhile p).length ≤ i → i < u.length → p (u.charAt i) = true) ∧
      (0 < (u.dropEndWhile p).length → p (u.charAt ((u.dropEndWhile p).length - 1)) = false) := by
  induction u using List.reverseRecOn with
  | nil => exact ⟨fun i _ hi => absurd hi (Nat.not_lt_zero i), fun h => absurd h (Nat.lt_irrefl 0)⟩
  | append_singleton u c ih =>
    obtain ⟨hrun, hbefore⟩ := ih
    have hlast : charAt (u ++ [c]) u.length = c := by simp [charAt]
    have hfirst : ∀ i, i < u.length → charAt (u ++ [c]) i = charAt u i := fun i hi => List.getD_append _ _ _ _ hi
    by_cases hc : p c = true
    · have hdrop : dropEndWhile p (u ++ [c]) = dropEndWhile p u := List.rdropWhile_concat_pos p u c hc
      rw [hdrop]
      have hle := dropEndWhile_length_le p u
      refine ⟨fun i hi hlt => ?_, fun hpos => ?_⟩
      · rw [List.length_append, List.length_singleton] at hlt
        rcases (Nat.le_of_lt_succ hlt).lt_or_eq with hlt | rfl
        · rw [hfirst i hlt]
          exact hrun i hi hlt
        · rw [hlast]
          exact hc
      · rw [hfirst _ (by omega)]
        exact hbefore hpos
    · have hdrop : dropEndWhile p (u ++ [c]) = u ++ [c] := List.rdropWhile_concat_neg p u c hc
      rw [hdrop, List.length_append, List.length_singleton, Nat.add_sub_cancel]
      refine ⟨fun i hi hlt => absurd hlt (Nat.not_lt.2 hi), fun _ => ?_⟩
      rw [hlast]
      exact Bool.eq_false_iff.2 hc

end CodeEditor.Text
