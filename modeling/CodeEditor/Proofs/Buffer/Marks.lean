import CodeEditor.Proofs.Buffer.LineByLine
import CodeEditor.Proofs.Buffer.Reachable
/-!
Marks follow the text.

An insertion pushes the marks at or behind its place on (`Text.pushOn`), a removal pulls the marks in it to its start
and those behind it back (`pullBack`). Both maps are monotone, so an edit never turns the two marks round, and the
selection goes where its two ends go (`insert_selection`, `erase_selection`).

What is selected stays the same exactly if the edit takes place outside of the selection: an insertion up to its start
or behind its end, a removal up to its start or from its end on (`marks_follow_text`). The one place where an offset
behind the end is no place behind the end is the end of the text: an offset past it is taken for it, and what is
inserted there goes into a selection that ends there.
-/

namespace CodeEditor

namespace Text

variable {t u : Text} {i j n : Nat}

/-- texts that begin alike have the same stretches there -/
theorem slice_congr (h : t.take n = u.take n) (hj : j ≤ n) : t.slice i j = u.slice i j := by
  have htake : t.take j = u.take j := by
    calc t.take j = (t.take n).take j := by rw [List.take_take, min_eq_left hj]
      _ = (u.take n).take j := by rw [h]
      _ = u.take j := by rw [List.take_take, min_eq_left hj]
  rw [slice, slice, ← List.drop_take, ← List.drop_take, htake]

/-- a stretch behind what was put in is as many characters further on -/
theorem slice_insert_before {place : Nat} (hplace : place ≤ i) (hi : i ≤ t.length) :
    slice (t.take place ++ u ++ t.drop place) (i + u.length) (j + u.length) = t.slice i j := by
  have hlen : (t.take place ++ u).length + (i - place) = i + u.length := by
    rw [List.length_append, List.length_take]
    omega
  have hdrop : (t.take place ++ u ++ t.drop place).drop (i + u.length) = t.drop i := by
    rw [← hlen, List.drop_length_add_append, List.drop_drop, Nat.add_sub_cancel' hplace]
  rw [slice, hdrop, slice, Nat.add_sub_add_right]

/-- a stretch behind what was taken out is as many characters further back -/
theorem slice_remove_before {x y : Nat} (hxy : x ≤ y) (hy : y ≤ i) (hij : i ≤ j) (hi : i ≤ t.length) :
    slice (t.take x ++ t.drop y) (i - (y - x)) (j - (y - x)) = t.slice i j := by
  have hlen : (t.take x).length + (i - y) = i - (y - x) := by
    rw [List.length_take]
    omega
  have hdrop : (t.take x ++ t.drop y).drop (i - (y - x)) = t.drop i := by
    rw [← hlen, List.drop_length_add_append, List.drop_drop, Nat.add_sub_cancel' hy]
  rw [slice, hdrop, slice]
  congr 1
  omega

/-- a stretch before the place of a change is the same -/
theorem slice_change_behind {place : Nat} (hj : j ≤ place) (hplace : place ≤ t.length) (z : Text) :
    slice (t.take place ++ z) i j = t.slice i j := by
  have htake : (t.take place ++ z).take place = t.take place := List.take_left' (List.length_take_of_le hplace)
  exact slice_congr htake hj

end Text

namespace Buffer

variable {b c : Buffer}

theorem pullBack_monotone {x y : Nat} (h : x ≤ y) : Monotone (pullBack x y) := by
  intro i j hij
  simp only [pullBack]
  split_ifs <;> omega

/-- the characters between the two marks -/
def selectedText (b : Buffer) : Text :=
  b.text.slice b.selectionStart b.selectionEnd

/-- two marks in an order are in that order afterwards, or at one place -/
def KeepsOrder (b c : Buffer) : Prop :=
  (b.marks.insert ≤ b.marks.bound → c.marks.insert ≤ c.marks.bound) ∧
    (b.marks.bound ≤ b.marks.insert → c.marks.bound ≤ c.marks.insert)

theorem keepsOrder_of_monotone {f : Nat → Nat} (hf : Monotone f) (hmarks : c.marks = b.marks.map f) :
    b.KeepsOrder c := by
  rw [KeepsOrder, hmarks]
  exact ⟨fun h => hf h, fun h => hf h⟩

/-! ## Insertions and removals -/

theorem insert_clamp (b : Buffer) (offset : Nat) (u : Text) : b.insert (b.clamp offset) u = b.insert offset u := by
  simp only [insert, clamp, min_assoc, min_self]

theorem erase_clamp (b : Buffer) (x y : Nat) : b.erase (b.clamp (min x y)) (b.clamp (max x y)) = b.erase x y := by
  have hle : b.clamp (min x y) ≤ b.clamp (max x y) := by
    simp only [clamp]
    omega
  have hclamp : ∀ offset, b.clamp (b.clamp offset) = b.clamp offset := by
    intro offset
    simp only [clamp, min_assoc, min_self]
  simp only [erase, min_eq_left hle, max_eq_right hle, hclamp]

theorem insert_keepsOrder (b : Buffer) (offset : Nat) (u : Text) : b.KeepsOrder (b.insert offset u) := by
  have hmoment := b.insert_moment u (b.clamp_le offset)
  rw [insert_clamp] at hmoment
  exact keepsOrder_of_monotone (Text.pushOn_strictMono _ _).monotone (congrArg Moment.marks hmoment)

theorem erase_keepsOrder (b : Buffer) (x y : Nat) : b.KeepsOrder (b.erase x y) := by
  have hle : b.clamp (min x y) ≤ b.clamp (max x y) := by
    simp only [clamp]
    omega
  have hmoment := b.erase_moment_eq hle (b.clamp_le _)
  rw [erase_clamp] at hmoment
  exact keepsOrder_of_monotone (pullBack_monotone hle) (congrArg Moment.marks hmoment)

/-! ## What is selected -/

/-- the selection goes where its two ends go -/
theorem selectedText_of_moment {t : Text} {f : Nat → Nat} (hf : Monotone f) (hc : c.moment = ⟨t, b.marks.map f⟩) :
    c.selectedText = t.slice (f b.selectionStart) (f b.selectionEnd) := by
  have htext : c.text = t := congrArg Moment.text hc
  have hmarks : c.marks = b.marks.map f := congrArg Moment.marks hc
  rw [selectedText, htext, selectionStart_of_push hmarks hf, selectionEnd_of_push hmarks hf]

theorem length_selectedText (h : b.Within) : b.selectedText.length = b.selectionEnd - b.selectionStart :=
  Text.length_slice _ (max_le h.1 h.2)

section

variable (h : b.Within) (hsel : b.hasSelection = true)
include h hsel

/-- **An insertion** leaves what is selected alone exactly if its place is not behind the start of the
selection, or behind its end. -/
theorem selectedText_insert_iff {place : Nat} (hplace : place ≤ b.text.length) {u : Text} (hu : u ≠ []) :
    (b.insert place u).selectedText = b.selectedText ↔ place ≤ b.selectionStart ∨ b.selectionEnd < place := by
  obtain ⟨hlt, hend, -⟩ := selection_cases h hsel
  have hmono : Monotone (Text.pushOn place u.length) := (Text.pushOn_strictMono _ _).monotone
  have hselected := selectedText_of_moment hmono (b.insert_moment u hplace)
  by_cases hbefore : place ≤ b.selectionStart
  · have hstart : Text.pushOn place u.length b.selectionStart = b.selectionStart + u.length := if_pos hbefore
    have hstop : Text.pushOn place u.length b.selectionEnd = b.selectionEnd + u.length := if_pos (hbefore.trans hlt.le)
    rw [hstart, hstop, Text.slice_insert_before hbefore (hlt.le.trans hend)] at hselected
    exact iff_of_true hselected (.inl hbefore)
  · have hstart : Text.pushOn place u.length b.selectionStart = b.selectionStart := if_neg hbefore
    rw [hstart] at hselected
    by_cases hbehind : b.selectionEnd < place
    · have hstop : Text.pushOn place u.length b.selectionEnd = b.selectionEnd := if_neg (Nat.not_le.2 hbehind)
      rw [hstop, List.append_assoc, Text.slice_change_behind hbehind.le hplace] at hselected
      exact iff_of_true hselected (.inr hbehind)
    · -- what is inserted is selected from now on
      have hstop : Text.pushOn place u.length b.selectionEnd = b.selectionEnd + u.length :=
        if_pos (Nat.not_lt.1 hbehind)
      refine iff_of_false (fun hsame => ?_) (fun hoff => hoff.elim hbefore hbehind)
      have hlen := congrArg List.length hsame
      have hpos : 0 < u.length := List.length_pos_of_ne_nil hu
      rw [hselected, hstop, length_selectedText h, Text.length_slice] at hlen
      · omega
      · simp only [List.length_append, List.length_take, List.length_drop]
        omega

/-- **A removal** leaves what is selected alone exactly if it ends by the start of the selection or begins
at its end or behind. -/
theorem selectedText_erase_iff {x y : Nat} (hxy : x < y) (hy : y ≤ b.text.length) :
    (b.erase x y).selectedText = b.selectedText ↔ y ≤ b.selectionStart ∨ b.selectionEnd ≤ x := by
  obtain ⟨hlt, hend, -⟩ := selection_cases h hsel
  have hselected := selectedText_of_moment (pullBack_monotone hxy.le) (b.erase_moment_eq hxy.le hy)
  by_cases hbefore : y ≤ b.selectionStart
  · have hstart : pullBack x y b.selectionStart = b.selectionStart - (y - x) := by
      simp only [pullBack]
      split_ifs <;> omega
    have hstop : pullBack x y b.selectionEnd = b.selectionEnd - (y - x) := if_pos (hbefore.trans_lt hlt)
    rw [hstart, hstop, Text.slice_remove_before hxy.le hbefore hlt.le (hlt.le.trans hend)] at hselected
    exact iff_of_true hselected (.inl hbefore)
  · by_cases hbehind : b.selectionEnd ≤ x
    · have hstart : pullBack x y b.selectionStart = b.selectionStart := by
        simp only [pullBack]
        split_ifs <;> omega
      have hstop : pullBack x y b.selectionEnd = b.selectionEnd := by
        simp only [pullBack]
        split_ifs <;> omega
      rw [hstart, hstop, Text.slice_change_behind hbehind (hxy.le.trans hy)] at hselected
      exact iff_of_true hselected (.inr hbehind)
    · -- some of what was selected is gone
      refine iff_of_false (fun hsame => ?_) (fun hoff => hoff.elim hbefore hbehind)
      have hlen := congrArg List.length hsame
      have hle := Text.length_slice_le (b.text.take x ++ b.text.drop y) (pullBack x y b.selectionStart)
        (pullBack x y b.selectionEnd)
      have hless : pullBack x y b.selectionEnd - pullBack x y b.selectionStart < b.selectionEnd - b.selectionStart := by
        simp only [pullBack]
        split_ifs <;> omega
      rw [hselected, length_selectedText h] at hlen
      omega

end

/-- **Marks follow the text.** In every buffer that operations lead to, both marks are in the text; insertions and
removals never turn them round; and of a selection that is not empty, an insertion leaves the characters alone exactly
if it inserts nothing, its offset is not behind the start of the selection, or it is behind the end of a selection
that ends before the text does; a removal, exactly if it removes nothing, ends by the start of the selection, or
begins at its end or behind. -/
theorem marks_follow_text {b : Buffer} (hb : b.Reachable) :
    b.Within ∧ (∀ offset u, b.KeepsOrder (b.insert offset u)) ∧ (∀ x y, b.KeepsOrder (b.erase x y)) ∧
      (b.hasSelection = true →
        (∀ offset u, (b.insert offset u).selectedText = b.selectedText ↔
          u = [] ∨ offset ≤ b.selectionStart ∨ (b.selectionEnd < offset ∧ b.selectionEnd < b.text.length)) ∧
        (∀ x y, (b.erase x y).selectedText = b.selectedText ↔
          x = y ∨ max x y ≤ b.selectionStart ∨ b.selectionEnd ≤ min x y)) := by
  have hwithin : b.Within := hb.within
  refine ⟨hwithin, b.insert_keepsOrder, b.erase_keepsOrder, fun hsel => ⟨fun offset u => ?_, fun x y => ?_⟩⟩
  · obtain ⟨hlt, hend, -⟩ := selection_cases hwithin hsel
    rcases eq_or_ne u [] with rfl | hu
    · exact iff_of_true rfl (.inl rfl)
    · rw [← insert_clamp, selectedText_insert_iff hwithin hsel (b.clamp_le offset) hu, or_iff_right hu]
      simp only [clamp, length]
      omega
  · obtain ⟨hlt, hend, -⟩ := selection_cases hwithin hsel
    rcases (show b.clamp (min x y) ≤ b.clamp (max x y) by simp only [clamp]; omega).eq_or_lt with heq | hless
    · -- nothing is removed: the offsets are the same, or both are behind the text
      have hnone : b.erase x y = b := by
        rw [← erase_clamp, heq]
        simp [erase]
      rw [hnone]
      refine iff_of_true rfl ?_
      simp only [clamp, length] at heq
      omega
    · rw [← erase_clamp, selectedText_erase_iff hwithin hsel hless (b.clamp_le _)]
      simp only [clamp, length] at hless ⊢
      omega

/-- a selection of two letters, with an insertion before it, one behind it and a removal of what follows it -/
theorem marks_follow_edits_around_selection :
    let b := (ofText "abcde".toList).run [.insert 1 ['\n'], .select 5 3, .undo, .redo, .select 5 3]
    b.Reachable ∧ b.hasSelection = true ∧ b.Within ∧ b.KeepsOrder (b.insert 4 "xy".toList) ∧
    b.selectedText = "cd".toList ∧
      (b.insert 3 "xy".toList).selectedText = b.selectedText ∧ (b.insert 9 "xy".toList).selectedText = b.selectedText ∧
      (b.erase 8 5).selectedText = b.selectedText ∧ (b.insert 5 "xy".toList).selectedText ≠ b.selectedText := by
  intro b
  have hb : b.Reachable := ⟨_, _, rfl⟩
  have hsel : b.hasSelection = true := by decide
  obtain ⟨hwithin, horder, -, hselected⟩ := marks_follow_text hb
  obtain ⟨hinsert, herase⟩ := hselected hsel
  refine ⟨hb, hsel, hwithin, horder _ _, by decide, ?_, ?_, ?_, ?_⟩
  · exact (hinsert 3 _).2 (by decide)
  · exact (hinsert 9 _).2 (by decide)
  · exact (herase 8 5).2 (by decide)
  · exact fun hsame => absurd ((hinsert 5 _).1 hsame) (by decide)

/-- an insertion at an offset past the end of the text, and so behind the end of the selection, goes into a
selection that ends there -/
theorem insertion_past_end_is_selected :
    let b := (ofText "ab".toList).run [.select 2 0]
    b.Reachable ∧ b.hasSelection = true ∧ b.selectionEnd < 3 ∧ b.selectedText = "ab".toList ∧
      (b.insert 3 ['x']).selectedText = "abx".toList ∧ (b.insert 3 ['x']).selectedText ≠ b.selectedText := by
  intro b
  have hb : b.Reachable := ⟨_, _, rfl⟩
  exact ⟨hb, by decide, by decide, by decide, by decide, by decide⟩

end Buffer

end CodeEditor
