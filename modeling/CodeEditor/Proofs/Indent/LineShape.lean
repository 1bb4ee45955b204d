import CodeEditor.Indent.LineShape
import Mathlib.Tactic
/-!
Lines with and without a body of their own.

A line that ends in a brace or a semicolon is not the head of a statement on the next line, whatever else it holds. A
head with its parenthesis closed at the end of the line is.
-/

namespace CodeEditor.LineShape

/-- nothing is dropped from a text whose last character stays -/
theorem dropEndWhile_concat (p : Char → Bool) (v : Text) {e : Char} (he : p e = false) :
    Text.dropEndWhile p (v ++ [e]) = v ++ [e] := by
  simp [Text.dropEndWhile, he]

/-- an ending of a text is empty or has its last character -/
theorem suffix_concat {x v : Text} {e : Char} (h : x <:+ v ++ [e]) : x = [] ∨ ∃ x', x = x' ++ [e] := by
  obtain ⟨y, hy⟩ := h
  rcases List.eq_nil_or_concat x with rfl | ⟨x', d, rfl⟩
  · exact Or.inl rfl
  · rw [List.concat_eq_append, ← List.append_assoc] at hy
    obtain ⟨-, hd⟩ := List.append_inj' hy rfl
    rw [List.concat_eq_append, hd]
    exact Or.inr ⟨x', rfl⟩

variable {v : Text} {e : Char}

/-- the arguments of a head end as the line does -/
theorem arguments?_concat {head arguments : Text} (he : e ≠ ' ')
    (h : arguments? head (Text.content (v ++ [e])) = some arguments) :
    arguments = [] ∨ ∃ x, arguments = x ++ [e] := by
  have hcontent : Text.content (v ++ [e]) <:+ v ++ [e] := List.dropWhile_suffix _
  unfold arguments? Text.after? at h
  split_ifs at h
  · simp only at h
    split at h
    · rename_i rest hrest
      have hsuffix : rest <:+ v ++ [e] := by
        have hdrop := (List.suffix_cons '(' rest).trans (hrest ▸ List.dropWhile_suffix (· == ' '))
        exact (hdrop.trans (List.drop_suffix _ _)).trans hcontent
      obtain rfl := Option.some.inj h
      rcases suffix_concat hsuffix with rfl | ⟨x, rfl⟩
      · exact Or.inl rfl
      · exact Or.inr ⟨x, dropEndWhile_concat _ x (by simpa using he)⟩
    · cases h

/-- **A line that ends in a semicolon or a brace** has no body on the next line. -/
theorem isHeadless_concat (v : Text) (he : e = ';' ∨ e = '}' ∨ e = '{') : (ofLine (v ++ [e])).isHeadless = false := by
  have hspace : e ≠ ' ' := by rcases he with rfl | rfl | rfl <;> decide
  have hopening : isOpening (v ++ [e]) = (e == '{') := by
    rw [isOpening, dropEndWhile_concat _ v (by simpa using hspace), List.getLast?_concat]
    rfl
  by_cases hbrace : e = '{'
  · rw [ofLine, hopening, hbrace]
    rfl
  · have hfinished : e = ';' ∨ e = '}' := by tauto
    have hif : isHeadlessIf (v ++ [e]) = false := by
      rw [isHeadlessIf, List.any_eq_false]
      intro head _
      cases harguments : arguments? head (Text.content (v ++ [e])) with
      | none => simp
      | some arguments =>
        rcases arguments?_concat hspace harguments with rfl | ⟨x, rfl⟩
        · simp [isUnfinished]
        · rcases hfinished with rfl | rfl <;> simp [isUnfinished]
    have helse : isHeadlessElse (v ++ [e]) = false := by
      rw [isHeadlessElse, beq_eq_false_iff_ne]
      rcases suffix_concat (List.dropWhile_suffix (l := v ++ [e]) isBlank) with hcontent | ⟨x, hcontent⟩
      · rw [Text.content, hcontent]
        exact fun h => by cases h
      · rw [Text.content, hcontent, dropEndWhile_concat _ x (by simpa using hspace)]
        intro h
        have hlast := congrArg List.getLast? h
        rw [List.getLast?_concat] at hlast
        rcases hfinished with rfl | rfl <;> cases hlast
    rw [ofLine, hopening, beq_false_of_ne hbrace, hif, helse]
    rfl

/-- a head begins with a letter -/
theorem exists_letter {head : Text} (h : head ∈ heads) : ∃ c rest, head = c :: rest ∧ isBlank c = false := by
  simp only [heads, List.mem_cons, List.not_mem_nil, or_false] at h
  rcases h with rfl | rfl | rfl | rfl <;> exact ⟨_, _, rfl, rfl⟩

/-- **A head with its parenthesis** has its body on the next line. -/
theorem isHeadless_head {ind head arguments : Text} (hind : ∀ c ∈ ind, isBlank c = true) (hhead : head ∈ heads) :
    (ofLine (ind ++ (head ++ ' ' :: '(' :: (arguments ++ [')'])))).isHeadless = true := by
  obtain ⟨c, rest, hcons, hblank⟩ := exists_letter hhead
  set line := ind ++ (head ++ ' ' :: '(' :: (arguments ++ [')'])) with hline
  have hconcat : line = (ind ++ (head ++ ' ' :: '(' :: arguments)) ++ [')'] := by rw [hline]; simp
  have hopening : isOpening line = false := by
    rw [isOpening, hconcat, dropEndWhile_concat _ _ rfl, List.getLast?_concat]
    rfl
  have hcontent : Text.content line = head ++ ' ' :: '(' :: (arguments ++ [')']) := by
    rw [hline, Text.content, List.dropWhile_append_of_pos hind, hcons]
    simp [hblank]
  have hafter : Text.after? head (Text.content line) = some (' ' :: '(' :: (arguments ++ [')'])) := by
    rw [hcontent, Text.after?, if_pos (List.isPrefixOf_iff_prefix.2 (List.prefix_append _ _)), List.drop_left]
  have harguments : arguments? head (Text.content line) = some (arguments ++ [')']) := by
    rw [arguments?, hafter]
    simp [dropEndWhile_concat]
  have hif : isHeadlessIf line = true := by
    rw [isHeadlessIf, List.any_eq_true]
    exact ⟨head, hhead, by simp [harguments, isUnfinished]⟩
  rw [ofLine, hopening, hif]
  rfl

end CodeEditor.LineShape
