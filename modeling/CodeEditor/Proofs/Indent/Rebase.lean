import CodeEditor.Paste
import Mathlib.Data.List.TakeWhile
import Mathlib.Tactic
/-!
A pasted block on another indentation.

What goes from every line is the smallest of some indentations (`measures`). Deeper lines measure deeper by as much, so
a block that is indented at all comes out the same from whatever depth it was copied (`rebase_is_independent_of_depth`).

The measured lines are meant to be those that have more than indentation (`contentLines`), the first one only if it is
indented. All others are left out, except a first line of nothing but indentation, which is measured all the same
(`measures_eq`). So exactly where that one is shallower than all lines with content, less goes from them than they have
in common (`common_indentation_is_stripped`).
-/

namespace CodeEditor

variable {unit : Char} {n k : Nat} {line first indent : Text} {rest : List Text}

theorem utf8Size_of_isBlank {c : Char} (h : isBlank c = true) : c.utf8Size = 1 := by
  have hc : c = ' ' ∨ c = '\t' := by simpa [isBlank] using h
  rcases hc with rfl | rfl <;> rfl

/-! ## Lines -/

theorem leadingUnits_le_length (unit : Char) (line : Text) : leadingUnits unit line ≤ line.length :=
  (List.takeWhile_prefix _).length_le

/-- a blank line holds the unit character only -/
theorem isBlankFor_eq_all (unit : Char) (line : Text) : isBlankFor unit line = line.all (· == unit) := by
  rw [Bool.eq_iff_iff, isBlankFor, beq_iff_eq, leadingUnits, List.all_eq_true, ← List.takeWhile_eq_self_iff]
  exact ⟨(List.takeWhile_prefix _).eq_of_length, congrArg List.length⟩

/-- unit characters in front of a line -/
def deepen (unit : Char) (k : Nat) (line : Text) : Text :=
  List.replicate k unit ++ line

@[simp] theorem leadingUnits_deepen (unit : Char) (k : Nat) (line : Text) :
    leadingUnits unit (deepen unit k line) = k + leadingUnits unit line := by
  have hunits : ∀ c ∈ List.replicate k unit, (c == unit) = true :=
    fun c hc => beq_iff_eq.2 (List.eq_of_mem_replicate hc)
  rw [leadingUnits, deepen, List.takeWhile_append_of_pos hunits, List.length_append, List.length_replicate,
    leadingUnits]

@[simp] theorem isBlankFor_deepen (unit : Char) (k : Nat) (line : Text) :
    isBlankFor unit (deepen unit k line) = isBlankFor unit line := by
  rw [isBlankFor, isBlankFor, leadingUnits_deepen, deepen, List.length_append, List.length_replicate, Bool.eq_iff_iff,
    beq_iff_eq, beq_iff_eq, Nat.add_left_cancel_iff]

section

variable (hunit : isBlank unit = true)
include hunit

theorem stripUnits_eq (n : Nat) (line : Text) :
    stripUnits unit n line = line.drop (min (leadingUnits unit line) n) := by
  rw [stripUnits, utf8Size_of_isBlank hunit, Nat.div_one]

/-- what a line is indented more, it loses more -/
theorem stripUnits_deepen (k n : Nat) (line : Text) :
    stripUnits unit (k + n) (deepen unit k line) = stripUnits unit n line := by
  have hlen : (List.replicate k unit).length = k := List.length_replicate
  rw [stripUnits_eq hunit, stripUnits_eq hunit, leadingUnits_deepen, Nat.add_min_add_left, deepen,
    List.drop_append, hlen, Nat.add_sub_cancel_left, List.drop_of_length_le (by omega), List.nil_append]

/-- a line that is indented enough, or is blank, loses all of it -/
theorem stripUnits_eq_drop (h : n ≤ leadingUnits unit line ∨ isBlankFor unit line = true) :
    stripUnits unit n line = line.drop n := by
  rw [stripUnits_eq hunit]
  rcases h with hle | hblank
  · rw [min_eq_right hle]
  · rw [isBlankFor, beq_iff_eq] at hblank
    rw [hblank, List.drop_eq_drop_iff]
    omega

end

/-! ## What is measured -/

/-- the indentations of which the smallest goes -/
def measures (unit : Char) (first : Text) (rest : List Text) : List Nat :=
  let counted := (rest.filter (!isBlankFor unit ·)).map (leadingUnits unit)
  if leadingUnits unit first = 0 then counted else leadingUnits unit first :: counted

theorem commonUnits_cons (unit : Char) (first : Text) (rest : List Text) :
    commonUnits unit (first :: rest) = (measures unit first rest).min?.getD 0 := rfl

theorem commonUnits_le {i : Nat} (h : i ∈ measures unit first rest) : commonUnits unit (first :: rest) ≤ i :=
  List.min?_getD_le_of_mem h

theorem mem_measures_of_content (h : line ∈ rest) (hcontent : isBlankFor unit line = false) :
    leadingUnits unit line ∈ measures unit first rest := by
  have hmem : leadingUnits unit line ∈ (rest.filter (!isBlankFor unit ·)).map (leadingUnits unit) :=
    List.mem_map_of_mem (List.mem_filter.2 ⟨h, by rw [hcontent]; rfl⟩)
  rw [measures]
  split_ifs
  · exact hmem
  · exact List.mem_cons_of_mem _ hmem

theorem mem_measures_of_indented (h : leadingUnits unit first ≠ 0) (rest : List Text) :
    leadingUnits unit first ∈ measures unit first rest := by
  rw [measures, if_neg h]
  exact List.mem_cons_self

/-- a deeper block measures deeper by as much -/
theorem measures_deepen (hfirst : leadingUnits unit first ≠ 0) (k : Nat) :
    measures unit (deepen unit k first) (rest.map (deepen unit k)) = (measures unit first rest).map (k + ·) := by
  have hfirst' : leadingUnits unit (deepen unit k first) ≠ 0 := by rw [leadingUnits_deepen]; omega
  rw [measures, measures, if_neg hfirst, if_neg hfirst', List.map_cons, leadingUnits_deepen, List.filter_map,
    List.map_map, List.map_map]
  congr 2
  · funext line
    exact leadingUnits_deepen unit k line
  · refine List.filter_congr fun line _ => ?_
    rw [Function.comp_apply, isBlankFor_deepen]

theorem commonUnits_deepen (hfirst : leadingUnits unit first ≠ 0) (rest : List Text) (k : Nat) :
    commonUnits unit ((first :: rest).map (deepen unit k)) = k + commonUnits unit (first :: rest) := by
  rw [List.map_cons, commonUnits_cons, commonUnits_cons, measures_deepen hfirst]
  cases hmin : (measures unit first rest).min? with
  | none =>
    have hmem := mem_measures_of_indented hfirst rest
    rw [List.min?_eq_none_iff.1 hmin] at hmem
    cases hmem
  | some m =>
    obtain ⟨hmem, hle⟩ := List.min?_eq_some_iff.1 hmin
    have hmin' : ((measures unit first rest).map (k + ·)).min? = some (k + m) := by
      refine List.min?_eq_some_iff.2 ⟨List.mem_map_of_mem hmem, ?_⟩
      intro j hj
      obtain ⟨i, hi, rfl⟩ := List.mem_map.1 hj
      exact Nat.add_le_add_left (hle i hi) k
    rw [hmin']
    rfl

/-- **The depth a block was copied from does not matter**, if its first line is indented: all lines may be deeper by any
number of unit characters. -/
theorem rebase_is_independent_of_depth (hunit : isBlank unit = true) (hfirst : first.head? = some unit) (indent : Text)
    (rest : List Text) (k : Nat) :
    rebase unit indent ((first :: rest).map fun line => List.replicate k unit ++ line) =
      rebase unit indent (first :: rest) := by
  have hindented : leadingUnits unit first ≠ 0 := by
    obtain ⟨behind, rfl⟩ := List.head?_eq_some_iff.1 hfirst
    rw [leadingUnits, List.takeWhile_cons_of_pos (by exact beq_self_eq_true unit), List.length_cons]
    exact Nat.succ_ne_zero _
  have hcommon := commonUnits_deepen hindented rest k
  change rebase unit indent ((first :: rest).map (deepen unit k)) = _
  rw [List.map_cons] at hcommon ⊢
  simp only [rebase, hcommon, stripUnits_deepen hunit, List.flatMap_map]

/-- a block of three lines with a blank one, two tabs deeper -/
theorem block_from_two_depths :
    let lines : List Text := ["\tif x".toList, [], "\t\ty".toList]
    let deeper : List Text := ["\t\t\tif x".toList, "\t\t".toList, "\t\t\t\ty".toList]
    (isBlank '\t' = true ∧ "\tif x".toList.head? = some '\t') ∧
    rebase '\t' "  ".toList deeper = rebase '\t' "  ".toList lines ∧
      rebase '\t' "  ".toList lines = "if x\n  \n  \ty".toList := by
  have hunit : isBlank '\t' = true := rfl
  have hfirst : "\tif x".toList.head? = some '\t' := rfl
  have hsame := rebase_is_independent_of_depth hunit hfirst "  ".toList [[], "\t\ty".toList] 2
  exact ⟨⟨hunit, hfirst⟩, hsame, by decide⟩

/-! ## What the lines have in common -/

/-- the lines that have more than indentation, the first one only if it is indented -/
def contentLines (unit : Char) (first : Text) (rest : List Text) : List Text :=
  (if leadingUnits unit first = 0 then rest else first :: rest).filter fun line => !line.all (· == unit)

/-- the smallest number of unit characters that one of them starts with, or 0 without any -/
def contentIndent (unit : Char) (first : Text) (rest : List Text) : Nat :=
  ((contentLines unit first rest).map (leadingUnits unit)).min?.getD 0

theorem contentIndent_le (h : line ∈ contentLines unit first rest) :
    contentIndent unit first rest ≤ leadingUnits unit line :=
  List.min?_getD_le_of_mem (List.mem_map_of_mem h)

/-- the first line holds unit characters and nothing else -/
def IndentsOnly (unit : Char) (first : Text) : Prop :=
  first ≠ [] ∧ first.all (· == unit) = true

instance (unit : Char) (first : Text) : Decidable (IndentsOnly unit first) :=
  inferInstanceAs (Decidable (_ ∧ _))

theorem leadingUnits_of_all (h : first.all (· == unit) = true) : leadingUnits unit first = first.length := by
  rwa [← isBlankFor_eq_all, isBlankFor, beq_iff_eq] at h

/-- **What is measured** besides the lines with content is a first line of indentation only. -/
theorem measures_eq (unit : Char) (first : Text) (rest : List Text) : measures unit first rest =
    if IndentsOnly unit first then first.length :: (contentLines unit first rest).map (leadingUnits unit)
    else (contentLines unit first rest).map (leadingUnits unit) := by
  simp only [measures, contentLines, isBlankFor_eq_all]
  by_cases hzero : leadingUnits unit first = 0
  · have hnot : ¬ IndentsOnly unit first := by
      rintro ⟨hne, hall⟩
      exact hne (List.length_eq_zero_iff.1 (leadingUnits_of_all hall ▸ hzero))
    rw [if_pos hzero, if_pos hzero, if_neg hnot]
  · rw [if_neg hzero, if_neg hzero]
    cases hall : first.all (· == unit) with
    | true =>
      have hne : first ≠ [] := by
        rintro rfl
        exact hzero rfl
      rw [if_pos ⟨hne, hall⟩, List.filter_cons_of_neg (by simp [hall]), leadingUnits_of_all hall]
    | false =>
      have hnot : ¬ IndentsOnly unit first := fun h => Bool.false_ne_true (hall.symm.trans h.2)
      rw [if_neg hnot, List.filter_cons_of_pos (by simp [hall]), List.map_cons]

/-- a first line of indentation only is shallower than all lines with content, of which there are some -/
def Undercuts (unit : Char) (first : Text) (rest : List Text) : Prop :=
  IndentsOnly unit first ∧ first.length < contentIndent unit first rest

instance (unit : Char) (first : Text) (rest : List Text) : Decidable (Undercuts unit first rest) :=
  inferInstanceAs (Decidable (_ ∧ _))

theorem commonUnits_of_undercuts (h : Undercuts unit first rest) : commonUnits unit (first :: rest) = first.length := by
  obtain ⟨hindents, hlt⟩ := h
  rw [commonUnits_cons, measures_eq, if_pos hindents, List.min?_cons]
  rw [contentIndent] at hlt
  cases hmin : ((contentLines unit first rest).map (leadingUnits unit)).min? with
  | none => rfl
  | some m =>
    rw [hmin] at hlt
    exact min_eq_left hlt.le

theorem commonUnits_of_not_undercuts (hsome : contentLines unit first rest ≠ []) (h : ¬ Undercuts unit first rest) :
    commonUnits unit (first :: rest) = contentIndent unit first rest := by
  rw [commonUnits_cons, measures_eq]
  split_ifs with hindents
  · have hle : ¬ first.length < contentIndent unit first rest := fun hlt => h ⟨hindents, hlt⟩
    rw [contentIndent] at hle ⊢
    cases hmin : ((contentLines unit first rest).map (leadingUnits unit)).min? with
    | none => exact absurd (List.map_eq_nil_iff.1 (List.min?_eq_none_iff.1 hmin)) hsome
    | some m =>
      rw [hmin] at hle
      rw [List.min?_cons, hmin]
      exact min_eq_right (Nat.not_lt.1 hle)
  · rfl

/-- the lines of a block without `n` characters, an unindented first line apart, and `indent` in
front of all but the first -/
def dedented (unit : Char) (indent : Text) (n : Nat) (first : Text) (rest : List Text) : List Text :=
  (if leadingUnits unit first = 0 then first else first.drop n) :: rest.map fun line => indent ++ line.drop n

theorem intercalate_cons (first : Text) (rest : List Text) :
    ['\n'].intercalate (first :: rest) = first ++ rest.flatMap fun line => '\n' :: line := by
  induction rest generalizing first with
  | nil => simp [List.intercalate]
  | cons line rest ih =>
    rw [List.intercalate_cons_cons, ih, List.flatMap_cons, List.append_assoc, List.singleton_append, List.cons_append]

/-- the lines come out one below the other -/
theorem rebase_eq_dedented (hunit : isBlank unit = true) (indent first : Text) (rest : List Text) :
    rebase unit indent (first :: rest) =
      ['\n'].intercalate (dedented unit indent (commonUnits unit (first :: rest)) first rest) := by
  have hfirst : stripUnits unit (commonUnits unit (first :: rest)) first =
      if leadingUnits unit first = 0 then first else first.drop (commonUnits unit (first :: rest)) := by
    split_ifs with hzero
    · rw [stripUnits_eq hunit, hzero, Nat.zero_min, List.drop_zero]
    · exact stripUnits_eq_drop hunit (.inl (commonUnits_le (mem_measures_of_indented hzero rest)))
  have hrest : ∀ line ∈ rest, stripUnits unit (commonUnits unit (first :: rest)) line =
      line.drop (commonUnits unit (first :: rest)) := by
    intro line hline
    cases hblank : isBlankFor unit line with
    | true => exact stripUnits_eq_drop hunit (.inr hblank)
    | false => exact stripUnits_eq_drop hunit (.inl (commonUnits_le (mem_measures_of_content hline hblank)))
  rw [dedented, intercalate_cons, List.flatMap_map, rebase, hfirst]
  congr 1
  exact List.flatMap_congr fun line hline => by rw [hrest line hline, List.cons_append]

/-- **A pasted block loses the indentation its lines have in common.** All lines lose one number of characters, an
unindented first line apart, and all but the first get the new indentation. For the lines with content this is what they
have in common, exactly if no first line of indentation only undercuts them; else it is the length of that line. -/
theorem common_indentation_is_stripped (hunit : isBlank unit = true) (indent first : Text) (rest : List Text) :
    let common := contentIndent unit first rest
    ∃ n, rebase unit indent (first :: rest) = ['\n'].intercalate (dedented unit indent n first rest) ∧
      (∀ line ∈ contentLines unit first rest, common ≤ leadingUnits unit line) ∧
      ((∀ line ∈ contentLines unit first rest, line.drop n = line.drop common) ↔ ¬ Undercuts unit first rest) ∧
      (Undercuts unit first rest → n = first.length) := by
  intro common
  refine ⟨_, rebase_eq_dedented hunit indent first rest, fun line => contentIndent_le, ?_, commonUnits_of_undercuts⟩
  by_cases hundercuts : Undercuts unit first rest
  · refine iff_of_false (fun hsame => ?_) (not_not_intro hundercuts)
    have hlt : first.length < common := hundercuts.2
    -- a line with content loses less than it should
    obtain ⟨line, hline⟩ : ∃ line, line ∈ contentLines unit first rest := by
      refine List.exists_mem_of_ne_nil _ fun hnone => ?_
      have hzero : common = 0 := by rw [show common = contentIndent unit first rest from rfl, contentIndent, hnone]; rfl
      omega
    have hle : common ≤ line.length := (contentIndent_le hline).trans (leadingUnits_le_length unit line)
    have hdrop := hsame line hline
    rw [commonUnits_of_undercuts hundercuts, List.drop_eq_drop_iff] at hdrop
    omega
  · refine iff_of_true (fun line hline => ?_) hundercuts
    rw [commonUnits_of_not_undercuts (List.ne_nil_of_mem hline) hundercuts]

/-- an unindented first line, an empty one and two lines of four and six spaces -/
theorem block_loses_four_spaces :
    let rest : List Text := [[], "    b".toList, "      c".toList]
    (isBlank ' ' = true ∧ ¬ Undercuts ' ' ['a'] rest ∧ contentIndent ' ' ['a'] rest = 4) ∧
      (∃ n, rebase ' ' ['\t'] (['a'] :: rest) = ['\n'].intercalate (dedented ' ' ['\t'] n ['a'] rest) ∧
        ∀ line ∈ contentLines ' ' ['a'] rest, line.drop n = line.drop 4) ∧
      rebase ' ' ['\t'] (['a'] :: rest) = "a\n\t\n\tb\n\t  c".toList := by
  intro rest
  have hunit : isBlank ' ' = true := rfl
  have hundercuts : ¬ Undercuts ' ' ['a'] rest := by decide
  have hcommon : contentIndent ' ' ['a'] rest = 4 := by decide
  obtain ⟨n, hblock, -, hsame, -⟩ := common_indentation_is_stripped hunit ['\t'] ['a'] rest
  rw [hcommon] at hsame
  exact ⟨⟨hunit, hundercuts, hcommon⟩, ⟨n, hblock, hsame.2 hundercuts⟩, by decide⟩

/-- a first line of one space keeps the other line from losing its second one -/
theorem blank_first_line_undercuts :
    let first : Text := [' ']
    let rest : List Text := ["  b".toList]
    contentLines ' ' first rest = ["  b".toList] ∧ contentIndent ' ' first rest = 2 ∧
      rebase ' ' [] (first :: rest) = "\n b".toList ∧
      rebase ' ' [] (first :: rest) ≠ ['\n'].intercalate [[], "  b".toList.drop 2] := by
  decide

end CodeEditor
