import CodeEditor.Indent.Reindent
import CodeEditor.Proofs.Buffer.Plain
import CodeEditor.Proofs.Text.Rows
/-!
What reindenting does, line by line.

The nesting at the start of a line is that behind the lines before it (`nestingAt`), and decides the level the line
gets, if it gets one (`levelAt?`). The plan lists the lines whose blanks are not those of their level
(`planReindent_eq`). Carried out from the last line to the first it changes those rows and no others, because no line is
renumbered (`lineText_setIndents`): in the end every line has the blanks of its level and what stood behind its blanks
before, or is as it was (`lineText_reindent`).
-/

namespace CodeEditor

open Text

variable {t : Text} {spans : Spans} {unit : IndentUnit}

/-! ## The plan -/

/-- the nesting behind a line -/
def BlockDepth.behind (t : Text) (spans : Spans) (d : BlockDepth) (line : Nat) : BlockDepth :=
  (planLine t spans .default d line).2

/-- the nesting at the start of a line -/
def nestingAt (t : Text) (spans : Spans) (line : Nat) : BlockDepth :=
  (List.range line).foldl (BlockDepth.behind t spans) ⟨0, 0, 0⟩

@[simp] theorem nestingAt_zero (t : Text) (spans : Spans) : nestingAt t spans 0 = ⟨0, 0, 0⟩ := rfl

theorem nestingAt_succ (t : Text) (spans : Spans) (line : Nat) :
    nestingAt t spans (line + 1) = (nestingAt t spans line).behind t spans line := by
  rw [nestingAt, List.range_succ, List.foldl_append]
  rfl

/-- a line with more than blanks that does not continue a comment or a string -/
def isPlainLine (t : Text) (spans : Spans) (line : Nat) : Bool :=
  t.lineIndentEnd line != t.lineEnd line && !(t.lineStart line > 0 && spans.covers (t.lineStart line - 1))

/-- the level that reindenting gives a line, none if the line keeps its blanks -/
def levelAt? (t : Text) (spans : Spans) (line : Nat) : Option Nat :=
  let d := nestingAt t spans line
  let first := t.charAt (t.lineIndentEnd line)
  if isPlainLine t spans line && d.brackets ≤ 0 && first != '#' then some (d.level first) else none

/-- what the plan says about a line -/
def changeAt? (t : Text) (spans : Spans) (unit : IndentUnit) (line : Nat) : Option LineIndent :=
  (levelAt? t spans line).bind fun level =>
    if t.lineIndent line = unit.levels level then none else some ⟨line, unit.levels level⟩

theorem planLine_eq (t : Text) (spans : Spans) (unit : IndentUnit) (line : Nat) :
    planLine t spans unit (nestingAt t spans line) line =
      (changeAt? t spans unit line, nestingAt t spans (line + 1)) := by
  refine Prod.ext ?_ (nestingAt_succ t spans line).symm
  simp only [planLine, changeAt?, levelAt?, slice_lineIndent, ← isPlainLine.eq_1]
  cases isPlainLine t spans line && (nestingAt t spans line).brackets ≤ 0 && t.charAt (t.lineIndentEnd line) != '#' with
  | false => rfl
  | true => simp [ite_not]

theorem planLines_eq (t : Text) (spans : Spans) (unit : IndentUnit) (line n : Nat) :
    planLines t spans unit (nestingAt t spans line) (List.range' line n) =
      (List.range' line n).filterMap (changeAt? t spans unit) := by
  induction n generalizing line with
  | zero => rfl
  | succ n ih =>
    rw [List.range'_succ, planLines, planLine_eq, List.filterMap_cons]
    cases changeAt? t spans unit line with
    | none => exact ih (line + 1)
    | some change => exact congrArg (change :: ·) (ih (line + 1))

/-- **The plan** holds what is said about each line, in order. -/
theorem planReindent_eq (t : Text) (spans : Spans) (unit : IndentUnit) :
    planReindent t spans unit = (List.range t.lineCount).filterMap (changeAt? t spans unit) := by
  rw [planReindent, List.range_eq_range']
  exact planLines_eq t spans unit 0 _

/-- a line in the plan gets a level, and has other blanks than those of that level -/
theorem changeAt?_eq_some {line : Nat} {change : LineIndent} (h : changeAt? t spans unit line = some change) :
    ∃ level, levelAt? t spans line = some level ∧ t.lineIndent line ≠ unit.levels level ∧
    change = ⟨line, unit.levels level⟩ := by
  obtain ⟨level, hlevel, hchange⟩ := Option.bind_eq_some_iff.1 h
  split_ifs at hchange with hne
  exact ⟨level, hlevel, hne, (Option.some.inj hchange).symm⟩

theorem planReindent_eq_nil_iff : planReindent t spans unit = [] ↔
    ∀ line < t.lineCount, ∀ level, levelAt? t spans line = some level → t.lineIndent line = unit.levels level := by
  rw [planReindent_eq, List.filterMap_eq_nil_iff]
  simp only [List.mem_range, changeAt?, Option.bind_eq_none_iff, ite_eq_left_iff, reduceCtorEq, imp_false, not_not]

/-- a line that gets a level has more than blanks -/
theorem allBlank_of_levelAt? {line level : Nat} (hline : line < t.lineCount) (h : levelAt? t spans line = some level) :
    (t.lineText line).allBlank = false := by
  have hplain : isPlainLine t spans line = true := by
    simp only [levelAt?] at h
    split_ifs at h with hcond
    simp only [Bool.and_eq_true] at hcond
    exact hcond.1.1
  simp only [isPlainLine, Bool.and_eq_true, bne_iff_ne, ne_eq, lineIndentEnd_eq_lineEnd_iff hline] at hplain
  exact Bool.eq_false_iff.2 hplain.1

/-! ## Carrying it out -/

/-- the text with other blanks on some lines, the last one first -/
def Text.setIndents (t : Text) (plan : List LineIndent) : Text :=
  plan.foldr (fun change t => t.setIndent change.line change.indent) t

/-- the text with the plan for it carried out -/
def Text.reindent (t : Text) (spans : Spans) (unit : IndentUnit) : Text :=
  t.setIndents (planReindent t spans unit)

theorem Buffer.setIndent_text (b : Buffer) (change : LineIndent) :
    (b.setIndent change).text = b.text.setIndent change.line change.indent := by
  have hle := b.text.lineStart_le_length change.line
  have hstart : (b.text.take (b.text.lineStart change.line)).length = b.text.lineStart change.line :=
    length_take_lineStart _ _
  have herased := b.erase_text
    (show b.text.lineStart change.line ≤ b.text.lineIndentEnd change.line from Nat.le_add_right _ _)
  rw [Buffer.setIndent, insert_text, herased, List.take_left' hstart, List.drop_left' hstart]
  rfl

theorem Buffer.setIndents_text (b : Buffer) (plan : List LineIndent) :
    (b.setIndents plan).text = b.text.setIndents plan := by
  induction plan with
  | nil => rfl
  | cons change plan ih =>
    rw [Buffer.setIndents, List.foldr_cons, setIndent_text]
    exact congrArg (Text.setIndent · change.line change.indent) ih

theorem Buffer.reindent_text (b : Buffer) (spans : Spans) (unit : IndentUnit) :
    (b.reindent spans unit).2.text = b.text.reindent spans unit :=
  b.setIndents_text _

/-- the row of a line with the blanks of its level -/
def reindentedRow (t : Text) (spans : Spans) (unit : IndentUnit) (line : Nat) : Text :=
  match levelAt? t spans line with
  | some level => unit.levels level ++ content (t.lineText line)
  | none => t.lineText line

theorem reindentedRow_of_some (unit : IndentUnit) {line level : Nat} (h : levelAt? t spans line = some level) :
    reindentedRow t spans unit line = unit.levels level ++ content (t.lineText line) := by
  rw [reindentedRow, h]

theorem reindentedRow_of_none {line : Nat} (hline : line < t.lineCount) (h : changeAt? t spans unit line = none) :
    reindentedRow t spans unit line = t.lineText line := by
  cases hlevel : levelAt? t spans line with
  | none => rw [reindentedRow, hlevel]
  | some level =>
    have hindent : t.lineIndent line = unit.levels level := by
      rw [changeAt?, hlevel, Option.bind_some] at h
      by_contra hne
      rw [if_neg hne] at h
      cases h
    rw [reindentedRow_of_some unit hlevel, ← hindent, lineIndent_append_content hline]

/-- **Carried out** for some lines from the last to the first, the plan gives these their new rows
and leaves the others. -/
theorem lineText_setIndents {lines : List Nat} (hnodup : lines.Nodup)
    (hlines : ∀ line ∈ lines, line < t.lineCount) :
    let t' := t.setIndents (lines.filterMap (changeAt? t spans unit))
    t'.lineCount = t.lineCount ∧ ∀ k < t.lineCount,
      t'.lineText k = if k ∈ lines then reindentedRow t spans unit k else t.lineText k := by
  induction lines with
  | nil => exact ⟨rfl, fun k _ => rfl⟩
  | cons line lines ih =>
    obtain ⟨hnotin, hnodup⟩ := List.nodup_cons.1 hnodup
    have hline := hlines line List.mem_cons_self
    obtain ⟨hcount, hrows⟩ := ih hnodup fun k hk => hlines k (List.mem_cons_of_mem _ hk)
    set t' := t.setIndents (lines.filterMap (changeAt? t spans unit)) with ht'
    have hrow : t'.lineText line = t.lineText line := by rw [hrows line hline, if_neg hnotin]
    rw [List.filterMap_cons]
    cases hchange : changeAt? t spans unit line with
    | none =>
      refine ⟨hcount, fun k hk => ?_⟩
      rw [hrows k hk]
      by_cases hk' : k = line
      · rw [hk', if_neg hnotin, if_pos List.mem_cons_self, reindentedRow_of_none hline hchange]
      · simp only [List.mem_cons, hk', false_or]
    | some change =>
      obtain ⟨level, hlevel, -, rfl⟩ := changeAt?_eq_some hchange
      have hlt : line < t'.lineCount := hcount.symm ▸ hline
      have hink : (t'.lineText line).allBlank = false := by rw [hrow]; exact allBlank_of_levelAt? hline hlevel
      have hblank := unit.allBlank_levels level
      refine ⟨(lineCount_setIndent hlt hink hblank).trans hcount, fun k hk => ?_⟩
      have hset := lineText_setIndent hlt hink hblank (hcount.symm ▸ hk)
      rw [hrow, hrows k hk, ← reindentedRow_of_some unit hlevel] at hset
      refine hset.trans ?_
      by_cases hk' : k = line
      · rw [if_pos hk', hk', if_pos List.mem_cons_self]
      · simp only [List.mem_cons, hk', false_or, if_false]

section

variable (t : Text) (spans : Spans) (unit : IndentUnit)

theorem lineCount_reindent : (t.reindent spans unit).lineCount = t.lineCount := by
  rw [Text.reindent, planReindent_eq]
  exact (lineText_setIndents List.nodup_range fun _ => List.mem_range.1).1

/-- **Every line** has the blanks of its level, if it gets one, and else it stays. -/
theorem lineText_reindent {k : Nat} (hk : k < t.lineCount) :
    (t.reindent spans unit).lineText k = reindentedRow t spans unit k := by
  rw [Text.reindent, planReindent_eq]
  exact ((lineText_setIndents List.nodup_range fun _ => List.mem_range.1).2 k hk).trans (if_pos (List.mem_range.2 hk))

theorem content_lineText_reindent {k : Nat} (hk : k < t.lineCount) :
    content ((t.reindent spans unit).lineText k) = content (t.lineText k) := by
  rw [lineText_reindent t spans unit hk]
  cases hlevel : levelAt? t spans k with
  | none => rw [reindentedRow, hlevel]
  | some level =>
    rw [reindentedRow_of_some unit hlevel, content_append (unit.allBlank_levels level), content_content]

/-- a line that gets a level has its blanks -/
theorem lineIndent_reindent {k level : Nat} (hk : k < t.lineCount) (h : levelAt? t spans k = some level) :
    (t.reindent spans unit).lineIndent k = unit.levels level := by
  rw [lineIndent_eq (by rwa [lineCount_reindent t spans unit]), lineText_reindent t spans unit hk,
    reindentedRow_of_some unit h, indentation_append_of_allBlank (unit.allBlank_levels level)]

end

end CodeEditor
