import CodeEditor.Indent.Inference
import CodeEditor.Proofs.Outline.Basic
import CodeEditor.Proofs.Text.Lines
import CodeEditor.Proofs.Text.Pieces
/-!
The pass over lines of plain code.

A line of words and brackets, without quotes, comments, labels and directives, is read as a whole: what the pass
counts depends on the depth of the line, on whether it starts with a closing brace and on whether it ends in an
opening one. `LineScan` is the pass over such lines in levels of indentation, and the pass over the characters
follows it (`run_lines`).
-/

namespace CodeEditor

/-- quotes, and what comment marks are made of -/
def isMark (c : Char) : Bool :=
  c == '\'' || c == '"' || c == '/' || c == '*'

/-- the character is none of these, belongs to no label or directive, and is no line feed -/
def isCalm (c : Char) : Bool :=
  !isMark c && c != ':' && c != '#' && c != '\n'

theorem isMark_of_isCalm {c : Char} (h : isCalm c = true) : isMark c = false := by
  simp only [isCalm, Bool.and_eq_true, Bool.not_eq_true'] at h
  exact h.1.1.1

namespace Line

/-- plain code behind the indentation -/
structure Calm (l : Line) : Prop where
  starts : ∃ c rest, l.content = c :: rest ∧ isBlank c = false
  calm : ∀ c ∈ l.content, isCalm c = true

/-- the line starts with a closing brace -/
def closes (l : Line) : Bool :=
  l.content.head? == some '}'

/-- the line ends in an opening brace -/
def opens (l : Line) : Bool :=
  (l.content.filter (!isBlank ·)).getLast? == some '{'

end Line

/-! ## The pass in levels -/

/-- what the pass knows between two lines, in levels of indentation -/
structure LineScan where
  baseline : Int
  lastChange : Option Nat
  /-- the changes so far, newest first -/
  changes : List Nat
  /-- counted levels -/
  levels : Nat
  /-- the line above ends in an opening brace -/
  afterOpener : Bool
  deriving DecidableEq, Repr

namespace LineScan

/-- before the first line -/
def initial : LineScan :=
  ⟨0, none, [], 0, false⟩

/-- the indentation of a line counts behind an opening brace -/
def enter (s : LineScan) (depth : Nat) : LineScan :=
  if s.afterOpener then
    { baseline := depth
      lastChange := some (s.baseline - depth).natAbs
      changes := if s.baseline = depth then s.changes else (s.baseline - depth).natAbs :: s.changes
      levels := s.levels + depth
      afterOpener := false }
  else s

/-- a closing brace at the start of a line takes the last change back -/
def leave (s : LineScan) (l : Line) : LineScan :=
  { s with
    baseline := if l.closes then s.baseline - s.lastChange.getD 0 else s.baseline
    afterOpener := l.opens }

/-- read a line -/
def read (s : LineScan) (l : Line) : LineScan :=
  (s.enter l.depth).leave l

/-- read lines -/
def run (s : LineScan) (ls : List Line) : LineScan :=
  ls.foldl read s

end LineScan

namespace Tally

/-- count some blanks of one kind -/
def countBlanks (h : Tally) (c : Char) (n : Nat) : Tally :=
  if c = '\t' then { h with tabs := h.tabs + n } else { h with spaces := h.spaces + n }

end Tally

/-! ## One character -/

namespace BraceScan

variable {t : Text} {s : BraceScan} {offset : Nat}

/-- nothing is open between two lines of plain code -/
structure Calm (s : BraceScan) : Prop where
  quotes : s.quotes = .none
  lineComment : s.lineComment = false
  blockComment : s.blockComment = false

/-- the state in which the character at `offset` is read -/
def entered (t : Text) (s : BraceScan) (offset : Nat) : BraceScan :=
  if t.startsLine offset then s.enterLine else s

/-- read the indentation at `offset` -/
def readIndent (t : Text) (s : BraceScan) (offset : Nat) : BraceScan :=
  match s.afterOpener, s.leading with
  | true, some leading =>
    if isBlank (t.charAt offset) then
      { s with tally := s.tally.countBlank (t.charAt offset), leading := some (leading + 1) }
    else s.countLine leading
  | _, _ => s

theorem readMarks_calm (hs : s.Calm) (hmark : isMark (t.charAt offset) = false) :
    s.readMarks t offset = (s, offset) := by
  simp only [isMark, Bool.or_eq_false_iff, beq_eq_false_iff_ne, ne_eq] at hmark
  obtain ⟨⟨⟨hquote, hdouble⟩, hslash⟩, hstar⟩ := hmark
  have hread : s.quotes.read t offset = (false, s.quotes) := by simp [OpenQuotes.read, hquote, hdouble]
  have hany : s.quotes.any = false := by rw [hs.quotes]; rfl
  simp [readMarks, hread, hany, hslash, hstar]

theorem readIndent_calm (h : s.Calm) (t : Text) (offset : Nat) : (s.readIndent t offset).Calm := by
  obtain ⟨hquotes, hline, hblock⟩ := h
  unfold readIndent
  split
  · split_ifs
    · exact ⟨hquotes, hline, hblock⟩
    · exact ⟨hquotes, hline, hblock⟩
  · exact ⟨hquotes, hline, hblock⟩

/-- **One character of plain code** is read as indentation, and then as code. -/
theorem run_char (hlt : offset < t.length) (hmark : isMark (t.charAt offset) = false)
    (hs : (entered t s offset).Calm)
    (hlabel : (entered t s offset).leading.isSome → isBlank (t.charAt offset) = false →
      t.endsLine offset = false ∧ isLabelOrDirective t offset = false) :
    run t s offset = run t (((entered t s offset).readIndent t offset).readCode t offset) (offset + 1) := by
  have hmarks := readMarks_calm (readIndent_calm hs t offset) hmark
  have hentered : (if t.startsLine offset then s.enterLine else s) = entered t s offset := rfl
  rw [run, dif_neg (Nat.not_le_of_lt hlt)]
  simp only [hentered]
  generalize entered t s offset = s at *
  unfold readIndent at hmarks ⊢
  cases hopener : s.afterOpener with
  | false => simp only [hopener] at hmarks ⊢; rw [hmarks, max_self]
  | true =>
    cases hleading : s.leading with
    | none => simp only [hopener, hleading] at hmarks ⊢; rw [hmarks, max_self]
    | some leading =>
      simp only [hopener, hleading] at hmarks ⊢
      cases hblank : isBlank (t.charAt offset) with
      | true => simp only [hblank, if_true] at hmarks ⊢; rw [hmarks, max_self]
      | false =>
        obtain ⟨hends, hplain⟩ := hlabel (by rw [hleading]; rfl) hblank
        simp only [hblank, hends, hplain, Bool.false_eq_true, if_false] at hmarks ⊢
        rw [hmarks, max_self]

/-- entering a line again changes nothing -/
theorem run_entered (hlt : offset < t.length) : run t (entered t s offset) offset = run t s offset := by
  have hagain : entered t (entered t s offset) offset = entered t s offset := by
    unfold entered
    split_ifs <;> rfl
  rw [run, run.eq_def t s, dif_neg (Nat.not_le_of_lt hlt), dif_neg (Nat.not_le_of_lt hlt)]
  simp only [← entered.eq_1, hagain]

/-- a blank is no code -/
theorem readCode_blank (h : isBlank (t.charAt offset) = true) : s.readCode t offset = s := by
  have hbrace : t.charAt offset ≠ '}' := by
    intro hc
    rw [hc] at h
    cases h
  obtain ⟨tally, quotes, leading, baseline, lastChange, lineComment, blockComment, afterOpener, lastCode⟩ := s
  cases lastChange <;> simp [readCode, h, hbrace]

/-- behind the indentation, only the last character of code counts -/
theorem readCode_rest (hs : s.Calm) (hleading : s.leading = none) :
    s.readCode t offset =
      { s with
        lastCode := if isBlank (t.charAt offset) || t.endsLine offset then s.lastCode
          else some (t.charAt offset) } := by
  obtain ⟨hquotes, hline, hblock⟩ := hs
  have hany : s.quotes.any = false := by rw [hquotes]; rfl
  cases hchange : s.lastChange <;> cases hblank : isBlank (t.charAt offset) <;> cases hends : t.endsLine offset <;>
    simp [readCode, hleading, hany, hline, hblock, hchange, hblank, hends]

/-- the first character of code; a closing brace there takes the last change back -/
theorem readCode_first (hs : s.Calm) (hblank : isBlank (t.charAt offset) = false) (hends : t.endsLine offset = false)
    (hleading : s.leading.isSome = true) :
    s.readCode t offset =
      { s with
        lastCode := some (t.charAt offset)
        baseline := if t.charAt offset = '}' then s.baseline - (s.lastChange.getD 0 : Nat) else s.baseline
        leading := none } := by
  obtain ⟨hquotes, hline, hblock⟩ := hs
  have hany : s.quotes.any = false := by rw [hquotes]; rfl
  unfold readCode
  cases hchange : s.lastChange <;> simp [hblank, hends, hleading, hany, hline, hblock]

theorem entered_of_not_startsLine (h : t.startsLine offset = false) : entered t s offset = s := by
  rw [entered, h, if_neg Bool.false_ne_true]

/-! ## One line -/

variable {a z : Text}

/-- leading blanks, which are counted if the line is -/
def count (s : BraceScan) (ch : Char) (n : Nat) : BraceScan :=
  if s.afterOpener then { s with tally := s.tally.countBlanks ch n, leading := s.leading.map (· + n) } else s

theorem count_zero (s : BraceScan) (ch : Char) : s.count ch 0 = s := by
  obtain ⟨tally, quotes, leading, baseline, lastChange, lineComment, blockComment, afterOpener, lastCode⟩ := s
  cases leading <;> simp [count, Tally.countBlanks]

theorem count_count (s : BraceScan) (ch : Char) (m n : Nat) : (s.count ch m).count ch n = s.count ch (m + n) := by
  obtain ⟨tally, quotes, leading, baseline, lastChange, lineComment, blockComment, afterOpener, lastCode⟩ := s
  cases afterOpener with
  | false => simp [count]
  | true => cases leading <;> by_cases hch : ch = '\t' <;> simp [count, Tally.countBlanks, hch, add_assoc]

theorem Calm.count (hs : s.Calm) (ch : Char) (n : Nat) : (s.count ch n).Calm := by
  obtain ⟨hquotes, hline, hblock⟩ := hs
  unfold BraceScan.count
  split_ifs
  · exact ⟨hquotes, hline, hblock⟩
  · exact ⟨hquotes, hline, hblock⟩

/-- one leading blank -/
theorem readIndent_blank {k : Nat} (hleading : s.leading = some k) (hblank : isBlank (t.charAt offset) = true) :
    s.readIndent t offset = s.count (t.charAt offset) 1 := by
  unfold readIndent count
  cases hopener : s.afterOpener with
  | false => simp
  | true => simp [hleading, hblank, Tally.countBlank, Tally.countBlanks]

/-- behind the indentation there is none to read -/
theorem readIndent_rest (hleading : s.leading = none) : s.readIndent t offset = s := by
  unfold readIndent
  cases s.afterOpener <;> simp only [hleading]

/-- the indentation of a line -/
theorem run_blanks {ch : Char} (hch : isBlank ch = true) {n k : Nat} (ht : t = a ++ (List.replicate n ch ++ z))
    (hentered : entered t s a.length = s) (hs : s.Calm) (hleading : s.leading = some k) :
    run t s a.length = run t (s.count ch n) (a.length + n) ∧
    entered t (s.count ch n) (a.length + n) = s.count ch n := by
  induction n generalizing a s k with
  | zero => rw [count_zero]; exact ⟨rfl, hentered⟩
  | succ n ih =>
    rw [List.replicate_succ, List.cons_append] at ht
    have hchar : t.charAt a.length = ch := by rw [ht, Text.charAt_seam]
    have hread : (s.readIndent t a.length).readCode t a.length = s.count ch 1 := by
      rw [readIndent_blank hleading (by rw [hchar]; exact hch), readCode_blank (by rw [hchar]; exact hch), hchar]
    have hmark : isMark ch = false := by
      rcases (by simpa [isBlank] using hch : ch = ' ' ∨ ch = '\t') with rfl | rfl <;> rfl
    have hstep : run t s a.length = run t (s.count ch 1) (a.length + 1) := by
      have hone := run_char (s := s) (ht ▸ Text.length_lt_seam _ _ _) (by rw [hchar]; exact hmark)
        (by rw [hentered]; exact hs) (by rw [hchar, hch]; intro _ h; cases h)
      rwa [hentered, hread] at hone
    have ht' : t = (a ++ [ch]) ++ (List.replicate n ch ++ z) := by rw [ht, List.append_assoc, List.singleton_append]
    have hlf : ch ≠ '\n' := by rintro rfl; cases hch
    have hstart : t.startsLine (a ++ [ch]).length = false := by
      rw [ht', Text.startsLine_seam, Text.endsInLineFeed_concat, beq_eq_false_iff_ne]
      exact hlf
    have hleading' : (s.count ch 1).leading = some (if s.afterOpener then k + 1 else k) := by
      unfold count
      split_ifs <;> simp [hleading]
    obtain ⟨hrun, hdone⟩ := ih ht' (entered_of_not_startsLine hstart) (hs.count ch 1) hleading'
    rw [List.length_append, List.length_singleton, add_assoc, count_count, Nat.add_comm 1 n] at hrun hdone
    exact ⟨hstep.trans hrun, hdone⟩

/-- what stands behind the first character of code -/
theorem run_rest {u : Text} (hu : ∀ c ∈ u, isCalm c = true) (ht : t = a ++ (u ++ z)) (hstart : a.endsInLineFeed = false)
    (hs : s.Calm) (hleading : s.leading = none) :
    run t s a.length =
      run t { s with lastCode := (u.filter (!isBlank ·)).getLast?.or s.lastCode } (a.length + u.length) := by
  induction u generalizing a s with
  | nil => rfl
  | cons c u ih =>
    rw [List.cons_append] at ht
    have hchar : t.charAt a.length = c := by rw [ht, Text.charAt_seam]
    have hcalm : isCalm c = true := hu c List.mem_cons_self
    have hlf : (c == '\n') = false := beq_eq_false_iff_ne.2 (ne_of_class hcalm rfl)
    have hentered : entered t s a.length = s := entered_of_not_startsLine (by rw [ht, Text.startsLine_seam, hstart])
    have hstep := run_char (s := s) (ht ▸ Text.length_lt_seam _ _ _) (by rw [hchar]; exact isMark_of_isCalm hcalm)
      (by rw [hentered]; exact hs) (by rw [hentered, hleading]; intro h; cases h)
    rw [hentered, readIndent_rest hleading, readCode_rest hs hleading, hchar, ht, Text.endsLine_seam, ← ht, hlf,
      Bool.or_false] at hstep
    have ht' : t = (a ++ [c]) ++ (u ++ z) := by rw [ht, List.append_assoc, List.singleton_append]
    have hrest := ih (fun d hd => hu d (List.mem_cons_of_mem _ hd)) ht' (by rw [Text.endsInLineFeed_concat, hlf])
      (s := { s with lastCode := if isBlank c then s.lastCode else some c })
        ⟨hs.quotes, hs.lineComment, hs.blockComment⟩ hleading
    have hlast : ((c :: u).filter (!isBlank ·)).getLast?.or s.lastCode =
        (u.filter (!isBlank ·)).getLast?.or (if isBlank c then s.lastCode else some c) := by
      cases hblank : isBlank c with
      | true => simp [hblank]
      | false =>
        rw [List.filter_cons_of_pos (by simp [hblank]), List.getLast?_cons]
        cases (u.filter (!isBlank ·)).getLast? <;> rfl
    rw [hstep, hlast, List.length_cons, Nat.add_comm u.length, ← add_assoc]
    rwa [List.length_append, List.length_singleton] at hrest

/-- the line feed behind a line -/
theorem run_lineFeed (ht : t = a ++ '\n' :: z) (hstart : a.endsInLineFeed = false) (hs : s.Calm)
    (hleading : s.leading = none) :
    run t s a.length = run t s (a.length + 1) := by
  have hchar : t.charAt a.length = '\n' := by rw [ht, Text.charAt_seam]
  have hends : t.endsLine a.length = true := by rw [ht, Text.endsLine_seam]; rfl
  have hentered : entered t s a.length = s := entered_of_not_startsLine (by rw [ht, Text.startsLine_seam, hstart])
  have hstep := run_char (s := s) (ht ▸ Text.length_lt_seam _ _ _) (by rw [hchar]; rfl) (by rw [hentered]; exact hs)
    (by rw [hentered, hleading]; intro h; cases h)
  rw [hentered, readIndent_rest hleading, readCode_rest hs hleading, hends, Bool.or_true, if_pos rfl] at hstep
  exact hstep

/-- plain code is no label and no directive -/
theorem isLabelOrDirective_calm {u : Text} (hne : u ≠ []) (hu : ∀ c ∈ u, isCalm c = true)
    (hz : z.startsWithLineFeed = true) :
    isLabelOrDirective (a ++ (u ++ z)) a.length = false := by
  have hline : ((a ++ (u ++ z)).drop a.length).takeWhile (· != '\n') = u := by
    rw [List.drop_left, List.takeWhile_append_of_pos fun c hc => by simpa using ne_of_class (hu c hc) rfl]
    cases z with
    | nil => simp
    | cons d z => simp_all
  obtain ⟨c, u, rfl⟩ := List.exists_cons_of_ne_nil hne
  have hhash : c ≠ '#' := ne_of_class (hu c List.mem_cons_self) rfl
  have hcolon : (((c :: u).takeWhile (· != '(')).filter (!isBlank ·)).getLast? ≠ some ':' := by
    intro hlast
    have hmem := (List.takeWhile_sublist _).subset (List.mem_filter.1 (List.mem_of_getLast? hlast)).1
    exact ne_of_class (hu _ hmem) rfl rfl
  unfold isLabelOrDirective
  simp only [hline, List.head?_cons]
  rw [Bool.or_eq_false_iff, Bool.and_eq_false_iff]
  exact ⟨by simpa using hhash, Or.inr (beq_eq_false_iff_ne.2 hcolon)⟩

/-- the first character of code, behind `leading` blanks -/
def begin (s : BraceScan) (leading : Nat) (c : Char) : BraceScan :=
  let s := if s.afterOpener then s.countLine leading else s
  { s with
    lastCode := some c
    baseline := if c = '}' then s.baseline - (s.lastChange.getD 0 : Nat) else s.baseline
    leading := none }

theorem Calm.begin (hs : s.Calm) (leading : Nat) (c : Char) : (s.begin leading c).Calm := by
  obtain ⟨hquotes, hline, hblock⟩ := hs
  unfold BraceScan.begin
  cases s.afterOpener with
  | false => exact ⟨hquotes, hline, hblock⟩
  | true => exact ⟨hquotes, hline, hblock⟩

/-- the code of a line, from its first character on -/
theorem run_code {c : Char} {u : Text} {k : Nat} (hblank : isBlank c = false) (hcalm : ∀ d ∈ c :: u, isCalm d = true)
    (ht : t = a ++ (c :: u ++ z)) (hz : z.startsWithLineFeed = true) (hentered : entered t s a.length = s) (hs : s.Calm)
    (hleading : s.leading = some k) :
    run t s a.length =
      run t { s.begin k c with lastCode := ((c :: u).filter (!isBlank ·)).getLast? } (a.length + (c :: u).length) := by
  have hchar : t.charAt a.length = c := by rw [ht, List.cons_append, Text.charAt_seam]
  have hlf : (c == '\n') = false := beq_eq_false_iff_ne.2 (ne_of_class (hcalm c List.mem_cons_self) rfl)
  have hends : t.endsLine a.length = false := by rw [ht, List.cons_append, Text.endsLine_seam, hlf]
  have hlabel : isLabelOrDirective t a.length = false := by
    rw [ht]
    exact isLabelOrDirective_calm (List.cons_ne_nil _ _) hcalm hz
  have hindent : s.readIndent t a.length = if s.afterOpener then s.countLine k else s := by
    unfold readIndent
    rw [hleading, hchar, hblank]
    cases s.afterOpener <;> rfl
  have hindented : (s.readIndent t a.length).leading.isSome = true := by
    rw [hindent]
    split_ifs <;> simp [countLine, hleading]
  have hfirst := run_char (s := s) (by rw [ht]; simp)
    (by rw [hchar]; exact isMark_of_isCalm (hcalm c List.mem_cons_self)) (by rw [hentered]; exact hs)
    (fun _ _ => ⟨hends, hlabel⟩)
  rw [hentered, readCode_first (readIndent_calm hs _ _) (by rw [hchar]; exact hblank) hends hindented, hindent,
    hchar] at hfirst
  have ht' : t = (a ++ [c]) ++ (u ++ z) := by rw [ht, List.append_assoc]; rfl
  have hrest := run_rest (fun d hd => hcalm d (List.mem_cons_of_mem _ hd)) ht' (by rw [Text.endsInLineFeed_concat, hlf])
    (hs.begin k c) rfl
  have hlast : (u.filter (!isBlank ·)).getLast?.or (some c) = ((c :: u).filter (!isBlank ·)).getLast? := by
    rw [List.filter_cons_of_pos (by simp [hblank]), List.getLast?_cons]
    cases (u.filter (!isBlank ·)).getLast? <;> rfl
  rw [List.length_append, List.length_singleton] at hrest
  rw [hfirst, List.length_cons, Nat.add_comm u.length, ← add_assoc, ← hlast]
  exact hrest

/-- the pass over the characters has counted what the pass in levels has -/
structure Counts (unit : IndentUnit) (s : BraceScan) (l : LineScan) : Prop where
  baseline : s.baseline = unit.width * l.baseline
  lastChange : s.lastChange = l.lastChange.map (unit.width * ·)
  changes : s.tally.changes = l.changes.map (unit.width * ·)
  spaces : s.tally.spaces = if unit.ch = '\t' then 0 else unit.width * l.levels
  tabs : s.tally.tabs = if unit.ch = '\t' then unit.width * l.levels else 0

/-- the blanks in front of a line that counts, as levels -/
theorem Counts.countLine {unit : IndentUnit} {l : LineScan} (hs : s.Counts unit l)
    (hopener : s.afterOpener = true) (hafter : l.afterOpener = true) (depth : Nat) :
    ((s.count unit.ch (unit.width * depth)).countLine (unit.width * depth)).Counts unit (l.enter depth) := by
  obtain ⟨hbaseline, hchange, hchanges, hspaces, htabs⟩ := hs
  have hsame : s.baseline = ↑(unit.width * depth) ↔ l.baseline = depth := by
    have hpos := unit.pos
    rw [hbaseline, Nat.cast_mul]
    exact mul_right_inj' (by omega)
  have hdiff : (s.baseline - ↑(unit.width * depth)).natAbs = unit.width * (l.baseline - depth).natAbs := by
    rw [hbaseline, Nat.cast_mul, ← mul_sub, Int.natAbs_mul, Int.natAbs_natCast]
  rw [LineScan.enter, if_pos hafter, count, if_pos hopener]
  constructor
  · exact Nat.cast_mul _ _
  · exact congrArg some hdiff
  · simp only [BraceScan.countLine, Tally.note, Tally.countBlanks, hsame, hdiff]
    split_ifs <;> simp [hchanges]
  · simp only [BraceScan.countLine, Tally.note, Tally.countBlanks]
    split_ifs <;> simp_all [mul_add]
  · simp only [BraceScan.countLine, Tally.note, Tally.countBlanks]
    split_ifs <;> simp_all [mul_add]

/-- the blanks in front of any line -/
theorem Counts.enter {unit : IndentUnit} {l : LineScan} (hs : s.Counts unit l)
    (hopener : s.afterOpener = l.afterOpener) (depth k : Nat) (hk : l.afterOpener = true → k = unit.width * depth) :
    let s' := s.count unit.ch (unit.width * depth)
    (if s'.afterOpener then s'.countLine k else s').Counts unit (l.enter depth) := by
  intro s'
  have hsame : s'.afterOpener = l.afterOpener := by
    simp only [s', count]
    split_ifs <;> exact hopener
  cases hafter : l.afterOpener with
  | false =>
    have hcount : s' = s := by rw [hafter] at hopener; simp [s', count, hopener]
    rw [hsame, hafter, if_neg Bool.false_ne_true, hcount, LineScan.enter, hafter, if_neg Bool.false_ne_true]
    exact hs
  | true =>
    rw [hsame, hafter, if_pos rfl, hk hafter]
    exact hs.countLine (hopener.trans hafter) hafter depth

/-- the first character of the code of a line -/
theorem Counts.begin {unit : IndentUnit} {ls : LineScan} {k : Nat}
    (hs : (if s.afterOpener then s.countLine k else s).Counts unit ls) (l : Line) {c : Char} {u : Text}
    (hcontent : l.content = c :: u) : (s.begin k c).Counts unit (ls.leave l) := by
  have hcloses : l.closes = (c == '}') := by rw [Line.closes, hcontent]; rfl
  unfold BraceScan.begin
  generalize (if s.afterOpener then s.countLine k else s) = s at *
  obtain ⟨hbaseline, hchange, hchanges, hspaces, htabs⟩ := hs
  refine ⟨?_, hchange, hchanges, hspaces, htabs⟩
  rw [LineScan.leave, hcloses]
  by_cases hc : c = '}'
  · simp only [hc, beq_self_eq_true, if_true, hbaseline, hchange]
    cases ls.lastChange with
    | none => simp
    | some d => simp [mul_sub]
  · simp only [hc, beq_false_of_ne hc, Bool.false_eq_true, if_false, hbaseline]

/-- between two lines, the pass over the characters follows the one in levels -/
structure Follows (unit : IndentUnit) (s : BraceScan) (l : LineScan) : Prop extends s.Counts unit l where
  blockComment : s.blockComment = false
  afterOpener : (s.lastCode == some '{') = l.afterOpener

/-- **A line of plain code** is read as a whole. -/
theorem run_line {unit : IndentUnit} {l : Line} (hl : l.Calm)
    {ls : LineScan} (ht : t = a ++ (l.text unit ++ z)) (hstart : a.endsInLineFeed = true)
    (hz : z.startsWithLineFeed = true) (hs : s.Follows unit ls) :
    ∃ s', run t s a.length = run t s' (a.length + (l.text unit).length) ∧ s'.Calm ∧ s'.leading = none ∧
      s'.Follows unit (ls.read l) := by
  obtain ⟨c, u, hcontent, hblank⟩ := hl.starts
  set n := unit.width * l.depth with hn
  have hcalm : ∀ d ∈ c :: u, isCalm d = true := hcontent ▸ hl.calm
  have htext : l.text unit = List.replicate n unit.ch ++ (c :: u) := by rw [Line.text, hcontent]; rfl
  rw [htext] at ht ⊢
  have hlt : a.length < t.length := by rw [ht]; simp
  have hentered (s : BraceScan) : entered t s a.length = s.enterLine := by
    rw [entered, ht, Text.startsLine_seam, hstart, if_pos rfl]
  have hs1 : s.enterLine.Calm := ⟨rfl, rfl, hs.blockComment⟩
  have hafter : s.enterLine.afterOpener = ls.afterOpener := hs.afterOpener
  have hcounts : s.enterLine.Counts unit ls := ⟨hs.baseline, hs.lastChange, hs.changes, hs.spaces, hs.tabs⟩
  -- the indentation
  obtain ⟨hblanks, hseam⟩ := run_blanks (n := n) (z := c :: u ++ z) unit.blank (by rw [ht, List.append_assoc])
    (hentered s.enterLine) hs1 rfl
  have hleading : (s.enterLine.count unit.ch n).leading = some (if ls.afterOpener then n else 0) := by
    rw [count, hafter]
    cases ls.afterOpener with
    | false => rfl
    | true => simp [enterLine]
  -- the code
  have ht' : t = (a ++ List.replicate n unit.ch) ++ (c :: u ++ z) := by rw [ht]; simp only [List.append_assoc]
  have hlen : (a ++ List.replicate n unit.ch).length = a.length + n := by simp
  rw [← hlen] at hblanks hseam
  have hcode := run_code hblank hcalm ht' hz hseam (hs1.count _ _) hleading
  have hbegun := (hs1.count unit.ch n).begin (if ls.afterOpener then n else 0) c
  have hcounted := (hcounts.enter hafter l.depth (if ls.afterOpener then n else 0) fun h => if_pos h).begin l hcontent
  rw [← run_entered hlt, hentered, hblanks, hcode, hlen, add_assoc, List.length_append, List.length_replicate]
  refine ⟨_, rfl, ⟨hbegun.quotes, hbegun.lineComment, hbegun.blockComment⟩, rfl,
    ⟨⟨hcounted.baseline, hcounted.lastChange, hcounted.changes, hcounted.spaces, hcounted.tabs⟩,
      hbegun.blockComment, ?_⟩⟩
  change _ = l.opens
  rw [Line.opens, hcontent]

/-! ## Lines -/

/-- a line of plain code does not end in a line feed -/
theorem endsInLineFeed_line {l : Line} (hl : l.Calm) (unit : IndentUnit) (a : Text) :
    (a ++ l.text unit).endsInLineFeed = false := by
  obtain ⟨c, u, hcontent, -⟩ := hl.starts
  have hne : l.content ≠ [] := by rw [hcontent]; exact List.cons_ne_nil _ _
  obtain ⟨v, d, hlast⟩ : ∃ v d, l.content = v ++ [d] := ⟨_, _, (List.dropLast_append_getLast hne).symm⟩
  have hd : isCalm d = true := hl.calm d (by rw [hlast]; simp)
  rw [Line.text, hlast, ← List.append_assoc, ← List.append_assoc, Text.endsInLineFeed_concat, beq_eq_false_iff_ne]
  exact ne_of_class hd rfl

/-- lines of plain code, a line feed behind each -/
theorem run_lines {unit : IndentUnit} {lines : List Line}
    (hlines : ∀ l ∈ lines, l.Calm) {ls : LineScan}
    (ht : t = a ++ (lines.flatMap (fun l => l.text unit ++ ['\n']) ++ z)) (hstart : a.endsInLineFeed = true)
    (hs : s.Follows unit ls) :
    ∃ s', run t s a.length = run t s' (a ++ lines.flatMap fun l => l.text unit ++ ['\n']).length ∧
      s'.Follows unit (ls.run lines) := by
  induction lines generalizing a s ls with
  | nil => exact ⟨s, by simp, hs⟩
  | cons l lines ih =>
    have hl := hlines l List.mem_cons_self
    set rest := lines.flatMap fun l => l.text unit ++ ['\n'] with hrest
    rw [List.flatMap_cons, ← hrest] at ht ⊢
    have ht1 : t = a ++ (l.text unit ++ '\n' :: (rest ++ z)) := by rw [ht]; simp
    obtain ⟨s1, hrun1, hcalm1, hleading1, hs1⟩ := run_line hl ht1 hstart rfl hs
    have ht2 : t = (a ++ l.text unit) ++ '\n' :: (rest ++ z) := by rw [ht]; simp
    have hrun2 := run_lineFeed ht2 (endsInLineFeed_line hl unit a) hcalm1 hleading1
    have ht3 : t = (a ++ l.text unit ++ ['\n']) ++ (rest ++ z) := by rw [ht]; simp
    obtain ⟨s', hrun3, hs'⟩ := ih (fun l' hl' => hlines l' (List.mem_cons_of_mem _ hl')) ht3
      (by rw [Text.endsInLineFeed_concat]; rfl) hs1
    refine ⟨s', ?_, hs'⟩
    rw [hrun1, ← List.length_append, hrun2]
    simpa [List.append_assoc, add_assoc] using hrun3

theorem intercalate_concat (us : List Text) (u : Text) :
    ['\n'].intercalate (us ++ [u]) = us.flatMap (· ++ ['\n']) ++ u := by
  induction us with
  | nil => simp [List.intercalate]
  | cons v us ih =>
    obtain ⟨w, ws, hws⟩ : ∃ w ws, us ++ [u] = w :: ws := List.exists_cons_of_ne_nil (by simp)
    rw [List.cons_append, hws, List.intercalate_cons_cons, ← hws, ih, List.flatMap_cons]
    simp

/-- **The pass over plain code**: the lines, with or without a line feed at the end, are counted in levels. -/
theorem run_layout {unit : IndentUnit} {lines : List Line}
    (hlines : ∀ l ∈ lines, l.Calm) {tail : Text} (htail : tail = [] ∨ tail = ['\n']) (hne : lines ≠ []) :
    (initial.run (['\n'].intercalate (lines.map (Line.text unit)) ++ tail) 0).Counts unit
      (LineScan.initial.run lines) := by
  obtain ⟨lines, l, rfl⟩ : ∃ ls l, lines = ls ++ [l] := ⟨_, _, (List.dropLast_append_getLast hne).symm⟩
  set init := lines.flatMap fun l => l.text unit ++ ['\n'] with hinit
  set t := ['\n'].intercalate ((lines ++ [l]).map (Line.text unit)) ++ tail with ht
  have hl := hlines l (by simp)
  have hsplit : t = init ++ (l.text unit ++ tail) := by
    rw [ht, List.map_append, List.map_singleton, intercalate_concat, List.flatMap_map, hinit, List.append_assoc]
  have hinitial : initial.Follows unit .initial := by
    refine ⟨⟨(mul_zero _).symm, rfl, rfl, ?_, ?_⟩, rfl, rfl⟩ <;> split_ifs <;> rfl
  obtain ⟨s1, hrun1, hs1⟩ := run_lines (fun l' hl' => hlines l' (List.mem_append_left _ hl'))
    (a := []) (z := l.text unit ++ tail) hsplit rfl hinitial
  have hstart : Text.endsInLineFeed init = true := by
    rcases List.eq_nil_or_concat lines with rfl | ⟨ls, l', rfl⟩
    · rfl
    · rw [hinit, List.concat_eq_append, List.flatMap_append, List.flatMap_singleton, ← List.append_assoc,
        Text.endsInLineFeed_concat]
      rfl
  obtain ⟨s2, hrun2, hcalm2, hleading2, hs2⟩ := run_line hl hsplit hstart (by rcases htail with rfl | rfl <;> rfl) hs1
  have hrun : initial.run t 0 = s2.run t (init.length + (l.text unit).length) := hrun1.trans hrun2
  rw [← List.length_append] at hrun
  have hread : LineScan.initial.run (lines ++ [l]) = (LineScan.initial.run lines).read l := List.foldl_append ..
  have hend : ∀ {offset}, t.length ≤ offset → s2.run t offset = s2 := fun h => by rw [run, dif_pos h]
  rw [hread, hrun]
  rcases htail with rfl | rfl
  · rw [hend (by rw [hsplit, List.append_nil])]
    exact hs2.toCounts
  · rw [run_lineFeed (z := []) (by rw [hsplit, List.append_assoc]) (endsInLineFeed_line hl unit init) hcalm2 hleading2,
      hend (by rw [hsplit]; simp [add_assoc])]
    exact hs2.toCounts

end BraceScan

end CodeEditor
