import CodeEditor.Proofs.Indent.CalmLines
import CodeEditor.Proofs.Outline.Basic
/-!
The indent unit of a program.

A program whose lines all stand at their depth is read in levels, so the width found is a multiple of the width it was
laid out with, by a factor that only depends on its outline (`inferStyle_layout`). The factor is one as long as the pass
keeps track of the depth. It does if no block ends in an empty one (`run_tidy`): a brace closes a block by taking back
the last change, which is one level, but none behind an empty block. The levels that are not taken back then are lost,
and later blocks change by more than one level (`width_is_doubled`).
-/

namespace CodeEditor

/-! ## Lines of an outline -/

theorem isCalm_of_isAlphabetic {c : Char} (h : isAlphabetic c = true) : isCalm c = true := by
  have hne (d : Char) (hd : isAlphabetic d = false) : c ≠ d := ne_of_class h hd
  simp [isCalm, isMark, hne '\'' rfl, hne '"' rfl, hne '/' rfl, hne '*' rfl, hne ':' rfl, hne '#' rfl, hne '\n' rfl]

namespace Line

/-- a line that starts with a letter and goes on calmly -/
theorem calm_of_letters {depth : Nat} {w : Text} {u : Text} (hne : w ≠ []) (hw : ∀ c ∈ w, isAlphabetic c = true)
    (hu : u.all isCalm = true) : Calm ⟨depth, w ++ u⟩ := by
  obtain ⟨c, w, rfl⟩ := List.exists_cons_of_ne_nil hne
  refine ⟨⟨c, w ++ u, rfl, isBlank_of_isAlphabetic (hw c List.mem_cons_self)⟩, fun d hd => ?_⟩
  rcases List.mem_append.1 hd with hd | hd
  · exact isCalm_of_isAlphabetic (hw d hd)
  · exact List.all_eq_true.1 hu d hd

end Line

namespace Outline

/-- **The lines of an outline are plain code.** -/
theorem lines_calm (p : Outline) (depth : Nat) : ∀ l ∈ p.lines depth, l.Calm := by
  have hsimple (depth : Nat) (word : Word) : (Line.simple depth word).Calm :=
    Line.calm_of_letters word.ne_nil word.alphabetic rfl
  induction p generalizing depth with
  | done => intro l hl; cases hl
  | simple word rest ih =>
    intro l hl
    rcases List.mem_cons.1 hl with rfl | hl
    · exact hsimple depth word
    · exact ih depth l hl
  | headed head condition word rest ih =>
    intro l hl
    rcases List.mem_cons.1 hl with rfl | hl
    · have hcondition : condition.text.all isCalm = true :=
        List.all_eq_true.2 fun c hc => isCalm_of_isAlphabetic (condition.alphabetic c hc)
      have hspace : isCalm ' ' = true := rfl
      have hround : isCalm '(' = true ∧ isCalm ')' = true := ⟨rfl, rfl⟩
      exact Line.calm_of_letters head.ne_nil head.alphabetic (by simp [hspace, hround, hcondition])
    rcases List.mem_cons.1 hl with rfl | hl
    · exact hsimple _ word
    · exact ih depth l hl
  | block header body rest ihbody ihrest =>
    intro l hl
    rcases List.mem_cons.1 hl with rfl | hl
    · exact Line.calm_of_letters header.ne_nil header.alphabetic rfl
    rcases List.mem_append.1 hl with hl | hl
    · exact ihbody (depth + 1) l hl
    rcases List.mem_cons.1 hl with rfl | hl
    · exact ⟨⟨'}', [], rfl, rfl⟩, fun c hc => by rw [List.mem_singleton.1 hc]; rfl⟩
    · exact ihrest depth l hl

end Outline

/-! ## The pass over an outline -/

namespace LineScan

variable {s : LineScan}

theorem run_cons (s : LineScan) (l : Line) (ls : List Line) : s.run (l :: ls) = (s.read l).run ls := rfl

theorem run_append (s : LineScan) (ls ms : List Line) : s.run (ls ++ ms) = (s.run ls).run ms := List.foldl_append ..

theorem enter_of_afterOpener (h : s.afterOpener = false) (depth : Nat) : s.enter depth = s := by
  rw [enter, h, if_neg Bool.false_ne_true]

@[simp] theorem enter_afterOpener (s : LineScan) (depth : Nat) : (s.enter depth).afterOpener = false := by
  cases h : s.afterOpener with
  | false => rw [enter_of_afterOpener h, h]
  | true => rw [enter, if_pos h]

/-- the first line is the one that counts -/
theorem run_enter (s : LineScan) {l : Line} (ls : List Line) : s.run (l :: ls) = (s.enter l.depth).run (l :: ls) := by
  rw [run_cons, run_cons, read, read, enter_of_afterOpener (s.enter_afterOpener _)]

/-- a line that neither closes nor opens a block -/
theorem read_of_plain {l : Line} (hcloses : l.closes = false) (hopens : l.opens = false) :
    s.read l = s.enter l.depth := by
  rw [read, leave, hcloses, hopens, if_neg Bool.false_ne_true, ← s.enter_afterOpener l.depth]

end LineScan

namespace Line

theorem closes_of_letters {depth : Nat} {w u : Text} (hne : w ≠ []) (hw : ∀ c ∈ w, isAlphabetic c = true) :
    closes ⟨depth, w ++ u⟩ = false := by
  obtain ⟨c, w, rfl⟩ := List.exists_cons_of_ne_nil hne
  have hc : c ≠ '}' := ne_of_class (hw c List.mem_cons_self) rfl
  simpa [closes] using hc

/-- the last character decides, if it is no blank -/
theorem opens_concat {depth : Nat} {u : Text} {c : Char} (hc : isBlank c = false) :
    opens ⟨depth, u ++ [c]⟩ = (c == '{') := by
  simp [opens, List.filter_append, hc]

end Line

namespace LineScan

variable {s : LineScan}

theorem read_simple (s : LineScan) (depth : Nat) (word : Word) : s.read (.simple depth word) = s.enter depth :=
  read_of_plain (Line.closes_of_letters word.ne_nil word.alphabetic) (Line.opens_concat rfl)

theorem read_head (s : LineScan) (depth : Nat) (head : Head) (condition : Word) :
    s.read (.head depth head condition) = s.enter depth := by
  refine read_of_plain (Line.closes_of_letters head.ne_nil head.alphabetic) ?_
  have hconcat : Line.head depth head condition = ⟨depth, (head.text ++ ' ' :: '(' :: condition.text) ++ [')']⟩ := by
    simp [Line.head]
  rw [hconcat]
  exact Line.opens_concat rfl

theorem read_opener (s : LineScan) (depth : Nat) (header : Word) :
    s.read (.opener depth header) = { s.enter depth with afterOpener := true } := by
  have hcloses : (Line.opener depth header).closes = false := Line.closes_of_letters header.ne_nil header.alphabetic
  have hconcat : Line.opener depth header = ⟨depth, (header.text ++ [' ']) ++ ['{']⟩ := by simp [Line.opener]
  have hopens : (Line.opener depth header).opens = true := by rw [hconcat]; exact Line.opens_concat rfl
  rw [LineScan.read, leave, hcloses, hopens]
  rfl

/-- behind the opening brace of a block with statements -/
def openBlock (s : LineScan) (depth : Nat) : LineScan :=
  LineScan.enter { s with afterOpener := true } (depth + 1)

/-- behind the closing brace of a block -/
def closeBlock (s : LineScan) : LineScan :=
  { s with baseline := s.baseline - s.lastChange.getD 0, afterOpener := false }

theorem read_closer (s : LineScan) (depth : Nat) : s.read (.closer depth) = (s.enter depth).closeBlock :=
  rfl

/-- no line of an outline is left open -/
theorem run_afterOpener (p : Outline) (depth : Nat) (h : s.afterOpener = false) :
    (s.run (p.lines depth)).afterOpener = false := by
  induction p generalizing s depth with
  | done => exact h
  | simple word rest ih =>
    rw [Outline.lines, run_cons, read_simple]
    exact ih depth (enter_afterOpener _ _)
  | headed head condition word rest ih =>
    rw [Outline.lines, run_cons, run_cons, read_head, read_simple]
    exact ih depth (enter_afterOpener _ _)
  | block header body rest ihbody ihrest =>
    rw [Outline.lines, run_cons, run_append, run_cons, read_closer]
    exact ihrest depth rfl

/-- an empty block -/
theorem run_empty_block (header : Word) (rest : Outline) (depth : Nat) (h : s.afterOpener = false) :
    s.run ((Outline.block header .done rest).lines depth) =
      (LineScan.enter { s with afterOpener := true } depth).closeBlock.run (rest.lines depth) := by
  rw [Outline.lines, run_cons, read_opener, enter_of_afterOpener h, Outline.lines, List.nil_append, run_cons,
    read_closer]

/-- a block with statements -/
theorem run_filled_block (header : Word) {body : Outline} (rest : Outline) (depth : Nat) (h : s.afterOpener = false)
    (hbody : body.isDone = false) :
    s.run ((Outline.block header body rest).lines depth) =
      ((s.openBlock depth).run (body.lines (depth + 1))).closeBlock.run (rest.lines depth) := by
  have hdone : ((s.openBlock depth).run (body.lines (depth + 1))).afterOpener = false :=
    run_afterOpener _ _ (enter_afterOpener _ _)
  obtain ⟨l, ls, hlines, hdepth⟩ := Outline.lines_of_not_isDone hbody (depth + 1)
  rw [Outline.lines, run_cons, read_opener, enter_of_afterOpener h, run_append, run_cons, read_closer]
  rw [hlines, run_enter, hdepth, ← hlines, ← openBlock, enter_of_afterOpener hdone]

/-- a counted level for each block with statements, at least -/
theorem filledBlocks_le_levels (p : Outline) (depth : Nat) (h : s.afterOpener = false) :
    s.levels + p.filledBlocks ≤ (s.run (p.lines depth)).levels := by
  induction p generalizing s depth with
  | done => exact le_rfl
  | simple word rest ih =>
    rw [Outline.lines, run_cons, read_simple, enter_of_afterOpener h]
    exact ih depth h
  | headed head condition word rest ih =>
    rw [Outline.lines, run_cons, run_cons, read_head, read_simple, enter_of_afterOpener h, enter_of_afterOpener h]
    exact ih depth h
  | block header body rest ihbody ihrest =>
    rw [Outline.filledBlocks]
    cases hbody : body.isDone with
    | true =>
      obtain rfl := Outline.eq_done hbody
      rw [run_empty_block header rest depth h]
      refine le_trans ?_ (ihrest depth rfl)
      simp only [closeBlock, LineScan.enter, if_true, Outline.filledBlocks]
      omega
    | false =>
      have hopened := ihbody (s := s.openBlock depth) (depth + 1) (enter_afterOpener _ _)
      have hlevels : (s.openBlock depth).levels = s.levels + (depth + 1) := rfl
      rw [run_filled_block header rest depth h hbody]
      refine le_trans ?_ (ihrest depth rfl)
      simp only [closeBlock, Bool.false_eq_true, if_false]
      omega

end LineScan

/-! ## Keeping track of the depth -/

namespace Outline

/-- the last block is empty; `before` if there is no block -/
def endsInEmptyBlock (before : Bool) : Outline → Bool
  | done => before
  | simple _ rest => rest.endsInEmptyBlock before
  | headed _ _ _ rest => rest.endsInEmptyBlock before
  | block _ body rest => rest.endsInEmptyBlock body.isDone

/-- no block ends in an empty one -/
def IsTidy : Outline → Prop
  | done => True
  | simple _ rest => rest.IsTidy
  | headed _ _ _ rest => rest.IsTidy
  | block _ body rest => body.endsInEmptyBlock false = false ∧ body.IsTidy ∧ rest.IsTidy

end Outline

namespace LineScan

variable {s : LineScan}

/-- the last change is one level, unless the last block was empty -/
def Recalls (s : LineScan) (empty : Bool) : Prop :=
  s.lastChange = some (if empty then 0 else 1)

theorem Recalls.closeBlock {empty : Bool} (h : s.Recalls empty) :
    s.closeBlock.baseline = s.baseline - (if empty then 0 else 1 : Nat) ∧ s.closeBlock.Recalls empty :=
  ⟨by rw [LineScan.closeBlock, show s.lastChange = _ from h]; rfl, h⟩

/-- entering a block with statements changes by one level -/
theorem openBlock_spec {depth : Nat} (hbase : s.baseline = depth) :
    (s.openBlock depth).baseline = (depth + 1 : Nat) ∧ (s.openBlock depth).changes = 1 :: s.changes ∧
      (s.openBlock depth).Recalls false := by
  have hne : s.baseline ≠ (depth + 1 : Nat) := by omega
  have hone : (s.baseline - (depth + 1 : Nat)).natAbs = 1 := by omega
  refine ⟨rfl, ?_, congrArg some hone⟩
  simp only [openBlock, LineScan.enter, if_true, if_neg hne, hone]

/-- entering an empty block changes nothing -/
theorem emptyBlock_spec {depth : Nat} (hbase : s.baseline = depth) :
    let s' := LineScan.enter { s with afterOpener := true } depth
    s'.baseline = depth ∧ s'.changes = s.changes ∧ s'.Recalls true := by
  have hzero : (s.baseline - depth).natAbs = 0 := by omega
  refine ⟨rfl, ?_, congrArg some hzero⟩
  simp only [LineScan.enter, if_true, if_pos hbase]

/-- **The pass keeps track of the depth** of a program in which no block ends in an empty one, and notes one level for
each block with statements. -/
theorem run_tidy {p : Outline} (hp : p.IsTidy) (depth : Nat) (h : s.afterOpener = false) (hbase : s.baseline = depth) :
    (s.run (p.lines depth)).baseline = depth ∧
      (s.run (p.lines depth)).changes = List.replicate p.filledBlocks 1 ++ s.changes ∧
      ∀ empty, s.Recalls empty → (s.run (p.lines depth)).Recalls (p.endsInEmptyBlock empty) := by
  induction p generalizing s depth with
  | done => exact ⟨hbase, rfl, fun _ => id⟩
  | simple word rest ih =>
    rw [Outline.lines, run_cons, read_simple, enter_of_afterOpener h]
    exact ih hp depth h hbase
  | headed head condition word rest ih =>
    rw [Outline.lines, run_cons, run_cons, read_head, read_simple, enter_of_afterOpener h, enter_of_afterOpener h]
    exact ih hp depth h hbase
  | block header body rest ihbody ihrest =>
    obtain ⟨hends, hbody, hrest⟩ := hp
    rw [Outline.filledBlocks]
    cases hdone : body.isDone with
    | true =>
      obtain rfl := Outline.eq_done hdone
      obtain ⟨hbase', hchanges', hrecalls⟩ := emptyBlock_spec hbase
      obtain ⟨hclosed, hrecalls⟩ := hrecalls.closeBlock
      rw [run_empty_block header rest depth h]
      obtain ⟨hb, hc, hr⟩ := ihrest hrest depth rfl (hclosed.trans (by rw [hbase']; simp))
      refine ⟨hb, ?_, fun _ _ => hr true hrecalls⟩
      simpa [hchanges', LineScan.closeBlock, Outline.filledBlocks] using hc
    | false =>
      obtain ⟨hbase0, hchanges0, hrecalls0⟩ := openBlock_spec hbase
      obtain ⟨hbase1, hchanges1, hrecalls1⟩ :=
        ihbody (s := s.openBlock depth) hbody (depth + 1) (enter_afterOpener _ _) hbase0
      have hrecalls1 := hrecalls1 false hrecalls0
      rw [hends] at hrecalls1
      obtain ⟨hclosed, hrecalls⟩ := hrecalls1.closeBlock
      rw [run_filled_block header rest depth h hdone]
      obtain ⟨hb, hc, hr⟩ := ihrest hrest depth rfl (hclosed.trans (by rw [hbase1]; simp))
      refine ⟨hb, ?_, fun _ _ => by rw [Outline.endsInEmptyBlock, hdone]; exact hr false hrecalls⟩
      rw [hc, LineScan.closeBlock, hchanges1, hchanges0]
      simp only [Bool.false_eq_true, if_false]
      rw [show 1 + body.filledBlocks + rest.filledBlocks = rest.filledBlocks + (body.filledBlocks + 1) by omega,
        List.replicate_add, List.replicate_add, List.append_assoc, List.append_assoc]
      rfl

end LineScan

/-! ## The most frequent change -/

namespace Tally

/-- stretching all changes stretches the most frequent one -/
theorem mostFrequent_map {w : Nat} (hw : 0 < w) (changes : List Nat) :
    mostFrequent (changes.map (w * ·)) = w * mostFrequent changes := by
  have hinj : Function.Injective (w * · : Nat → Nat) := fun _ _ => Nat.eq_of_mul_eq_mul_left hw
  have hbetter (x y : Nat) : better (changes.map (w * ·)) (w * x) (w * y) = better changes x y := by
    have hcount (n : Nat) : (changes.map (w * ·)).count (w * n) = changes.count n :=
      List.count_map_of_injective changes (w * ·) hinj n
    simp [better, hcount, Nat.mul_lt_mul_left hw]
  have hfold (first : Nat) (rest : List Nat) :
      (rest.map (w * ·)).foldl (fun best x => if better (changes.map (w * ·)) x best then x else best) (w * first) =
        w * rest.foldl (fun best x => if better changes x best then x else best) first := by
    induction rest generalizing first with
    | nil => rfl
    | cons x rest ih =>
      rw [List.map_cons, List.foldl_cons, List.foldl_cons, hbetter, ← ih]
      split_ifs <;> rfl
  cases changes with
  | nil => rfl
  | cons first rest => exact hfold first rest

/-- a change that was the only one is the most frequent one -/
theorem mostFrequent_replicate {n : Nat} (hn : 0 < n) (x : Nat) : mostFrequent (List.replicate n x) = x := by
  obtain ⟨n, rfl⟩ := Nat.exists_eq_add_of_lt hn
  have hfold (changes : List Nat) (n : Nat) :
      (List.replicate n x).foldl (fun best x => if better changes x best then x else best) x = x := by
    induction n with
    | zero => rfl
    | succ n ih => rw [List.replicate_succ, List.foldl_cons, ite_self, ih]
  rw [Nat.zero_add, List.replicate_succ]
  exact hfold _ n

/-- the only kind of blank that was counted is the one found -/
theorem style_of_blanks {unit : IndentUnit} {h : Tally} {blanks : Nat} (hblanks : 0 < blanks)
    (hspaces : h.spaces = if unit.ch = '\t' then 0 else blanks)
    (htabs : h.tabs = if unit.ch = '\t' then blanks else 0) :
    h.style = ⟨some unit.ch, mostFrequent h.changes⟩ := by
  rw [style, hspaces, htabs]
  rcases (by simpa [isBlank] using unit.blank : unit.ch = ' ' ∨ unit.ch = '\t') with hspace | htab
  · simp only [hspace, Char.reduceEq, if_false, Nat.not_lt_zero, gt_iff_lt, if_pos hblanks]
  · simp only [htab, if_true, gt_iff_lt, if_pos hblanks]

end Tally

namespace Outline

/-- the changes that the pass notes, in levels -/
def changes (p : Outline) : List Nat :=
  (LineScan.initial.run (p.lines 0)).changes

theorem changes_of_isTidy {p : Outline} (h : p.IsTidy) : p.changes = List.replicate p.filledBlocks 1 := by
  obtain ⟨-, hchanges, -⟩ := LineScan.run_tidy h 0 (s := .initial) rfl rfl
  simpa [changes, LineScan.initial] using hchanges

/-- the width found is a multiple of the width of the layout -/
theorem inferFromBraces_layout (p : Outline) (unit : IndentUnit)
    {tail : Text} (htail : tail = [] ∨ tail = ['\n']) (hfilled : 0 < p.filledBlocks) :
    inferFromBraces (p.layout unit ++ tail) = ⟨some unit.ch, unit.width * Tally.mostFrequent p.changes⟩ := by
  have hne : p.lines 0 ≠ [] := by
    cases p with
    | done => cases hfilled
    | _ => exact List.cons_ne_nil _ _
  have hlevels := LineScan.filledBlocks_le_levels (s := .initial) p 0 rfl
  obtain ⟨-, -, hchanges, hspaces, htabs⟩ := BraceScan.run_layout (p.lines_calm 0) htail hne
  have hblanks : 0 < unit.width * (LineScan.initial.run (p.lines 0)).levels := Nat.mul_pos unit.pos (by omega)
  have hwidth' : Tally.mostFrequent ((LineScan.initial.run (p.lines 0)).changes.map (unit.width * ·)) =
      unit.width * Tally.mostFrequent p.changes := Tally.mostFrequent_map unit.pos _
  rw [inferFromBraces, layout, Tally.style_of_blanks hblanks hspaces htabs, hchanges, hwidth']

/-- **The indent unit of a program is found.** In a language with braces, for every program with a statement in
some block, laid out with any unit, with or without a line feed at the end: the blank is the one of the unit, and
the width is the one of the unit times a factor that only depends on the outline. The factor is one if no block
ends in an empty one. -/
theorem unit_is_inferred (p : Outline) (unit : IndentUnit) (l : Language) (tail : Text) (hl : l.infersFromBraces = true)
    (htail : tail = [] ∨ tail = ['\n']) (hfilled : 0 < p.filledBlocks) :
    inferStyle (p.layout unit ++ tail) l = ⟨some unit.ch, unit.width * Tally.mostFrequent p.changes⟩ ∧
      (inferStyle (p.layout unit ++ tail) l = ⟨some unit.ch, unit.width⟩ ↔ Tally.mostFrequent p.changes = 1) ∧
      (p.IsTidy → inferStyle (p.layout unit ++ tail) l = ⟨some unit.ch, unit.width⟩) := by
  have hinferred : inferStyle (p.layout unit ++ tail) l =
    ⟨some unit.ch, unit.width * Tally.mostFrequent p.changes⟩ := by
    rw [inferStyle, if_pos hl, inferFromBraces_layout p unit htail hfilled]
  have hexact : inferStyle (p.layout unit ++ tail) l = ⟨some unit.ch, unit.width⟩ ↔
    Tally.mostFrequent p.changes = 1 := by
    rw [hinferred, IndentStyle.mk.injEq, and_iff_right rfl]
    exact Nat.mul_eq_left unit.pos.ne'
  refine ⟨hinferred, hexact, fun htidy => hexact.2 ?_⟩
  rw [changes_of_isTidy htidy, Tally.mostFrequent_replicate hfilled]

/-- three tabs are found in a program with an empty block between two statements -/
theorem tabs_are_inferred :
    let p : Outline := .block (letter 'a' rfl)
      (.simple (letter 'b' rfl)
        (.block (letter 'c' rfl) .done (.block (letter 'd' rfl) (.simple (letter 'e' rfl) .done) .done)))
      .done
    p.layout ⟨'\t', 3, rfl, by decide⟩ =
        "a \x7b\n\t\t\tb;\n\t\t\tc \x7b\n\t\t\t\x7d\n\t\t\td \x7b\n\t\t\t\t\t\te;\n\t\t\t\x7d\n\x7d".toList ∧
      inferStyle (p.layout ⟨'\t', 3, rfl, by decide⟩ ++ ['\n']) (.ofId (some "cpp")) = ⟨some '\t', 3⟩ := by
  intro p
  exact ⟨by decide, (unit_is_inferred p ⟨'\t', 3, rfl, by decide⟩ (.ofId (some "cpp")) ['\n'] (by decide) (Or.inr rfl)
    (by decide)).2.2 ⟨rfl, ⟨rfl, trivial, rfl, trivial, trivial⟩, trivial⟩⟩

/-- four blocks around each other, the innermost one empty, and behind them four blocks with one statement each -/
def drifting : Outline :=
  let small (rest : Outline) : Outline := .block (letter 'e' rfl) (.simple (letter 'f' rfl) .done) rest
  let deep := Outline.block (letter 'b' rfl) (.block (letter 'c' rfl) (.block (letter 'd' rfl) .done .done) .done) .done
  .block (letter 'a' rfl) deep (small (small (small (small .done))))

/-- **The pass loses track of the depth** behind an empty block at the end of others: two spaces become four -/
theorem width_is_doubled :
    0 < drifting.filledBlocks ∧
      drifting.layout (.spaces 2) =
        "a \x7b\n  b \x7b\n    c \x7b\n      d \x7b\n      \x7d\n    \x7d\n  \x7d\n\x7d\n".toList ++
          "e \x7b\n  f;\n\x7d\ne \x7b\n  f;\n\x7d\ne \x7b\n  f;\n\x7d\ne \x7b\n  f;\n\x7d".toList ∧
      inferStyle (drifting.layout (.spaces 2)) (.ofId (some "cpp")) = ⟨some ' ', 4⟩ := by
  have hbraces : (Language.ofId (some "cpp")).infersFromBraces = true := by decide
  have hlost : Tally.mostFrequent drifting.changes = 2 := by decide
  have hfilled : 0 < drifting.filledBlocks := by decide
  have hinferred := inferFromBraces_layout drifting (.spaces 2) (Or.inl rfl) hfilled
  rw [List.append_nil, hlost] at hinferred
  refine ⟨hfilled, by decide, ?_⟩
  rw [inferStyle, if_pos hbraces]
  exact hinferred

end Outline

end CodeEditor
