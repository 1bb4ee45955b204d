import CodeEditor.Proofs.Outline.Inference
import CodeEditor.Proofs.Text.LineEnding
import CodeEditor.Proofs.Text.Rows
/-!
The unit of a text without quotes and parentheses.

Such a text is read line by line: the leading blanks of every line are counted, and a line that is not blank is
compared with the one before it (`inferPlain_eq`). In a text laid out in levels of a unit, where the depth may drop by
any number of levels but never grows by more than one, the levels that a walk has dropped were climbed one by one
before. So `k` times the number of drops by `k` levels is at most the number of changes by one (`mul_count_le`), and
one level is the most frequent change.

Lines end in LF only, as in the pass: other breaks are characters like others.
-/

namespace CodeEditor

/-- a quote or a parenthesis -/
def isDelimiter (c : Char) : Bool :=
  c == '\'' || c == '"' || c == '(' || c == ')'

namespace Text

/-- every piece of a text, a separator behind each -/
theorem flatMap_splitOn (t : Text) : (t.splitOn '\n').flatMap (· ++ ['\n']) = t ++ ['\n'] := by
  induction t with
  | nil => rfl
  | cons c t ih =>
    rw [splitOn]
    split_ifs with hc
    · rw [List.flatMap_cons, ih, hc]
      rfl
    · cases hpieces : splitOn '\n' t with
      | nil => rw [hpieces] at ih; simp at ih
      | cons piece pieces =>
        rw [hpieces, List.flatMap_cons] at ih
        simp only [List.flatMap_cons, List.cons_append, ih]

/-- a blank line is its indentation -/
theorem indentation_of_allBlank {t : Text} (h : t.allBlank = true) : t.indentation = t :=
  List.takeWhile_eq_self_iff.2 (List.all_eq_true.1 h)

end Text

/-! ## The pass, line by line -/

namespace PlainScan

variable {t a z l : Text} {s : PlainScan} {o : Nat}

/-- nothing is open -/
structure Free (s : PlainScan) : Prop where
  quotes : s.quotes = .none
  parens : s.parens = 0

/-- read a character of a line -/
def readChar (s : PlainScan) (c : Char) : PlainScan :=
  match s.leading with
  | none => s
  | some leading =>
    if isBlank c then { s with tally := s.tally.countBlank c, leading := some (leading + 1) }
    else { s with tally := s.tally.note s.baseline leading, baseline := leading, leading := none }

/-- before the first character of a line -/
def enterLine (s : PlainScan) : PlainScan :=
  { s with leading := some 0 }

/-- read a line and the LF behind it -/
def readLine (s : PlainScan) (l : Text) : PlainScan :=
  { l.foldl readChar s.enterLine with leading := none }

theorem Free.exists_eq (hs : s.Free) : ∃ tally leading baseline, s = ⟨tally, .none, leading, baseline, 0⟩ := by
  obtain ⟨tally, quotes, leading, baseline, parens⟩ := s
  obtain rfl : quotes = .none := hs.quotes
  obtain rfl : parens = 0 := hs.parens
  exact ⟨tally, leading, baseline, rfl⟩

theorem Free.readChar (hs : s.Free) (c : Char) : (s.readChar c).Free := by
  obtain ⟨hquotes, hparens⟩ := hs
  unfold PlainScan.readChar
  split
  · exact ⟨hquotes, hparens⟩
  · split_ifs
    · exact ⟨hquotes, hparens⟩
    · exact ⟨hquotes, hparens⟩

theorem Free.foldl (hs : s.Free) (l : Text) : (l.foldl PlainScan.readChar s).Free := by
  induction l generalizing s with
  | nil => exact hs
  | cons c l ih => exact ih (hs.readChar c)

/-- where nothing is open, a character that opens nothing is read as one of its line -/
theorem read_char (hs : s.Free) (hchar : isDelimiter (t.charAt o) = false) (hend : t.endsLine o = false) :
    s.read t o = (if t.startsLine o then s.enterLine else s).readChar (t.charAt o) := by
  obtain ⟨tally, leading, baseline, rfl⟩ := hs.exists_eq
  simp only [isDelimiter, Bool.or_eq_false_iff, beq_eq_false_iff_ne, ne_eq] at hchar
  obtain ⟨⟨⟨hsingle, hdouble⟩, hopen⟩, hclose⟩ := hchar
  have hread (q : OpenQuotes) : q.read t o = (false, q) := by simp [OpenQuotes.read, hsingle, hdouble]
  have hnone : OpenQuotes.none.any = false := rfl
  unfold PlainScan.read readIndent PlainScan.readChar enterLine
  simp only [hread, hopen, hclose, hend]
  cases hstart : t.startsLine o <;> cases leading <;> cases hblank : isBlank (t.charAt o) <;> simp [hnone]

/-- an LF ends the line -/
theorem read_lineFeed (hs : s.Free) (hchar : t.charAt o = '\n') : s.read t o = { s with leading := none } := by
  obtain ⟨tally, leading, baseline, rfl⟩ := hs.exists_eq
  have hread (q : OpenQuotes) : q.read t o = (false, q) := by simp [OpenQuotes.read, hchar]
  have hend : t.endsLine o = true := by simp [Text.endsLine, hchar]
  have hblank : isBlank '\n' = false := rfl
  have hnone : OpenQuotes.none.any = false := rfl
  unfold PlainScan.read readIndent
  simp only [hread, hend, hchar, hblank]
  cases hstart : t.startsLine o <;> cases leading <;> simp [hnone]

/-- the characters of a line behind its first one -/
theorem foldl_read_rest (hl : ∀ c ∈ l, isDelimiter c = false ∧ c ≠ '\n') (ht : t = a ++ (l ++ z))
    (ha : a.endsInLineFeed = false) (hs : s.Free) :
    (List.range' a.length l.length).foldl (PlainScan.read t) s = l.foldl readChar s := by
  induction l generalizing a s with
  | nil => rfl
  | cons c l ih =>
    obtain ⟨hdelimiter, hlf⟩ := hl c List.mem_cons_self
    rw [List.cons_append] at ht
    have hchar : t.charAt a.length = c := by rw [ht, Text.charAt_seam]
    have hend : t.endsLine a.length = false := by rw [ht, Text.endsLine_seam]; exact beq_eq_false_iff_ne.2 hlf
    have hstart : t.startsLine a.length = false := by rw [ht, Text.startsLine_seam, ha]
    have hread := read_char hs (by rw [hchar]; exact hdelimiter) hend
    rw [hstart, if_neg Bool.false_ne_true, hchar] at hread
    have ht' : t = (a ++ [c]) ++ (l ++ z) := by rw [ht, List.append_assoc, List.singleton_append]
    have hrest := ih (fun d hd => hl d (List.mem_cons_of_mem _ hd)) ht'
      (by rw [Text.endsInLineFeed_concat]; exact beq_eq_false_iff_ne.2 hlf) (hs.readChar c)
    rw [List.length_append, List.length_singleton] at hrest
    rw [List.length_cons, List.range'_succ, List.foldl_cons, List.foldl_cons, hread, hrest]

/-- **A line** is read as a whole. -/
theorem foldl_read_line (hl : ∀ c ∈ l, isDelimiter c = false ∧ c ≠ '\n') (ht : t = a ++ (l ++ '\n' :: z))
    (ha : a.endsInLineFeed = true) (hs : s.Free) :
    (List.range' a.length (l.length + 1)).foldl (PlainScan.read t) s = s.readLine l := by
  have hlast : t.charAt (a.length + l.length) = '\n' := by rw [ht, Text.charAt_piece]
  rw [List.range'_concat, List.foldl_append, Nat.one_mul, List.foldl_cons, List.foldl_nil]
  cases l with
  | nil => exact read_lineFeed hs hlast
  | cons c l =>
    obtain ⟨hdelimiter, hlf⟩ := hl c List.mem_cons_self
    have hchar : t.charAt a.length = c := by rw [ht, List.cons_append, Text.charAt_seam]
    have hend : t.endsLine a.length = false := by
      rw [ht, List.cons_append, Text.endsLine_seam]
      exact beq_eq_false_iff_ne.2 hlf
    have hstart : t.startsLine a.length = true := by rw [ht, Text.startsLine_seam, ha]
    have hread := read_char hs (by rw [hchar]; exact hdelimiter) hend
    rw [hstart, if_pos rfl, hchar] at hread
    have hentered : s.enterLine.Free := ⟨hs.quotes, hs.parens⟩
    have ht' : t = (a ++ [c]) ++ (l ++ '\n' :: z) := by rw [ht, List.append_assoc]; rfl
    have hrest := foldl_read_rest (fun d hd => hl d (List.mem_cons_of_mem _ hd)) ht'
      (by rw [Text.endsInLineFeed_concat]; exact beq_eq_false_iff_ne.2 hlf) (hentered.readChar c)
    rw [List.length_append, List.length_singleton] at hrest
    rw [List.length_cons] at hlast ⊢
    rw [List.range'_succ, List.foldl_cons, hread, hrest, read_lineFeed ((hentered.readChar c).foldl l) hlast]
    rfl

theorem Free.readLine (hs : s.Free) (l : Text) : (s.readLine l).Free := by
  have hentered : s.enterLine.Free := ⟨hs.quotes, hs.parens⟩
  have hread := hentered.foldl l
  exact ⟨hread.quotes, hread.parens⟩

/-- **Lines** are read one after the other. -/
theorem foldl_read_lines {lines : List Text} (hlines : ∀ l ∈ lines, ∀ c ∈ l, isDelimiter c = false ∧ c ≠ '\n')
    (ht : t = a ++ (lines.flatMap (· ++ ['\n']) ++ z)) (ha : a.endsInLineFeed = true) (hs : s.Free) :
    (List.range' a.length (lines.flatMap (· ++ ['\n'])).length).foldl (PlainScan.read t) s =
      lines.foldl readLine s := by
  induction lines generalizing a s with
  | nil => rfl
  | cons l lines ih =>
    set rest := lines.flatMap (· ++ ['\n']) with hrest
    rw [List.flatMap_cons, ← hrest] at ht ⊢
    have ht1 : t = a ++ (l ++ '\n' :: (rest ++ z)) := by rw [ht]; simp
    have ht2 : t = (a ++ (l ++ ['\n'])) ++ (rest ++ z) := by rw [ht]; simp
    have hline := foldl_read_line (hlines l List.mem_cons_self) ht1 ha hs
    have hlines := ih (fun l' hl' => hlines l' (List.mem_cons_of_mem _ hl')) ht2
      (by rw [← List.append_assoc, Text.endsInLineFeed_concat]; rfl) (hs.readLine l)
    have hlen : (l ++ ['\n'] ++ rest).length = (l.length + 1) + rest.length := by simp; omega
    have hstart : (a ++ (l ++ ['\n'])).length = a.length + 1 * (l.length + 1) := by simp
    rw [hstart] at hlines
    rw [hlen, ← List.range'_append, List.foldl_append, hline, hlines, List.foldl_cons]

/-- one more LF at the end adds nothing to what is counted -/
theorem inferPlain_concat_lineFeed (t : Text) : inferPlain (t ++ ['\n']) = inferPlain t := by
  have hchar {i : Nat} (hi : i < t.length) : Text.charAt (t ++ ['\n']) i = t.charAt i := by
    rw [Text.charAt_eq_getElem t hi, Text.charAt_eq_getElem _ (by simp; omega), List.getElem_append_left hi]
  have hread (s : PlainScan) {o : Nat} (ho : o < t.length) : s.read (t ++ ['\n']) o = s.read t o := by
    have hstart : Text.startsLine (t ++ ['\n']) o = t.startsLine o := by
      cases o with
      | zero => rfl
      | succ o => rw [Text.startsLine, Text.startsLine, hchar (by omega)]
    have hend : Text.endsLine (t ++ ['\n']) o = t.endsLine o := by
      rw [Text.endsLine, Text.endsLine, hchar ho, decide_eq_false (by simp; omega), decide_eq_false (by omega)]
    have hquote : quoteToggles (t ++ ['\n']) o = quoteToggles t o := by
      rw [quoteToggles, quoteToggles, hchar (by omega), hchar (by omega)]
    have hquotes (q : OpenQuotes) : q.read (t ++ ['\n']) o = q.read t o := by
      rw [OpenQuotes.read, OpenQuotes.read, hchar ho, hquote]
    have hindent : s.readIndent (t ++ ['\n']) o = s.readIndent t o := by
      rw [readIndent, readIndent, hchar ho, hstart, hend]
    rw [PlainScan.read, PlainScan.read, hindent, hquotes, hchar ho]
  have hlast (s : PlainScan) : (s.read (t ++ ['\n']) t.length).tally = s.tally := by
    have hlf : Text.charAt (t ++ ['\n']) t.length = '\n' := Text.charAt_seam t '\n' []
    have hend : Text.endsLine (t ++ ['\n']) t.length = true := by rw [Text.endsLine_seam]; rfl
    have hblank : isBlank '\n' = false := rfl
    simp only [PlainScan.read, readIndent, hlf, hend, hblank, Bool.false_eq_true, if_false, if_true, ite_self]
    split_ifs <;> split <;> rfl
  have hfold : (List.range t.length).foldl (PlainScan.read (t ++ ['\n'])) initial =
    (List.range t.length).foldl (PlainScan.read t) initial :=
    List.foldl_ext _ _ _ fun s o ho => hread s (List.mem_range.1 ho)
  rw [inferPlain, inferPlain, List.length_append, List.length_singleton, List.range_succ, List.foldl_append,
    List.foldl_cons, List.foldl_nil, hlast, hfold]

/-- **A text without quotes and parentheses** is read line by line. -/
theorem inferPlain_eq {t : Text} (ht : ∀ c ∈ t, isDelimiter c = false) :
    inferPlain t = ((t.splitOn '\n').foldl readLine initial).tally.style := by
  have hlines : ∀ l ∈ t.splitOn '\n', ∀ c ∈ l, isDelimiter c = false ∧ c ≠ '\n' := by
    intro l hl c hc
    refine ⟨ht c (Text.subset_of_mem_splitOn hl hc), ?_⟩
    rintro rfl
    exact Text.not_mem_of_mem_splitOn hl hc
  have hwhole : t ++ ['\n'] = [] ++ ((t.splitOn '\n').flatMap (· ++ ['\n']) ++ []) := by
    rw [Text.flatMap_splitOn, List.nil_append, List.append_nil]
  have hfold := foldl_read_lines hlines hwhole rfl (s := initial) ⟨rfl, rfl⟩
  rw [Text.flatMap_splitOn, List.length_nil] at hfold
  rw [← inferPlain_concat_lineFeed, inferPlain, List.range_eq_range', hfold]

/-- leading blanks of one kind -/
theorem foldl_readChar_blanks {ch : Char} (hch : isBlank ch = true) (n : Nat) {k : Nat}
    (hleading : s.leading = some k) :
    (List.replicate n ch).foldl readChar s = { s with tally := s.tally.countBlanks ch n, leading := some (k + n) } := by
  induction n generalizing s k with
  | zero =>
    obtain ⟨tally, quotes, leading, baseline, parens⟩ := s
    obtain rfl : leading = some k := hleading
    simp [Tally.countBlanks]
  | succ n ih =>
    have hfirst : s.readChar ch = { s with tally := s.tally.countBlank ch, leading := some (k + 1) } := by
      simp only [readChar, hleading, hch, if_true]
    have htally : (s.tally.countBlank ch).countBlanks ch n = s.tally.countBlanks ch (n + 1) := by
      by_cases htab : ch = '\t' <;> simp [Tally.countBlank, Tally.countBlanks, htab, Nat.add_assoc, Nat.add_comm 1]
    rw [List.replicate_succ, List.foldl_cons, hfirst, ih rfl, htally, Nat.add_assoc, Nat.add_comm 1 n]

/-- behind its indentation, nothing on a line is counted -/
theorem foldl_readChar_rest (hleading : s.leading = none) (l : Text) : l.foldl readChar s = s := by
  induction l with
  | nil => rfl
  | cons c l ih =>
    have hread : s.readChar c = s := by simp only [readChar, hleading]
    rw [List.foldl_cons, hread, ih]

end PlainScan

/-! ## Depths -/

namespace IndentUnit

variable {unit : IndentUnit} {l t : Text}

/-- the depths of the lines that are not blank, in levels -/
def depths (unit : IndentUnit) (lines : List Text) : List Nat :=
  (lines.filter (!·.allBlank)).map (·.indentation.length / unit.width)

/-- the line starts with nothing else than the unit's character, and unless it is blank, with whole levels of it -/
structure Lays (unit : IndentUnit) (l : Text) : Prop where
  makesUp : unit.makesUp l.indentation = true
  whole : l.allBlank = false → unit.width ∣ l.indentation.length

/-- the text is laid out in levels of the unit: a line that is not blank stands at its depth, the first one at none, and
from one to the next the depth grows by one level at most -/
structure LaysOut (unit : IndentUnit) (t : Text) : Prop where
  lines : ∀ l ∈ Text.splitOn '\n' t, unit.Lays l
  noDelimiter : ∀ c ∈ t, isDelimiter c = false
  first : (unit.depths (Text.splitOn '\n' t)).head? = some 0
  climbs : (unit.depths (Text.splitOn '\n' t)).IsChain fun depth next => next ≤ depth + 1
  deep : ∃ depth ∈ unit.depths (Text.splitOn '\n' t), 0 < depth

theorem Lays.indentation_eq (h : unit.Lays l) : l.indentation = List.replicate l.indentation.length unit.ch :=
  List.eq_replicate_iff.2 ⟨rfl, fun c hc => by simpa using List.all_eq_true.1 h.makesUp c hc⟩

end IndentUnit

/-- the changes from a depth to the next one, without those that change nothing -/
def depthChanges : Nat → List Nat → List Nat
  | _, [] => []
  | before, depth :: depths =>
    if before = depth then depthChanges depth depths else ((before : Int) - depth).natAbs :: depthChanges depth depths

/-- where the depth grows by one level at most, **all levels that are dropped were climbed one by one** -/
theorem mul_count_le {before k : Nat} {depths : List Nat}
    (h : (before :: depths).IsChain fun depth next => next ≤ depth + 1) (hk : 2 ≤ k) :
    k * (depthChanges before depths).count k ≤ before + (depthChanges before depths).count 1 := by
  induction depths generalizing before with
  | nil => simp [depthChanges]
  | cons depth depths ih =>
    obtain ⟨hstep, hrest⟩ := List.isChain_cons_cons.1 h
    have hbehind := ih hrest
    rw [depthChanges]
    split_ifs with hsame
    · rw [hsame]
      exact hbehind
    · rw [List.count_cons, List.count_cons]
      rcases Nat.lt_or_gt_of_ne hsame with hup | hdown
      · -- one level up
        have hone : ((before : Int) - depth).natAbs = 1 := by omega
        have hother : ¬ (1 = k) := by omega
        simp only [hone, beq_iff_eq, hother, if_false, if_true, Nat.add_zero]
        omega
      · have hdrop : ((before : Int) - depth).natAbs = before - depth := by omega
        simp only [hdrop, beq_iff_eq]
        by_cases hheight : before - depth = k
        · have hone : ¬ before - depth = 1 := by omega
          rw [if_pos hheight, if_neg hone, Nat.mul_add, Nat.mul_one]
          omega
        · rw [if_neg hheight, Nat.add_zero]
          split_ifs
          · omega
          · omega

/-- the way into the depth begins with one level -/
theorem one_mem_depthChanges {depths : List Nat} (h : (0 :: depths).IsChain fun depth next => next ≤ depth + 1)
    (hdeep : ∃ depth ∈ depths, 0 < depth) : 1 ∈ depthChanges 0 depths := by
  induction depths with
  | nil =>
    obtain ⟨depth, hmem, -⟩ := hdeep
    cases hmem
  | cons depth depths ih =>
    obtain ⟨hstep, hrest⟩ := List.isChain_cons_cons.1 h
    rw [depthChanges]
    split_ifs with hsame
    · obtain rfl := hsame
      apply ih hrest
      obtain ⟨depth, hmem, hpos⟩ := hdeep
      rcases List.mem_cons.1 hmem with rfl | hmem
      · omega
      · exact ⟨depth, hmem, hpos⟩
    · have hone : (((0 : Nat) : Int) - depth).natAbs = 1 := by omega
      rw [hone]
      exact List.mem_cons_self

theorem zero_not_mem_depthChanges (before : Nat) (depths : List Nat) : 0 ∉ depthChanges before depths := by
  induction depths generalizing before with
  | nil => exact List.not_mem_nil
  | cons depth depths ih =>
    rw [depthChanges]
    split_ifs with hsame
    · exact ih depth
    · rw [List.mem_cons, not_or]
      exact ⟨by omega, ih depth⟩

namespace Tally

section

variable {changes : List Nat} {x : Nat} (h : ∀ y ∈ changes, y ≠ x → changes.count y < changes.count x)

include h in
theorem better_of_majority {y : Nat} (hy : y ∈ changes) (hyx : y ≠ x) : better changes x y = true := by
  have hlt := h y hy hyx
  simp [better, hlt]

include h in
theorem not_better_of_majority {y : Nat} (hy : y ∈ changes) : better changes y x = false := by
  by_cases hyx : y = x
  · simp [better, hyx]
  · have hlt := h y hy hyx
    simp only [better, Bool.or_eq_false_iff, Bool.and_eq_false_iff, decide_eq_false_iff_not, beq_eq_false_iff_ne]
    omega

include h in
/-- once it is found it is kept, and until then it is still to come -/
theorem foldl_better_of_majority (hx : x ∈ changes) {rest : List Nat} (hsub : rest ⊆ changes) {best : Nat}
    (hbest : best ∈ changes) (hfound : best = x ∨ x ∈ rest) :
    rest.foldl (fun best x => if better changes x best then x else best) best = x := by
  induction rest generalizing best with
  | nil =>
    rcases hfound with hbest | hmem
    · exact hbest
    · cases hmem
  | cons y rest ih =>
    obtain ⟨hy, hrest⟩ := List.cons_subset.1 hsub
    rw [List.foldl_cons]
    by_cases hbx : best = x
    · rw [hbx, not_better_of_majority h hy, if_neg Bool.false_ne_true]
      exact ih hrest hx (Or.inl rfl)
    · rcases List.mem_cons.1 (hfound.resolve_left hbx) with rfl | hmem
      · rw [better_of_majority h hbest hbx, if_pos rfl]
        exact ih hrest hx (Or.inl rfl)
      · split_ifs
        · exact ih hrest hy (Or.inr hmem)
        · exact ih hrest hbest (Or.inr hmem)

include h in
/-- a change that is more frequent than any other one is the most frequent one -/
theorem mostFrequent_of_majority (hx : x ∈ changes) : mostFrequent changes = x := by
  cases changes with
  | nil => cases hx
  | cons first rest =>
    refine foldl_better_of_majority h hx (List.subset_cons_self _ _) List.mem_cons_self ?_
    exact (List.mem_cons.1 hx).imp Eq.symm id

end

end Tally

/-- **One level is the most frequent change**, whatever the drops. -/
theorem mostFrequent_depthChanges {depths : List Nat} (h : (0 :: depths).IsChain fun depth next => next ≤ depth + 1)
    (hdeep : ∃ depth ∈ depths, 0 < depth) : Tally.mostFrequent (depthChanges 0 depths).reverse = 1 := by
  have hone := one_mem_depthChanges h hdeep
  refine Tally.mostFrequent_of_majority (fun k hk hne => ?_) (List.mem_reverse.2 hone)
  rw [List.count_reverse, List.count_reverse]
  have hpos : 0 < (depthChanges 0 depths).count 1 := List.count_pos_iff.2 hone
  have hzero : k ≠ 0 := by
    rintro rfl
    exact zero_not_mem_depthChanges 0 depths (List.mem_reverse.1 hk)
  have htwo : 2 ≤ k := by omega
  have hle : 2 * (depthChanges 0 depths).count k ≤ 0 + (depthChanges 0 depths).count 1 :=
    (Nat.mul_le_mul_right _ htwo).trans (mul_count_le h htwo)
  omega

/-! ## The pass over a text in levels -/

namespace PlainScan

variable {unit : IndentUnit} {l : Text} {s : PlainScan} {depth blanks : Nat} {changes : List Nat}

/-- the pass stands at a depth and has counted some changes, newest first, and some blanks -/
structure Counts (unit : IndentUnit) (depth : Nat) (changes : List Nat) (blanks : Nat) (s : PlainScan) : Prop where
  baseline : s.baseline = unit.width * depth
  changes : s.tally.changes = changes.map (unit.width * ·)
  spaces : s.tally.spaces = if unit.ch = '\t' then 0 else blanks
  tabs : s.tally.tabs = if unit.ch = '\t' then blanks else 0

/-- a blank line is counted, and not compared -/
theorem readLine_blank (hl : unit.Lays l) (hblank : l.allBlank = true) (s : PlainScan) :
    s.readLine l = { s with tally := s.tally.countBlanks unit.ch l.indentation.length, leading := none } := by
  have hline : l = List.replicate l.indentation.length unit.ch := by
    rw [← hl.indentation_eq, Text.indentation_of_allBlank hblank]
  have hread := foldl_readChar_blanks (s := s.enterLine) unit.blank l.indentation.length rfl
  rw [← hline] at hread
  rw [readLine, hread]
  rfl

/-- the indentation of another line is counted, and compared with the one before -/
theorem readLine_code (hl : unit.Lays l) (hcode : l.allBlank = false) (s : PlainScan) :
    let n := l.indentation.length
    s.readLine l =
      { s with tally := (s.tally.countBlanks unit.ch n).note s.baseline n, baseline := n, leading := none } := by
  intro n
  obtain ⟨c, rest, hcontent⟩ := List.exists_cons_of_ne_nil (Text.content_ne_nil_iff.2 hcode)
  have hc := Text.isBlank_of_content_eq_cons hcontent
  have hline : l = List.replicate n unit.ch ++ c :: rest := by
    rw [← hl.indentation_eq, ← hcontent, Text.indentation_append_content]
  have hblanks := foldl_readChar_blanks (s := s.enterLine) unit.blank n rfl
  have hfirst (k : Nat) (tally : Tally) : readChar { s with tally, leading := some k } c =
      { s with tally := tally.note s.baseline k, baseline := k, leading := none } := by
    simp only [readChar, hc, Bool.false_eq_true, if_false]
  rw [readLine, hline, List.foldl_append, hblanks, List.foldl_cons]
  simp only [enterLine, Nat.zero_add]
  rw [hfirst, foldl_readChar_rest rfl]

/-- more blanks of the unit's character are counted beside those before -/
theorem Counts.countBlanks (hs : s.Counts unit depth changes blanks) (n : Nat) :
    (s.tally.countBlanks unit.ch n).changes = changes.map (unit.width * ·) ∧
      (s.tally.countBlanks unit.ch n).spaces = (if unit.ch = '\t' then 0 else blanks + n) ∧
      (s.tally.countBlanks unit.ch n).tabs = if unit.ch = '\t' then blanks + n else 0 := by
  obtain ⟨-, hchanges, hspaces, htabs⟩ := hs
  by_cases htab : unit.ch = '\t'
  · rw [if_pos htab] at hspaces htabs ⊢
    rw [if_pos htab, Tally.countBlanks, if_pos htab]
    exact ⟨hchanges, hspaces, by rw [htabs]⟩
  · rw [if_neg htab] at hspaces htabs ⊢
    rw [if_neg htab, Tally.countBlanks, if_neg htab]
    exact ⟨hchanges, by rw [hspaces], htabs⟩

/-- **One line** keeps the counts. -/
theorem Counts.readLine_blank (hs : s.Counts unit depth changes blanks) (hl : unit.Lays l)
    (hblank : l.allBlank = true) : (s.readLine l).Counts unit depth changes (blanks + l.indentation.length) := by
  obtain ⟨hchanges, hspaces, htabs⟩ := hs.countBlanks l.indentation.length
  rw [PlainScan.readLine_blank hl hblank]
  exact ⟨hs.baseline, hchanges, hspaces, htabs⟩

theorem Counts.readLine_code (hs : s.Counts unit depth changes blanks)
    (hl : unit.Lays l) (hcode : l.allBlank = false) :
    let next := l.indentation.length / unit.width
    (s.readLine l).Counts unit next (if depth = next then changes else ((depth : Int) - next).natAbs :: changes)
      (blanks + l.indentation.length) := by
  intro next
  obtain ⟨hchanges, hspaces, htabs⟩ := hs.countBlanks l.indentation.length
  have hpos := unit.pos
  have hlen : l.indentation.length = unit.width * next := (Nat.mul_div_cancel' (hl.whole hcode)).symm
  have hsame : s.baseline = (l.indentation.length : Int) ↔ depth = next := by
    rw [hs.baseline, hlen, Nat.cast_mul, mul_right_inj' (by omega), Nat.cast_inj]
  have hdiff : (s.baseline - l.indentation.length).natAbs = unit.width * ((depth : Int) - next).natAbs := by
    rw [hs.baseline, hlen, Nat.cast_mul, ← mul_sub, Int.natAbs_mul, Int.natAbs_natCast]
  have hbaseline : (l.indentation.length : Int) = unit.width * next := by rw [hlen, Nat.cast_mul]
  rw [PlainScan.readLine_code hl hcode]
  by_cases hnext : depth = next
  · rw [Tally.note, if_pos (hsame.2 hnext), if_pos hnext]
    exact ⟨hbaseline, hchanges, hspaces, htabs⟩
  · rw [Tally.note, if_neg (hsame.not.2 hnext), if_neg hnext]
    refine ⟨hbaseline, ?_, hspaces, htabs⟩
    rw [List.map_cons, ← hchanges, hdiff]

/-- **All lines** keep the counts. -/
theorem Counts.foldl_readLine {lines : List Text}
    (hlines : ∀ l ∈ lines, unit.Lays l) (hs : s.Counts unit depth changes blanks) :
    ∃ last, (lines.foldl readLine s).Counts unit last ((depthChanges depth (unit.depths lines)).reverse ++ changes)
      (blanks + (lines.map (·.indentation.length)).sum) := by
  induction lines generalizing s depth changes blanks with
  | nil => exact ⟨depth, hs⟩
  | cons l lines ih =>
    have hl := hlines l List.mem_cons_self
    have hrest := fun l' hl' => hlines l' (List.mem_cons_of_mem _ hl')
    rw [List.foldl_cons, List.map_cons, List.sum_cons, ← Nat.add_assoc]
    cases hblank : l.allBlank with
    | true =>
      have hdepths : unit.depths (l :: lines) = unit.depths lines := by
        rw [IndentUnit.depths, List.filter_cons_of_neg (by rw [hblank]; decide)]
        rfl
      rw [hdepths]
      exact ih hrest (hs.readLine_blank hl hblank)
    | false =>
      have hdepths : unit.depths (l :: lines) = l.indentation.length / unit.width :: unit.depths lines := by
        rw [IndentUnit.depths, List.filter_cons_of_pos (by rw [hblank]; decide), List.map_cons]
        rfl
      obtain ⟨last, hlast⟩ := ih hrest (hs.readLine_code hl hblank)
      refine ⟨last, ?_⟩
      rw [hdepths, depthChanges]
      split_ifs at hlast ⊢
      · exact hlast
      · rwa [List.reverse_cons, List.append_assoc]

end PlainScan

/-- **The unit is found by majority.** In a language without braces, for every text laid out in levels of a
unit, without quotes and parentheses: whatever the drops from one line to the next, the blank and the width
found are those of the unit. -/
theorem unit_is_found_by_majority (unit : IndentUnit) (t : Text) (l : Language) (hl : l.infersFromBraces = false)
    (ht : unit.LaysOut t) :
    inferStyle t l = ⟨some unit.ch, unit.width⟩ := by
  obtain ⟨hlines, hdelimiter, hfirst, hclimbs, hdeep⟩ := ht
  set lines := Text.splitOn '\n' t with hsplit
  have hinitial : PlainScan.initial.Counts unit 0 [] 0 := by
    refine ⟨(mul_zero _).symm, rfl, ?_, ?_⟩
    · exact (ite_self 0).symm
    · exact (ite_self 0).symm
  obtain ⟨last, -, hchanges, hspaces, htabs⟩ := hinitial.foldl_readLine hlines
  -- the first line stands at no depth, where the pass begins
  have hchain : (0 :: unit.depths lines).IsChain fun depth next => next ≤ depth + 1 := by
    obtain ⟨rest, hrest⟩ := List.head?_eq_some_iff.1 hfirst
    rw [hrest] at hclimbs ⊢
    exact List.isChain_cons_cons.2 ⟨Nat.zero_le _, hclimbs⟩
  have hwidth' : Tally.mostFrequent (lines.foldl PlainScan.readLine .initial).tally.changes = unit.width := by
    rw [hchanges, List.append_nil, Tally.mostFrequent_map unit.pos, mostFrequent_depthChanges hchain hdeep, Nat.mul_one]
  have hblanks : 0 < 0 + (lines.map (·.indentation.length)).sum := by
    obtain ⟨depth, hmem, hpos⟩ := hdeep
    obtain ⟨line, hline, rfl⟩ := List.mem_map.1 hmem
    have hindent : 0 < line.indentation.length := (Nat.div_pos_iff.1 hpos).1.trans_le (Nat.div_pos_iff.1 hpos).2
    have hle := List.single_le_sum (fun n _ => Nat.zero_le n) _
      (List.mem_map_of_mem (f := (·.indentation.length)) (List.mem_filter.1 hline).1)
    omega
  rw [inferStyle, hl, if_neg Bool.false_ne_true, PlainScan.inferPlain_eq hdelimiter,
    Tally.style_of_blanks hblanks hspaces htabs, hwidth']

/-- three spaces, where two of three dedents are of more than one level -/
theorem three_spaces_are_found :
    let unit : IndentUnit := .spaces 3
    let t : Text := "a:\n   b:\n      c:\n         d\n\nu:\n   v:\n      w\n    \nx:\n   y\nz\n".toList
    ((Language.ofId (some "python")).infersFromBraces = false ∧ unit.LaysOut t) ∧
      unit.depths (Text.splitOn '\n' t) = [0, 1, 2, 3, 0, 1, 2, 0, 1, 0] ∧
      inferStyle t (.ofId (some "python")) = ⟨some ' ', 3⟩ := by
  intro unit t
  have hpython : (Language.ofId (some "python")).infersFromBraces = false := by decide
  have hlines : Text.splitOn '\n' t = ["a:", "   b:", "      c:", "         d", "", "u:", "   v:", "      w", "    ",
    "x:", "   y", "z",
      ""].map String.toList := by
    rfl
  have hdepths : unit.depths (Text.splitOn '\n' t) = [0, 1, 2, 3, 0, 1, 2, 0, 1, 0] := by
    rw [hlines]
    decide
  have hlays : ∀ l ∈ Text.splitOn '\n' t, unit.Lays l := by
    have hall : ∀ l ∈ Text.splitOn '\n' t, unit.makesUp l.indentation = true ∧
      (l.allBlank = false → unit.width ∣ l.indentation.length) := by
      rw [hlines]
      decide
    exact fun l hl => ⟨(hall l hl).1, (hall l hl).2⟩
  have hplain : t.any isDelimiter = false := by rfl
  have ht : unit.LaysOut t := by
    refine ⟨hlays, fun c hc => Bool.eq_false_iff.2 (List.any_eq_false.1 hplain c hc), ?_, ?_, ?_⟩
    · rw [hdepths]; rfl
    · rw [hdepths]; decide
    · rw [hdepths]; decide
  exact ⟨⟨hpython, ht⟩, hdepths, unit_is_found_by_majority unit t _ hpython ht⟩

end CodeEditor
