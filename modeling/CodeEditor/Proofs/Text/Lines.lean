import CodeEditor.Text.LineBreak
import Mathlib.Data.List.GetD
import Mathlib.Tactic
/-!
Lines of a text, from the ends of its breaks.

Everything follows from one equation: where no CR meets an LF, the breaks of two texts put together are those of the
first and, moved behind it, those of the second (`breakEnds_append`). The ends of breaks grow strictly, so a line starts
at or before an offset exactly if it comes no later than the line of the offset (`lineStart_le_iff`); that line ends at
or behind the offset (`le_lineEnd_lineOf`). And a text is cut at the start of a line into the breaks before and the
breaks behind (`breakEnds_cut`).
-/

namespace CodeEditor.Text

/-- a CR at the end of `a` and an LF at the start of `c` become one break when `c` is put behind `a` -/
def Joins (a c : Text) : Prop :=
  a.getLast? = some '\r' ∧ c.head? = some '\n'

instance (a c : Text) : Decidable (Joins a c) :=
  inferInstanceAs (Decidable (_ ∧ _))

/-! ## Slices -/

theorem slice_append (t : Text) {i j k : Nat} (hij : i ≤ j) (hjk : j ≤ k) :
    t.slice i j ++ t.slice j k = t.slice i k := by
  have hdrop : t.drop j = (t.drop i).drop (j - i) := by rw [List.drop_drop]; congr 1; omega
  have hlen : k - i = (j - i) + (k - j) := by omega
  rw [slice, slice, slice, hdrop, hlen, ← List.take_add]

theorem drop_eq_slice_append (t : Text) (i n : Nat) : t.drop i = t.slice i (i + n) ++ t.drop (i + n) := by
  rw [slice, Nat.add_sub_cancel_left, ← List.drop_drop, List.take_append_drop]

theorem length_slice_le (t : Text) (i j : Nat) : (t.slice i j).length ≤ j - i := by
  rw [slice, List.length_take]
  exact Nat.min_le_left _ _

theorem length_slice (t : Text) {i j : Nat} (h : j ≤ t.length) : (t.slice i j).length = j - i := by
  rw [slice, List.length_take, List.length_drop]
  omega

theorem charAt_eq_getElem (t : Text) {i : Nat} (h : i < t.length) : t.charAt i = t[i] := by
  rw [charAt, List.getD_eq_getElem _ _ h]

theorem charAt_of_length_le (t : Text) {i : Nat} (h : t.length ≤ i) : t.charAt i = nul := by
  rw [charAt, List.getD_eq_default _ _ h]

theorem charAt_slice (t : Text) {start stop i : Nat} (h : i < stop - start) :
    (t.slice start stop).charAt i = t.charAt (start + i) := by
  simp [slice, charAt, List.getD_eq_getElem?_getD, h]

theorem charAt_drop (t : Text) (n i : Nat) : charAt (t.drop n) i = t.charAt (n + i) := by
  rw [charAt, charAt, List.getD_eq_getElem?_getD, List.getD_eq_getElem?_getD, List.getElem?_drop]

/-- the last of the first characters is the one at its offset -/
theorem getLast?_take_succ (t : Text) {n : Nat} (h : n < t.length) : (t.take (n + 1)).getLast? = some (t.charAt n) := by
  rw [List.getLast?_take, if_neg (Nat.succ_ne_zero n), Nat.add_sub_cancel, List.getElem?_eq_getElem h, Option.some_or,
    t.charAt_eq_getElem h]

/-- a character other than NUL stands in the text -/
theorem lt_length_of_charAt {t : Text} {i : Nat} (h : t.charAt i ≠ nul) : i < t.length := by
  by_contra hle
  exact h (t.charAt_of_length_le (Nat.le_of_not_lt hle))

/-! ## Breaks -/

theorem breakEndsFrom_cons (o : Nat) (c : Char) (t : Text) (h : ¬ (c = '\r' ∧ t.head? = some '\n')) :
    breakEndsFrom o (c :: t) = (if isBreak c then [o + 1] else []) ++ breakEndsFrom (o + 1) t := by
  rw [breakEndsFrom]
  · split_ifs <;> rfl
  · rintro t' rfl rfl
    exact h ⟨rfl, rfl⟩

/-- induction along a text in which a CR LF counts as one -/
theorem breakInduction {P : Text → Prop} (nil : P []) (crlf : ∀ t, P t → P ('\r' :: '\n' :: t))
    (cons : ∀ c t, ¬ (c = '\r' ∧ t.head? = some '\n') → P t → P (c :: t)) (t : Text) : P t := by
  have hcons : ∀ c t, (∀ u, c = '\r' → t = '\n' :: u → False) → P t → P (c :: t) := by
    intro c t hne ht
    refine cons c t (fun ⟨hcr, hlf⟩ => ?_) ht
    obtain ⟨u, rfl⟩ := List.head?_eq_some_iff.1 hlf
    exact hne u hcr rfl
  fun_induction breakEndsFrom 0 t with
  | case1 => exact nil
  | case2 o t ih => exact crlf t ih
  | case3 o c t hne _ ih => exact hcons c t hne ih
  | case4 o c t hne _ ih => exact hcons c t hne ih

/-- breaks of a text that starts further back lie further back -/
theorem breakEndsFrom_add (o k : Nat) (t : Text) : breakEndsFrom (o + k) t = (breakEndsFrom o t).map (· + k) := by
  induction t using breakInduction generalizing o with
  | nil => rfl
  | crlf t ih =>
    simp only [breakEndsFrom, List.map_cons]
    rw [show o + k + 2 = o + 2 + k by omega, ih]
  | cons c t h ih =>
    rw [breakEndsFrom_cons _ _ _ h, breakEndsFrom_cons _ _ _ h, List.map_append, ← ih,
      show o + k + 1 = o + 1 + k by omega]
    split_ifs <;> rfl

theorem breakEndsFrom_append (o : Nat) (a c : Text) (h : ¬ Joins a c) :
    breakEndsFrom o (a ++ c) = breakEndsFrom o a ++ breakEndsFrom (o + a.length) c := by
  induction a using breakInduction generalizing o with
  | nil => rfl
  | crlf a ih =>
    have h' : ¬ Joins a c := fun ⟨hcr, hlf⟩ => h ⟨by
      obtain ⟨b, rfl⟩ := List.getLast?_eq_some_iff.1 hcr
      rw [← List.cons_append, ← List.cons_append, List.getLast?_append]; rfl, hlf⟩
    simp only [List.cons_append, breakEndsFrom, List.length_cons, ih _ h']
    rw [show o + 2 + a.length = o + (a.length + 1 + 1) by omega]
  | cons d a hne ih =>
    have h' : ¬ Joins a c := fun ⟨hcr, hlf⟩ => h ⟨by
      obtain ⟨b, rfl⟩ := List.getLast?_eq_some_iff.1 hcr
      rw [← List.cons_append, List.getLast?_append]; rfl, hlf⟩
    have hne' : ¬ (d = '\r' ∧ (a ++ c).head? = some '\n') := by
      rintro ⟨rfl, hlf⟩
      cases a with
      | nil => exact h ⟨rfl, hlf⟩
      | cons b a => exact hne ⟨rfl, hlf⟩
    rw [List.cons_append, breakEndsFrom_cons _ _ _ hne', breakEndsFrom_cons _ _ _ hne, ih _ h', List.append_assoc,
      List.length_cons, show o + 1 + a.length = o + (a.length + 1) by omega]

/-- **Breaks of two texts put together**, where no CR meets an LF -/
theorem breakEnds_append (a c : Text) (h : ¬ Joins a c) :
    (a ++ c).breakEnds = a.breakEnds ++ c.breakEnds.map (· + a.length) := by
  rw [breakEnds, breakEndsFrom_append 0 a c h, breakEndsFrom_add]; rfl

theorem breakEnds_lf_cons (c : Text) : breakEnds ('\n' :: c) = 1 :: (breakEnds c).map (· + 1) := by
  have hjoins : ¬ Joins ['\n'] c := fun h => absurd h.1 (by simp)
  have := breakEnds_append ['\n'] c hjoins
  rwa [show breakEnds ['\n'] = [1] from rfl, List.singleton_append] at this

/-- where a CR meets an LF, the end of the CR is no longer one -/
theorem breakEnds_append_of_joins {a c : Text} (h : Joins a c) :
    (a ++ c).breakEnds = a.breakEnds.dropLast ++ c.breakEnds.map (· + a.length) := by
  obtain ⟨hcr, hlf⟩ := h
  obtain ⟨a, rfl⟩ := List.getLast?_eq_some_iff.1 hcr
  obtain ⟨c, rfl⟩ := List.head?_eq_some_iff.1 hlf
  have hleft : ¬ Joins a ['\r'] := fun h => absurd h.2 (by simp)
  have hwhole : ¬ Joins a ('\r' :: '\n' :: c) := fun h => absurd h.2 (by simp)
  have ha : breakEnds (a ++ ['\r']) = breakEnds a ++ [a.length + 1] := by
    rw [breakEnds_append _ _ hleft, show breakEnds ['\r'] = [1] from rfl, List.map_singleton, Nat.add_comm 1]
  have hcrlf : breakEnds ('\r' :: '\n' :: c) = 2 :: (breakEnds c).map (· + 2) := by
    rw [breakEnds, breakEndsFrom, breakEndsFrom_add]; rfl
  rw [ha, breakEnds_lf_cons, List.dropLast_concat, List.append_assoc, List.singleton_append,
    breakEnds_append _ _ hwhole, hcrlf]
  simp only [List.map_cons, List.map_map, List.length_append, List.length_singleton]
  congr 2
  · omega
  · refine List.map_congr_left fun e _ => ?_
    simp only [Function.comp]
    omega

/-- what the end of a break says about the characters around it -/
structure IsBreakEnd (t : Text) (e : Nat) : Prop where
  pos : 0 < e
  le : e ≤ t.length
  isBreak : isBreak (t.charAt (e - 1)) = true
  whole : ¬ (t.charAt (e - 1) = '\r' ∧ t.charAt e = '\n')

theorem isBreakEnd_cons {c : Char} {t : Text} {e : Nat} (h : IsBreakEnd t e) : IsBreakEnd (c :: t) (e + 1) := by
  have he := h.pos
  have hchar : Text.charAt (c :: t) (e + 1 - 1) = t.charAt (e - 1) := by
    rw [show e + 1 - 1 = (e - 1) + 1 by omega]; rfl
  refine ⟨by omega, by simp only [List.length_cons]; exact Nat.succ_le_succ h.le, ?_, ?_⟩
  · rw [hchar]; exact h.isBreak
  · rw [hchar]; exact h.whole

theorem isBreakEnd_of_mem {t : Text} {e : Nat} (h : e ∈ t.breakEnds) : IsBreakEnd t e := by
  induction t using breakInduction generalizing e with
  | nil => cases h
  | crlf t ih =>
    simp only [breakEnds, breakEndsFrom, List.mem_cons] at h
    rcases h with rfl | h
    · exact ⟨by simp, by simp, rfl, fun hw => by simp [charAt] at hw⟩
    · rw [breakEndsFrom_add, List.mem_map] at h
      obtain ⟨d, hd, rfl⟩ := h
      exact isBreakEnd_cons (isBreakEnd_cons (ih hd))
  | cons c t hne ih =>
    rw [breakEnds, breakEndsFrom_cons _ _ _ hne, List.mem_append] at h
    rcases h with h | h
    · split_ifs at h with hc
      · rw [List.mem_singleton] at h
        subst h
        refine ⟨by simp, by simp, hc, fun hw => hne ⟨hw.1, ?_⟩⟩
        cases t with
        | nil => exact absurd hw.2 (by simp [charAt, nul])
        | cons d t => exact congrArg some hw.2
      · cases h
    · rw [breakEndsFrom_add, List.mem_map] at h
      obtain ⟨d, hd, rfl⟩ := h
      exact isBreakEnd_cons (ih hd)

theorem breakEnds_pairwise (t : Text) : t.breakEnds.Pairwise (· < ·) := by
  have hshift : ∀ (k : Nat) (u : Text), u.breakEnds.Pairwise (· < ·) →
      (breakEndsFrom (0 + k) u).Pairwise (· < ·) := by
    intro k u hu
    rw [breakEndsFrom_add, List.pairwise_map]
    exact hu.imp fun h => by omega
  induction t using breakInduction with
  | nil => exact List.Pairwise.nil
  | crlf t ih =>
    refine List.Pairwise.cons (fun e he => ?_) (hshift 2 t ih)
    rw [breakEndsFrom_add, List.mem_map] at he
    obtain ⟨d, hd, rfl⟩ := he
    have := (isBreakEnd_of_mem hd).pos
    omega
  | cons c t hne ih =>
    rw [breakEnds, breakEndsFrom_cons _ _ _ hne]
    split_ifs
    · rw [List.singleton_append]
      refine List.Pairwise.cons (fun e he => ?_) (hshift 1 t ih)
      rw [breakEndsFrom_add, List.mem_map] at he
      obtain ⟨d, hd, rfl⟩ := he
      have := (isBreakEnd_of_mem hd).pos
      omega
    · exact hshift 1 t ih

/-! ## Lines of offsets -/

/-- in a strictly growing list, the entries up to a bound come first -/
theorem getElem_le_iff_lt_countP {l : List Nat} (h : l.Pairwise (· < ·)) (o : Nat) {i : Nat} (hi : i < l.length) :
    l[i] ≤ o ↔ i < l.countP (· ≤ o) := by
  induction l generalizing i with
  | nil => cases hi
  | cons x l ih =>
    obtain ⟨hx, hl⟩ := List.pairwise_cons.1 h
    by_cases hxo : x ≤ o
    · rw [List.countP_cons_of_pos (by simpa using hxo)]
      cases i with
      | zero => simpa using hxo
      | succ i => simpa using ih hl (by simpa using hi)
    · have hzero : l.countP (· ≤ o) = 0 := by
        rw [List.countP_eq_zero]
        intro y hy
        have := hx y hy
        simp only [decide_eq_true_eq]; omega
      rw [List.countP_cons_of_neg (by simpa using hxo), hzero]
      refine iff_of_false (fun hle => ?_) (Nat.not_lt_zero _)
      cases i with
      | zero => exact hxo hle
      | succ i =>
        have := hx _ (List.getElem_mem (by simpa using hi : i < l.length))
        simp only [List.getElem_cons_succ] at hle
        omega

theorem lineOf_lt (t : Text) (o : Nat) : t.lineOf o < t.lineCount :=
  Nat.lt_succ_of_le List.countP_le_length

theorem clampLine_of_lt {t : Text} {line : Nat} (h : line < t.lineCount) : t.clampLine line = line := by
  rw [clampLine]; omega

theorem lineStart_zero (t : Text) : t.lineStart 0 = 0 := by
  rw [lineStart, clampLine, Nat.zero_min]

/-- behind the first line, a line starts at the end of the break before it -/
theorem lineStart_succ {t : Text} {k : Nat} (h : k < t.breakEnds.length) : t.lineStart (k + 1) = t.breakEnds[k] := by
  rw [lineStart, clampLine_of_lt (by rw [lineCount]; omega)]
  exact List.getD_eq_getElem _ _ h

theorem lineEnd_of_lt {t : Text} {line : Nat} (h : line < t.breakEnds.length) :
    t.lineEnd line = t.breakEnds[line] - 1 := by
  rw [lineEnd, clampLine_of_lt (by rw [lineCount]; omega), List.getElem?_eq_getElem h]

theorem lineEnd_last (t : Text) : t.lineEnd t.breakEnds.length = t.length := by
  rw [lineEnd, clampLine_of_lt (by rw [lineCount]; omega), List.getElem?_eq_none le_rfl]

/-- **Starts of lines and lines of offsets**: a line starts at or before an offset if it comes no later than
the line of the offset. -/
theorem lineStart_le_iff {t : Text} {k o : Nat} (hk : k < t.lineCount) : t.lineStart k ≤ o ↔ k ≤ t.lineOf o := by
  cases k with
  | zero => simp only [lineStart_zero, Nat.zero_le]
  | succ k =>
    have hlt : k < t.breakEnds.length := by rw [lineCount] at hk; omega
    rw [lineStart_succ hlt, getElem_le_iff_lt_countP t.breakEnds_pairwise, lineOf, Nat.succ_le_iff]

theorem lt_lineStart_iff {t : Text} {k o : Nat} (hk : k < t.lineCount) : o < t.lineStart k ↔ t.lineOf o < k := by
  rw [← Nat.not_le, ← Nat.not_le, lineStart_le_iff hk]

theorem lineStart_lineOf_le (t : Text) (o : Nat) : t.lineStart (t.lineOf o) ≤ o :=
  (lineStart_le_iff (t.lineOf_lt o)).2 le_rfl

theorem lineOf_mono (t : Text) {o p : Nat} (h : o ≤ p) : t.lineOf o ≤ t.lineOf p :=
  (lineStart_le_iff (t.lineOf_lt o)).1 ((t.lineStart_lineOf_le o).trans h)

theorem le_lineEnd_lineOf {t : Text} {o : Nat} (h : o ≤ t.length) : o ≤ t.lineEnd (t.lineOf o) := by
  by_cases hlast : t.lineOf o < t.breakEnds.length
  · have hnext := (lt_lineStart_iff (Nat.succ_lt_succ hlast)).2 (Nat.lt_succ_self (t.lineOf o))
    rw [lineStart_succ hlast] at hnext
    rw [lineEnd_of_lt hlast]
    omega
  · have heq : t.lineOf o = t.breakEnds.length := by
      have := t.lineOf_lt o
      rw [lineCount] at this; omega
    rw [heq, lineEnd_last]; exact h

/-- a line that does not end the text ends in a break character -/
theorem isBreak_lineEnd {t : Text} {line : Nat} (h : t.lineEnd line < t.length) :
    isBreak (t.charAt (t.lineEnd line)) = true := by
  unfold lineEnd at h ⊢
  split at h
  · rename_i e he
    exact (isBreakEnd_of_mem (List.mem_of_getElem? he)).isBreak
  · exact absurd h (lt_irrefl _)

theorem lineStart_le_length (t : Text) (line : Nat) : t.lineStart line ≤ t.length := by
  unfold lineStart
  split
  · exact Nat.zero_le _
  · rename_i k hk
    by_cases h : k < t.breakEnds.length
    · rw [List.getD_eq_getElem _ _ h]
      exact (isBreakEnd_of_mem (List.getElem_mem h)).le
    · rw [List.getD_eq_default _ _ (by omega)]

/-- behind the last line there is only the last line -/
theorem lineStart_clampLine (t : Text) (line : Nat) : t.lineStart (t.clampLine line) = t.lineStart line := by
  have hidem : t.clampLine (t.clampLine line) = t.clampLine line := by simp only [clampLine]; omega
  simp only [lineStart, hidem]

/-- the next line starts later -/
theorem lineStart_lt_succ {t : Text} {k : Nat} (h : k + 1 < t.lineCount) : t.lineStart k < t.lineStart (k + 1) := by
  have hk : k < t.breakEnds.length := by rw [lineCount] at h; omega
  rw [lineStart_succ hk]
  cases k with
  | zero =>
    rw [lineStart_zero]
    exact (isBreakEnd_of_mem (List.getElem_mem hk)).pos
  | succ k =>
    rw [lineStart_succ (by omega)]
    exact List.pairwise_iff_getElem.1 t.breakEnds_pairwise k (k + 1) (by omega) hk (Nat.lt_succ_self k)

/-- a line holds its start -/
theorem lineOf_lineStart {t : Text} {k : Nat} (hk : k < t.lineCount) : t.lineOf (t.lineStart k) = k := by
  have hle := (lineStart_le_iff hk).1 le_rfl
  have hlt := t.lineOf_lt (t.lineStart k)
  by_contra hne
  have hnext : k + 1 < t.lineCount := by omega
  have hback := (lineStart_le_iff hnext).2 (show k + 1 ≤ t.lineOf (t.lineStart k) by omega)
  exact absurd (lineStart_lt_succ hnext) hback.not_gt

theorem lineStart_mono (t : Text) {i j : Nat} (h : i ≤ j) : t.lineStart i ≤ t.lineStart j := by
  have hclamp : ∀ k, t.clampLine k < t.lineCount := fun k => by simp only [clampLine, lineCount]; omega
  rw [← t.lineStart_clampLine i, ← t.lineStart_clampLine j, lineStart_le_iff (hclamp i), lineOf_lineStart (hclamp j)]
  simp only [clampLine]
  omega

/-! ## Cutting at a line -/

/-- no break is torn apart at the start of a line -/
theorem not_joins_lineStart (t : Text) {line : Nat} (h : line < t.lineCount) :
    ¬ Joins (t.take (t.lineStart line)) (t.drop (t.lineStart line)) := by
  rintro ⟨hcr, hlf⟩
  cases line with
  | zero => rw [lineStart_zero] at hcr; cases hcr
  | succ k =>
    have hk : k < t.breakEnds.length := by rw [lineCount] at h; omega
    rw [lineStart_succ hk] at hcr hlf
    have hend := isBreakEnd_of_mem (List.getElem_mem hk)
    have hpos := hend.pos
    have hle := hend.le
    refine hend.whole ⟨?_, ?_⟩
    · rw [List.getLast?_take, if_neg (by omega)] at hcr
      rw [charAt_eq_getElem _ (by omega)]
      rw [List.getElem?_eq_getElem (by omega)] at hcr
      simpa using hcr
    · rw [List.head?_drop] at hlf
      rw [charAt, List.getD_eq_getElem?_getD, hlf]; rfl

/-- **The start of a line cuts the breaks** into those of the lines before and those behind. -/
theorem breakEnds_cut (t : Text) {line : Nat} (h : line < t.lineCount) :
    let p := t.lineStart line
    t.breakEnds = breakEnds (t.take p) ++ (breakEnds (t.drop p)).map (· + p) ∧
    (breakEnds (t.take p)).length = line := by
  intro p
  have hp : (t.take p).length = p := by
    rw [List.length_take]; exact min_eq_left (t.lineStart_le_length line)
  have hcut : t.breakEnds = breakEnds (t.take p) ++ (breakEnds (t.drop p)).map (· + p) := by
    have := breakEnds_append (t.take p) (t.drop p) (t.not_joins_lineStart h)
    rwa [List.take_append_drop, hp] at this
  refine ⟨hcut, ?_⟩
  -- the breaks up to `p` are those of the part before it, and there are `line` of them
  have hcount : t.breakEnds.countP (· ≤ p) = (breakEnds (t.take p)).length := by
    rw [hcut, List.countP_append]
    have hleft : (breakEnds (t.take p)).countP (· ≤ p) = (breakEnds (t.take p)).length := by
      rw [List.countP_eq_length]
      intro e he
      have := (isBreakEnd_of_mem he).le
      rw [hp] at this
      simpa using this
    have hright : ((breakEnds (t.drop p)).map (· + p)).countP (· ≤ p) = 0 := by
      rw [List.countP_eq_zero]
      intro e he
      obtain ⟨d, hd, rfl⟩ := List.mem_map.1 he
      have := (isBreakEnd_of_mem hd).pos
      simp only [decide_eq_true_eq]; omega
    rw [hleft, hright, Nat.add_zero]
  rw [← hcount]
  exact lineOf_lineStart h

end CodeEditor.Text
