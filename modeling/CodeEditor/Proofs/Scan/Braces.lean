import CodeEditor.Proofs.Scan.Counts
import CodeEditor.Proofs.Text.Lines
/-!
Pairs of braces.

What one offset does to the state of a scan, the scan for the other brace undoes when it reads the same offset
(`advance_undo`). So both scans pass through the same states between two braces: at each offset that of the closing
braces seen from there on, less the opening ones (`stateAt`). They stop at the first brace of their kind that they
meet in the initial state.

As long as the numbers fit in the depths of the scans, that state is met where the braces balance, and not to stop
before is to have no offset from which on there are more opening than closing braces. Both scans lead from one brace to
the other exactly if the braces between them are balanced so (`Encloses`). Hence the brace that closes a block and the
one that opens it find each other (`closes_iff_opens`), whatever quotes, escapes and spans stand between them.
-/

namespace CodeEditor

/-- a brace of some kind, outside the spans -/
def IsBrace (t : Text) (spans : Spans) (brace : Char) (offset : Nat) : Prop :=
  spans.covers offset = false ∧ t.charAt offset = brace

instance (t : Text) (spans : Spans) (brace : Char) (offset : Nat) : Decidable (IsBrace t spans brace offset) :=
  inferInstanceAs (Decidable (_ ∧ _))

/-- a brace lies in the text -/
theorem IsBrace.lt_length {t : Text} {spans : Spans} {brace : Char} {offset : Nat} (h : IsBrace t spans brace offset)
    (hbrace : brace ≠ nul) : offset < t.length := by
  by_contra hle
  exact hbrace (h.2.symm.trans (t.charAt_of_length_le (Nat.le_of_not_lt hle)))

namespace BraceDepth

variable {t : Text} {spans : Spans} {opener target : Char} {d d' : BraceDepth} {offset : Nat}

/-! ## One offset -/

/-- read the character at `offset`, be it the target of the starting level or not -/
def advance (t : Text) (spans : Spans) (opener target : Char) (d : BraceDepth) (offset : Nat) : BraceDepth :=
  if spans.covers offset then d
  else if t.charAt offset = '\'' then (if quoteToggles t offset then { d with quoted := !d.quoted } else d)
  else if d.quoted then d
  else if t.charAt offset = target then { d with depth := d.depth - 1 }
  else if t.charAt offset = opener then { d with depth := d.depth + 1 }
  else d

/-- **Only the target itself** ends a scan, and only in the initial state. -/
theorem read?_eq (htarget : target ≠ '\'') :
    d.read? t spans opener target offset =
      if d = initial ∧ IsBrace t spans target offset then none else some (d.advance t spans opener target offset) := by
  obtain ⟨depth, quoted⟩ := d
  unfold read? advance IsBrace initial
  rcases Bool.eq_false_or_eq_true (spans.covers offset) with hcovers | hcovers
  · simp [hcovers]
  · by_cases hquote : t.charAt offset = '\''
    · have hne : ¬ '\'' = target := fun h => htarget h.symm
      simp only [hcovers, Bool.false_eq_true, if_false, hquote, if_true, hne, and_false]
      split_ifs <;> rfl
    · by_cases hchar : t.charAt offset = target
      · cases quoted with
        | true => simp [hcovers, hchar, htarget]
        | false =>
          by_cases hdepth : depth = 0 <;> simp [hcovers, hchar, htarget, hdepth]
      · simp only [hcovers, Bool.false_eq_true, if_false, hquote, hchar, and_false]
        split_ifs <;> rfl

/-- **A scan can be run backward.** The scan for the other brace takes back what reading an offset does. -/
theorem advance_undo (hne : opener ≠ target) (d : BraceDepth) (offset : Nat) :
    (d.advance t spans opener target offset).advance t spans target opener offset = d := by
  obtain ⟨depth, quoted⟩ := d
  unfold advance
  cases hcovers : spans.covers offset with
  | true => simp only [if_true]
  | false =>
    simp only [Bool.false_eq_true, if_false]
    by_cases hquote : t.charAt offset = '\''
    · -- a quote: switched twice, or never
      simp only [hquote, if_true]
      split_ifs <;> simp
    · simp only [hquote, if_false]
      cases quoted with
      | true => simp only [if_true]
      | false =>
        by_cases htarget : t.charAt offset = target
        · have hopener : ¬ target = opener := hne.symm
          simp [htarget, hopener, Int32.sub_add_cancel]
        · by_cases hopener : t.charAt offset = opener
          · simp [hopener, hne, Int32.add_sub_cancel]
          · simp [htarget, hopener]

theorem advance_eq_iff (hne : opener ≠ target) :
    d.advance t spans opener target offset = d' ↔ d = d'.advance t spans target opener offset := by
  constructor
  · rintro rfl
    rw [advance_undo hne]
  · rintro rfl
    rw [advance_undo hne.symm]

/-! ## A stretch -/

/-- read one offset after another; `none` if the target of the starting level is among them -/
def readAll? (t : Text) (spans : Spans) (opener target : Char) (d : BraceDepth) (offsets : List Nat) :
    Option BraceDepth :=
  offsets.foldlM (fun d offset => d.read? t spans opener target offset) d

theorem readAll?_cons (d : BraceDepth) (offset : Nat) (rest : List Nat) :
    d.readAll? t spans opener target (offset :: rest) =
      (d.read? t spans opener target offset).bind fun d => d.readAll? t spans opener target rest :=
  List.foldlM_cons

theorem readAll?_concat (d : BraceDepth) (offsets : List Nat) (last : Nat) :
    d.readAll? t spans opener target (offsets ++ [last]) =
      (d.readAll? t spans opener target offsets).bind fun d => d.read? t spans opener target last := by
  simp [readAll?]

/-- a scan finds the brace that it reaches in the initial state -/
theorem find?_eq_some_iff (htarget : target ≠ '\'') {d : BraceDepth} {offsets : List Nat} {found : Nat} :
    d.find? t spans opener target offsets = some found ↔
      ∃ before behind, offsets = before ++ found :: behind ∧ d.readAll? t spans opener target before = some initial ∧
        IsBrace t spans target found := by
  induction offsets generalizing d with
  | nil => simp [find?]
  | cons offset rest ih =>
    rw [find?, read?_eq htarget]
    by_cases hfound : d = initial ∧ IsBrace t spans target offset
    · obtain ⟨rfl, hbrace⟩ := hfound
      simp only [hbrace, and_self, if_true, Option.some.injEq]
      constructor
      · rintro rfl
        exact ⟨[], rest, rfl, rfl, hbrace⟩
      · rintro ⟨before, behind, hcut, hbefore, -⟩
        cases before with
        | nil => exact (List.cons.inj hcut).1
        | cons first before =>
          -- the scan would have had to read past its target
          obtain ⟨rfl, -⟩ := List.cons.inj hcut
          rw [readAll?_cons, read?_eq htarget, if_pos ⟨rfl, hbrace⟩] at hbefore
          cases hbefore
    · rw [if_neg hfound]
      simp only [ih]
      constructor
      · rintro ⟨before, behind, rfl, hbefore, hbrace⟩
        refine ⟨offset :: before, behind, rfl, ?_, hbrace⟩
        rw [readAll?_cons, read?_eq htarget, if_neg hfound]
        exact hbefore
      · rintro ⟨before, behind, hcut, hbefore, hbrace⟩
        cases before with
        | nil =>
          -- a target in the initial state is not read
          obtain ⟨rfl, -⟩ := List.cons.inj hcut
          exact absurd ⟨Option.some.inj hbefore, hbrace⟩ hfound
        | cons first before =>
          obtain ⟨rfl, hrest⟩ := List.cons.inj hcut
          rw [readAll?_cons, read?_eq htarget, if_neg hfound] at hbefore
          exact ⟨before, behind, hrest, hbefore, hbrace⟩

end BraceDepth

/-! ## The states between two offsets -/

open BraceDepth

variable {t : Text} {spans : Spans} {o c stop : Nat}

/-- the state at `o` of a scan that is in the initial one at `stop` -/
def stateAt (t : Text) (spans : Spans) (stop o : Nat) : BraceDepth :=
  ⟨count32 t spans '{' '}' o stop, decide (Odd (quotesIn t spans o stop))⟩

@[simp] theorem stateAt_self (t : Text) (spans : Spans) (stop : Nat) : stateAt t spans stop stop = initial := by
  simp [stateAt, initial]

/-- **One offset back** leads to the state there. -/
theorem advance_stateAt (h : o < stop) :
    (stateAt t spans stop (o + 1)).advance t spans '}' '{' o = stateAt t spans stop o := by
  have hquotes : quotesIn t spans o stop = quotesIn t spans (o + 1) stop + if IsQuote t spans o then 1 else 0 :=
    quotesIn_step h
  unfold advance
  cases hcovers : spans.covers o with
  | true =>
    rw [if_neg (not_isQuote_of_covers hcovers), Nat.add_zero] at hquotes
    simp only [if_true, stateAt, hquotes, count32_of_not_isSeen h (not_isSeen_of_covers hcovers)]
  | false =>
    simp only [Bool.false_eq_true, if_false]
    by_cases hchar : t.charAt o = '\''
    · -- a quote is no brace, and switches the state unless it is escaped
      have hkeep : count32 t spans '{' '}' o stop = count32 t spans '{' '}' (o + 1) stop :=
        count32_of_ne h (by rw [hchar]; decide) (by rw [hchar]; decide)
      have hquote : IsQuote t spans o ↔ quoteToggles t o = true := by simp [IsQuote, hcovers, hchar]
      simp only [hchar, if_true, stateAt, hkeep, hquotes, hquote]
      split_ifs
      · simp only [Nat.odd_add_one, decide_not]
      · simp only [Nat.add_zero]
    · have hquote : ¬ IsQuote t spans o := fun h => hchar h.2.1
      rw [if_neg hquote, Nat.add_zero] at hquotes
      simp only [hchar, if_false, stateAt, hquotes]
      by_cases hodd : Odd (quotesIn t spans (o + 1) stop)
      · have hskip : ¬ IsSeen t spans stop o := fun hseen => (isSeen_iff_not_odd hcovers).1 hseen hodd
        simp only [hodd, decide_true, if_true, count32_of_not_isSeen h hskip]
      · rw [count32_of_isSeen h ((isSeen_iff_not_odd hcovers).2 hodd)]
        simp only [hodd, decide_false, Bool.false_eq_true, if_false]
        split_ifs <;> simp_all

/-- the offsets between two others -/
def offsetsBetween (o c : Nat) : List Nat :=
  List.range' (o + 1) (c - (o + 1))

theorem offsetsBetween_append {o c n : Nat} (ho : o < c) (hc : c < n) :
    offsetsBetween o n = offsetsBetween o c ++ c :: offsetsBetween c n := by
  have hlen : n - (o + 1) = (c - (o + 1)) + (n - c) := by omega
  have hstart : o + 1 + (c - (o + 1)) = c := by omega
  have hrest : n - c = n - (c + 1) + 1 := by omega
  rw [offsetsBetween, hlen, ← List.range'_append_1, hstart, hrest, List.range'_succ]
  rfl

theorem range_eq_append {o c : Nat} (h : o < c) : List.range c = List.range o ++ o :: offsetsBetween o c := by
  have hlen : c = o + (c - (o + 1) + 1) := by omega
  rw [List.range_eq_range', List.range_eq_range', offsetsBetween]
  conv_lhs => rw [hlen, ← List.range'_append_1, List.range'_succ]
  rw [Nat.zero_add]

theorem lt_of_mem_offsetsBetween {o c i : Nat} (h : i ∈ offsetsBetween o c) : o < i ∧ i < c := by
  rw [offsetsBetween, List.mem_range'_1] at h
  omega

/-- **Forward**, a scan that comes to be in the initial state was in the states told by the end, and met no closing
brace in the initial one. -/
theorem readAll?_forward_iff {d : BraceDepth} (h : o ≤ stop) :
    d.readAll? t spans '{' '}' (List.range' o (stop - o)) = some initial ↔
      d = stateAt t spans stop o ∧
        ∀ x, o ≤ x → x < stop → ¬ (stateAt t spans stop x = initial ∧ IsBrace t spans '}' x) := by
  induction h using Nat.decreasingInduction generalizing d with
  | self =>
    rw [Nat.sub_self, List.range'_zero, stateAt_self]
    constructor
    · intro hread
      exact ⟨Option.some.inj hread, fun x hle hlt => absurd hlt (Nat.not_lt.2 hle)⟩
    · rintro ⟨rfl, -⟩
      rfl
  | of_succ o h ih =>
    have hback : ∀ d : BraceDepth, d.advance t spans '{' '}' o = stateAt t spans stop (o + 1) ↔
      d = stateAt t spans stop o := by
      intro d
      rw [advance_eq_iff (by decide), advance_stateAt h]
    rw [offsets_cons h, readAll?_cons, read?_eq (by decide)]
    by_cases hstops : d = initial ∧ IsBrace t spans '}' o
    · obtain ⟨rfl, hbrace⟩ := hstops
      rw [if_pos ⟨rfl, hbrace⟩]
      refine iff_of_false (by simp) ?_
      rintro ⟨hstate, hnone⟩
      exact hnone o le_rfl h ⟨hstate.symm, hbrace⟩
    · rw [if_neg hstops, Option.bind_some, ih, hback]
      constructor
      · rintro ⟨rfl, hnone⟩
        refine ⟨rfl, fun x hle hlt => ?_⟩
        rcases hle.eq_or_lt with rfl | hgt
        · exact hstops
        · exact hnone x hgt hlt
      · rintro ⟨rfl, hnone⟩
        exact ⟨rfl, fun x hle => hnone x (Nat.le_of_succ_le hle)⟩

/-- **Back**, a scan passes through the same states as long as it meets no opening brace in the initial one. -/
theorem readAll?_back_iff {d : BraceDepth} (h : o ≤ stop) :
    initial.readAll? t spans '}' '{' (List.range' o (stop - o)).reverse = some d ↔
      stateAt t spans stop o = d ∧
        ∀ x, o ≤ x → x < stop → ¬ (stateAt t spans stop (x + 1) = initial ∧ IsBrace t spans '{' x) := by
  induction h using Nat.decreasingInduction generalizing d with
  | self =>
    rw [Nat.sub_self, List.range'_zero, stateAt_self]
    constructor
    · intro hread
      exact ⟨Option.some.inj hread, fun x hle hlt => absurd hlt (Nat.not_lt.2 hle)⟩
    · rintro ⟨rfl, -⟩
      rfl
  | of_succ o h ih =>
    rw [offsets_cons h, List.reverse_cons, readAll?_concat, Option.bind_eq_some_iff]
    simp only [ih, read?_eq (show '{' ≠ '\'' by decide)]
    constructor
    · rintro ⟨_, ⟨rfl, hnone⟩, hread⟩
      split_ifs at hread with hstops
      rw [advance_stateAt h] at hread
      refine ⟨Option.some.inj hread, fun x hle hlt => ?_⟩
      rcases hle.eq_or_lt with rfl | hgt
      · exact hstops
      · exact hnone x hgt hlt
    · rintro ⟨rfl, hnone⟩
      refine ⟨_, ⟨rfl, fun x hle => hnone x (Nat.le_of_succ_le hle)⟩, ?_⟩
      rw [if_neg (hnone o le_rfl h), advance_stateAt h]

/-! ## Balanced braces -/

/-- The braces between two offsets are balanced: all together, and with no more opening than closing
ones from any offset on. -/
structure Encloses (t : Text) (spans : Spans) (o c : Nat) : Prop where
  lt : o < c
  quotes : Even (quotesIn t spans (o + 1) c)
  balance : unmatched t spans '{' '}' (o + 1) c = 0
  closing : ∀ x, o < x → x ≤ c → 0 ≤ unmatched t spans '{' '}' x c

/-- the braces between a brace and its partner fit in the depths of the scans -/
def BracesFit (t : Text) (spans : Spans) (o c : Nat) : Prop :=
  CountsFit t spans '{' '}' (o + 1) c

theorem stateAt_eq_initial_iff (hfit : BracesFit t spans o c) {x : Nat} (ho : o < x) (hc : x ≤ c) :
    stateAt t spans c x = initial ↔ unmatched t spans '{' '}' x c = 0 ∧ Even (quotesIn t spans x c) := by
  rw [stateAt, initial, BraceDepth.mk.injEq, hfit.count32_eq_zero_iff ho hc, decide_eq_false_iff_not,
    Nat.not_odd_iff_even]

/-- the brace that a scan stops at, or that it has just read, is seen -/
theorem IsBrace.isSeen {brace : Char} {x : Nat} (h : IsBrace t spans brace x)
    (hquotes : Even (quotesIn t spans (x + 1) c)) :
    IsSeen t spans c x :=
  ⟨h.1, hquotes⟩

/-- before a brace there stand as many quotes as behind it -/
theorem IsBrace.quotesIn_eq {brace : Char} {x : Nat} (h : IsBrace t spans brace x) (hbrace : brace ≠ '\'')
    (hx : x < c) :
    quotesIn t spans x c = quotesIn t spans (x + 1) c := by
  have hquote : ¬ IsQuote t spans x := fun hquote => hbrace (h.2.symm.trans hquote.2.1)
  rw [quotesIn_step hx, if_neg hquote, Nat.add_zero]

/-- **Forward**, a scan is led from one offset to the other exactly if the braces between them are balanced. -/
theorem readAll?_forward_iff_encloses (hfit : BracesFit t spans o c) (ho : o < c) :
    initial.readAll? t spans '{' '}' (offsetsBetween o c) = some initial ↔ Encloses t spans o c := by
  rw [offsetsBetween, readAll?_forward_iff ho, eq_comm, stateAt_eq_initial_iff hfit (Nat.lt_succ_self o) ho]
  constructor
  · rintro ⟨⟨hbalance, hquotes⟩, hnone⟩
    refine ⟨ho, hquotes, hbalance, fun x hx => ?_⟩
    -- the number falls at a closing brace only, and there it was not zero
    induction x, hx using Nat.le_induction with
    | base => exact fun _ => hbalance.ge
    | succ x hx ih =>
      intro hc
      have hpos := ih (Nat.le_of_succ_le hc)
      have hstep := unmatched_step t spans '{' '}' (show x < c from hc)
      split_ifs at hstep with hclose hopen
      · omega
      · have hbrace : IsBrace t spans '}' x := ⟨hclose.1.1, hclose.2⟩
        have hquotes' : Even (quotesIn t spans x c) := (hbrace.quotesIn_eq (by decide) hc).symm ▸ hclose.1.2
        have hne : unmatched t spans '{' '}' x c ≠ 0 := fun hzero =>
          hnone x hx hc ⟨(stateAt_eq_initial_iff hfit hx (Nat.le_of_succ_le hc)).2 ⟨hzero, hquotes'⟩, hbrace⟩
        omega
      · omega
      · omega
  · rintro ⟨-, hquotes, hbalance, hclosing⟩
    refine ⟨⟨hbalance, hquotes⟩, ?_⟩
    rintro x hx hlt ⟨hstate, hbrace⟩
    obtain ⟨hzero, heven⟩ := (stateAt_eq_initial_iff hfit hx hlt.le).1 hstate
    rw [hbrace.quotesIn_eq (by decide) hlt] at heven
    have hstep := unmatched_of_isSeen '{' '}' hlt (hbrace.isSeen heven)
    have hnext := hclosing (x + 1) (by omega) hlt
    rw [hbrace.2, if_pos rfl, if_neg (by decide)] at hstep
    omega

/-- **Back**, it is so, too. -/
theorem readAll?_back_iff_encloses (hfit : BracesFit t spans o c) (ho : o < c) :
    initial.readAll? t spans '}' '{' (offsetsBetween o c).reverse = some initial ↔ Encloses t spans o c := by
  rw [offsetsBetween, readAll?_back_iff ho, stateAt_eq_initial_iff hfit (Nat.lt_succ_self o) ho]
  constructor
  · rintro ⟨⟨hbalance, hquotes⟩, hnone⟩
    refine ⟨ho, hquotes, hbalance, fun x hx hc => ?_⟩
    -- back, the number falls at an opening brace only, and behind that it was not zero
    induction hc using Nat.decreasingInduction with
    | self => simp
    | of_succ x hc ih =>
      have hpos := ih (Nat.lt_succ_of_lt hx)
      have hstep := unmatched_step t spans '{' '}' hc
      split_ifs at hstep with hclose hopen hopen
      · omega
      · omega
      · have hne : unmatched t spans '{' '}' (x + 1) c ≠ 0 := fun hzero =>
          hnone x hx hc ⟨(stateAt_eq_initial_iff hfit (Nat.lt_succ_of_lt hx) hc).2 ⟨hzero, hopen.1.2⟩,
            hopen.1.1, hopen.2⟩
        omega
      · omega
  · rintro ⟨-, hquotes, hbalance, hclosing⟩
    refine ⟨⟨hbalance, hquotes⟩, ?_⟩
    rintro x hx hlt ⟨hstate, hbrace⟩
    obtain ⟨hzero, heven⟩ := (stateAt_eq_initial_iff hfit (show o < x + 1 by omega) hlt).1 hstate
    have hstep := unmatched_of_isSeen '{' '}' hlt (hbrace.isSeen heven)
    have hhere := hclosing x hx hlt.le
    rw [hbrace.2, if_neg (by decide), if_pos rfl] at hstep
    omega

/-! ## The two scans -/

theorem lt_of_closingBrace? (h : closingBrace? t spans o = some c) : o < c := by
  obtain ⟨before, behind, hcut, -, -⟩ := (find?_eq_some_iff (by decide)).1 h
  have hmem : c ∈ offsetsBetween o t.length := by
    rw [offsetsBetween, hcut]; exact List.mem_append_right _ List.mem_cons_self
  exact (lt_of_mem_offsetsBetween hmem).1

theorem lt_of_openingBrace? (h : openingBrace? t spans c = some o) : o < c := by
  obtain ⟨before, behind, hcut, -, -⟩ := (find?_eq_some_iff (by decide)).1 h
  have hmem : o ∈ (List.range c).reverse := by rw [hcut]; exact List.mem_append_right _ List.mem_cons_self
  rwa [List.mem_reverse, List.mem_range] at hmem

theorem closingBrace?_eq_some_iff (hfit : BracesFit t spans o c) :
    closingBrace? t spans o = some c ↔ Encloses t spans o c ∧ IsBrace t spans '}' c := by
  have hscan : closingBrace? t spans o = initial.find? t spans '{' '}' (offsetsBetween o t.length) := rfl
  constructor
  · intro h
    have ho := lt_of_closingBrace? h
    rw [hscan, find?_eq_some_iff (by decide)] at h
    obtain ⟨before, behind, hcut, hbefore, hbrace⟩ := h
    have hc : c < t.length := hbrace.lt_length (by decide)
    rw [offsetsBetween_append ho hc, List.append_cons_inj_of_notMem
      (fun h => absurd (lt_of_mem_offsetsBetween h).2 (lt_irrefl c))
      (fun h => absurd (lt_of_mem_offsetsBetween h).1 (lt_irrefl c))] at hcut
    obtain ⟨rfl, -, -⟩ := hcut
    exact ⟨(readAll?_forward_iff_encloses hfit ho).1 hbefore, hbrace⟩
  · rintro ⟨hencloses, hbrace⟩
    have hc : c < t.length := hbrace.lt_length (by decide)
    rw [hscan, find?_eq_some_iff (by decide)]
    exact ⟨_, _, offsetsBetween_append hencloses.lt hc,
      (readAll?_forward_iff_encloses hfit hencloses.lt).2 hencloses, hbrace⟩

theorem openingBrace?_eq_some_iff (hfit : BracesFit t spans o c) :
    openingBrace? t spans c = some o ↔ Encloses t spans o c ∧ IsBrace t spans '{' o := by
  constructor
  · intro h
    have ho := lt_of_openingBrace? h
    rw [openingBrace?, find?_eq_some_iff (by decide)] at h
    obtain ⟨before, behind, hcut, hbefore, hbrace⟩ := h
    have hcut' : (offsetsBetween o c).reverse ++ o :: (List.range o).reverse = before ++ o :: behind := by
      rw [← hcut, range_eq_append ho, List.reverse_append, List.reverse_cons, List.append_assoc, List.singleton_append]
    rw [List.append_cons_inj_of_notMem
      (fun h => absurd (lt_of_mem_offsetsBetween (List.mem_reverse.1 h)).1 (lt_irrefl o))
      (fun h => absurd (List.mem_range.1 (List.mem_reverse.1 h)) (lt_irrefl o))] at hcut'
    obtain ⟨rfl, -, -⟩ := hcut'
    exact ⟨(readAll?_back_iff_encloses hfit ho).1 hbefore, hbrace⟩
  · rintro ⟨hencloses, hbrace⟩
    rw [openingBrace?, find?_eq_some_iff (by decide)]
    refine ⟨(offsetsBetween o c).reverse, (List.range o).reverse, ?_,
      (readAll?_back_iff_encloses hfit hencloses.lt).2 hencloses, hbrace⟩
    rw [range_eq_append hencloses.lt, List.reverse_append, List.reverse_cons, List.append_assoc, List.singleton_append]

/-- **Braces find each other**: an opening brace finds a closing one if and only if that one finds it. -/
theorem closes_iff_opens (hfit : BracesFit t spans o c) :
    (IsBrace t spans '{' o ∧ closingBrace? t spans o = some c) ↔
      (IsBrace t spans '}' c ∧ openingBrace? t spans c = some o) := by
  rw [closingBrace?_eq_some_iff hfit, openingBrace?_eq_some_iff hfit]
  constructor
  · rintro ⟨hopen, hencloses, hclose⟩
    exact ⟨hclose, hencloses, hopen⟩
  · rintro ⟨hclose, hencloses, hopen⟩
    exact ⟨hopen, hencloses, hclose⟩

end CodeEditor
