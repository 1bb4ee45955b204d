import CodeEditor.Proofs.Scan.Counts
import CodeEditor.Proofs.Text.Runs
import Mathlib.Data.Nat.Find
import Mathlib.Order.Bounds.Basic
/-!
Round and square brackets by counting.

The two counts of a scan that reads a text back are the numbers of closing brackets it has seen, less the numbers of
opening ones, in 32 bits (`Nesting.Tells`, kept by one step in `Tells.read`). As far as these numbers fit
(`BracketsFit`), what the two scans look for is said without them:

* the statement around an offset starts on the nearest line start from which on no kind has more closing than opening
  brackets (`statement_starts_on_nearest_closed_line`);
* the open bracket before an offset is the nearest one that outnumbers the closing ones of its kind
  (`openBracket?_eq_some_iff`, `openBracket?_eq_none_iff`).

Whatever the counts are, what is found as an open bracket is a bracket (`openBracket?_stands`).
-/

namespace CodeEditor

variable {t : Text} {spans : Spans} {low stop o : Nat}

/-! ## What a scan knows -/

/-- from no offset in `[low, stop]` up to `stop` has a kind of bracket too many unmatched ones for 32 bits -/
def BracketsFit (t : Text) (spans : Spans) (low stop : Nat) : Prop :=
  CountsFit t spans '(' ')' low stop ∧ CountsFit t spans '[' ']' low stop

theorem bracketsFit_of_lt (h : stop < low + 2 ^ 31) : BracketsFit t spans low stop :=
  ⟨countsFit_of_lt h, countsFit_of_lt h⟩

/-- from `o` up to `stop`, no kind of bracket has more closing than opening ones -/
def BracketsClosed (t : Text) (spans : Spans) (o stop : Nat) : Prop :=
  countSeen t spans ')' o stop ≤ countSeen t spans '(' o stop ∧
  countSeen t spans ']' o stop ≤ countSeen t spans '[' o stop

instance (t : Text) (spans : Spans) (o stop : Nat) : Decidable (BracketsClosed t spans o stop) :=
  inferInstanceAs (Decidable (_ ∧ _))

namespace Nesting

variable {n : Nesting}

/-- the state of a scan that has read the characters in `[o, stop)` from the last to the first -/
structure Tells (t : Text) (spans : Spans) (stop o : Nat) (n : Nesting) : Prop where
  round : n.round = count32 t spans '(' ')' o stop
  square : n.square = count32 t spans '[' ']' o stop
  quoted : n.quoted = true ↔ Odd (quotesIn t spans o stop)

theorem tells_initial (t : Text) (spans : Spans) (stop : Nat) : initial.Tells t spans stop stop := by
  refine ⟨?_, ?_, ?_⟩
  · simp [initial]
  · simp [initial]
  · simp [initial]

/-- outside the spans and outside quotes, a bracket moves the count of its kind -/
theorem read_bracket (hcovers : spans.covers o = false) (hchar : t.charAt o ≠ '\'') (hinside : n.quoted = false) :
    (n.read t spans o).round = n.round + (if t.charAt o = ')' then 1 else 0) - (if t.charAt o = '(' then 1 else 0) ∧
      (n.read t spans o).square =
        n.square + (if t.charAt o = ']' then 1 else 0) - (if t.charAt o = '[' then 1 else 0) ∧
      (n.read t spans o).quoted = false := by
  simp only [Nesting.read, hcovers, hchar, hinside, Bool.false_eq_true, if_false]
  split_ifs <;> simp_all

/-- **One step back** keeps the counts. -/
theorem Tells.read (h : n.Tells t spans stop (o + 1)) (ho : o < stop) : (n.read t spans o).Tells t spans stop o := by
  obtain ⟨hround, hsquare, hquoted⟩ := h
  have hquotes : quotesIn t spans o stop = quotesIn t spans (o + 1) stop + if IsQuote t spans o then 1 else 0 :=
    quotesIn_step ho
  cases hcovers : spans.covers o with
  | true =>
    have hseen : ¬ IsSeen t spans stop o := not_isSeen_of_covers hcovers
    rw [if_neg (not_isQuote_of_covers hcovers), Nat.add_zero] at hquotes
    have hread : n.read t spans o = n := by rw [Nesting.read, hcovers, if_pos rfl]
    rw [hread]
    exact ⟨by rw [hround, count32_of_not_isSeen ho hseen], by rw [hsquare, count32_of_not_isSeen ho hseen],
      by rw [hquoted, hquotes]⟩
  | false =>
    by_cases hchar : t.charAt o = '\''
    · -- a quote is no bracket, and switches the state unless it is escaped
      have hne : ∀ c, c ≠ '\'' → t.charAt o ≠ c := fun c hc h => hc (h.symm.trans hchar)
      have hquote : IsQuote t spans o ↔ quoteToggles t o = true := by simp [IsQuote, hcovers, hchar]
      refine ⟨?_, ?_, ?_⟩
      · rw [count32_of_ne ho (hne '(' (by decide)) (hne ')' (by decide)), ← hround]
        simp only [Nesting.read, hcovers, hchar]
        split_ifs <;> rfl
      · rw [count32_of_ne ho (hne '[' (by decide)) (hne ']' (by decide)), ← hsquare]
        simp only [Nesting.read, hcovers, hchar]
        split_ifs <;> rfl
      · rw [hquotes]
        simp only [Nesting.read, hcovers, hchar, hquote, Bool.false_eq_true, if_false, if_true]
        split_ifs with htoggles
        · rw [Nat.odd_add_one, ← hquoted, Bool.not_eq_true', Bool.not_eq_true]
        · exact hquoted
    · have hquote : ¬ IsQuote t spans o := fun h => hchar h.2.1
      rw [if_neg hquote, Nat.add_zero] at hquotes
      have hseen : IsSeen t spans stop o ↔ n.quoted = false := by
        rw [isSeen_iff_not_odd hcovers, ← hquoted, Bool.not_eq_true]
      cases hinside : n.quoted with
      | true =>
        have hskip : ¬ IsSeen t spans stop o := by rw [hseen, hinside]; exact Bool.noConfusion
        have hread : n.read t spans o = n := by simp [Nesting.read, hcovers, hchar, hinside]
        rw [hread]
        exact ⟨by rw [hround, count32_of_not_isSeen ho hskip], by rw [hsquare, count32_of_not_isSeen ho hskip],
          by rw [hquoted, hquotes]⟩
      | false =>
        obtain ⟨hround', hsquare', hquoted'⟩ := read_bracket hcovers hchar hinside
        refine ⟨?_, ?_, ?_⟩
        · rw [hround', hround, count32_of_isSeen ho (hseen.2 hinside)]
        · rw [hsquare', hsquare, count32_of_isSeen ho (hseen.2 hinside)]
        · rw [hquoted', hquotes, ← hquoted, hinside]

theorem Tells.isClosed_iff (h : n.Tells t spans stop o) (hfit : BracketsFit t spans low stop) (hlow : low ≤ o)
    (hstop : o ≤ stop) : n.isClosed = true ↔ BracketsClosed t spans o stop := by
  rw [isClosed, Bool.and_eq_true, decide_eq_true_eq, decide_eq_true_eq, h.round, h.square,
    hfit.1.count32_nonpos_iff hlow hstop, hfit.2.count32_nonpos_iff hlow hstop, BracketsClosed, unmatched, unmatched]
  omega

theorem Tells.hasOpener_iff (h : n.Tells t spans stop o) (hfit : BracketsFit t spans low stop) (hlow : low ≤ o)
    (hstop : o ≤ stop) :
    n.hasOpener = true ↔ countSeen t spans ')' o stop < countSeen t spans '(' o stop ∨
      countSeen t spans ']' o stop < countSeen t spans '[' o stop := by
  rw [hasOpener, Bool.or_eq_true, decide_eq_true_eq, decide_eq_true_eq, h.round, h.square,
    hfit.1.count32_neg_iff hlow hstop, hfit.2.count32_neg_iff hlow hstop, unmatched, unmatched]
  omega

end Nesting

/-! ## The line of a statement -/

/-- the nearest line start at or before `start` from which on the brackets are closed up to and with
`start`; 0 if there is none -/
def closedLine (t : Text) (spans : Spans) (start : Nat) : Nat :=
  Nat.findGreatest (fun line => t.startsLine line = true ∧ BracketsClosed t spans line (start + 1)) start

/-- **The way back ends at the first line start with closed brackets.** -/
theorem statementLineStart_eq_findGreatest {n : Nesting} (h : n.Tells t spans stop (o + 1)) (ho : o < stop)
    (hfit : BracketsFit t spans
      (Nat.findGreatest (fun line => t.startsLine line = true ∧ BracketsClosed t spans line stop) o) stop) :
    statementLineStart t spans n o =
      Nat.findGreatest (fun line => t.startsLine line = true ∧ BracketsClosed t spans line stop) o := by
  induction o generalizing n with
  | zero => rfl
  | succ o ih =>
    have hread := h.read ho
    have hclosed : (t.startsLine (o + 1) && (n.read t spans (o + 1)).isClosed) = true ↔
        t.startsLine (o + 1) = true ∧ BracketsClosed t spans (o + 1) stop := by
      rw [Bool.and_eq_true, hread.isClosed_iff hfit (Nat.findGreatest_le _) ho.le]
    rw [Nat.findGreatest_succ] at hfit
    rw [statementLineStart, Nat.findGreatest_succ]
    by_cases hline : t.startsLine (o + 1) = true ∧ BracketsClosed t spans (o + 1) stop
    · rw [if_pos (hclosed.2 hline), if_pos hline]
    · rw [if_neg hline] at hfit
      rw [if_neg (fun hhere => hline (hclosed.1 hhere)), if_neg hline, ih hread (by omega) hfit]

theorem statementLineStart_eq_closedLine {start : Nat}
    (hfit : BracketsFit t spans (closedLine t spans start) (start + 1)) :
    statementLineStart t spans .initial start = closedLine t spans start :=
  statementLineStart_eq_findGreatest (Nesting.tells_initial t spans (start + 1)) (Nat.lt_succ_self start) hfit

namespace Text

/-- a run of one character at the start of a text ends at the first other one -/
theorem charAt_takeWhile {c : Char} (hc : c ≠ nul) (u : Text) :
    (∀ i, i < (u.takeWhile (· == c)).length → u.charAt i = c) ∧ u.charAt (u.takeWhile (· == c)).length ≠ c := by
  have hnul : (nul == c) = false := beq_false_of_ne hc.symm
  obtain ⟨hrun, hbehind⟩ := charAt_takeWhile_class (p := (· == c)) hnul u
  exact ⟨fun i hi => beq_iff_eq.1 (hrun i hi), ne_of_beq_false hbehind⟩

end Text

/-- whatever the counts are, the way back ends at or before the offset that it starts from -/
theorem statementLineStart_le (t : Text) (spans : Spans) (n : Nesting) (start : Nat) :
    statementLineStart t spans n start ≤ start := by
  induction start generalizing n with
  | zero => exact le_rfl
  | succ start ih =>
    simp only [statementLineStart]
    split_ifs
    · exact le_rfl
    · exact (ih _).trans (Nat.le_succ start)

theorem statementStart_le (t : Text) (spans : Spans) (indent : Char) (start : Nat) :
    statementStart t spans indent start ≤ start := by
  have hline := statementLineStart_le t spans .initial start
  set line := statementLineStart t spans .initial start with hdef
  have hlen : ((t.slice line start).takeWhile (· == indent)).length ≤ start - line :=
    (List.takeWhile_prefix _).length_le.trans (t.length_slice_le _ start)
  simp only [statementStart, ← hdef]
  omega

/-- reading back from `stop`, the character at `o` is the opening bracket that outnumbers the
closing ones of its kind -/
def IsOpenBracket (t : Text) (spans : Spans) (stop o : Nat) : Prop :=
  IsSeen t spans stop o ∧
    ((t.charAt o = '(' ∧ countSeen t spans ')' o stop < countSeen t spans '(' o stop) ∨
      (t.charAt o = '[' ∧ countSeen t spans ']' o stop < countSeen t spans '[' o stop))

instance (t : Text) (spans : Spans) (stop o : Nat) : Decidable (IsOpenBracket t spans stop o) :=
  inferInstanceAs (Decidable (_ ∧ _))

/-- as long as there was no opener, the next character is one exactly if it leaves one -/
theorem Nesting.Tells.hasOpener_read_iff {n : Nesting} (h : n.Tells t spans stop (o + 1))
    (hfit : BracketsFit t spans low stop) (hlow : low ≤ o) (ho : o < stop) (hn : n.hasOpener = false) :
    (n.read t spans o).hasOpener = true ↔ IsOpenBracket t spans stop o := by
  have hread := h.read ho
  have hnone := (h.hasOpener_iff hfit (by omega) ho).not.1 (by rw [hn]; exact Bool.noConfusion)
  rw [hread.hasOpener_iff hfit hlow ho.le, IsOpenBracket]
  constructor
  · -- a count that has come to say so was moved by this character
    intro hopener
    have hmoved : ∀ close opening, ¬ countSeen t spans close (o + 1) stop < countSeen t spans opening (o + 1) stop →
        countSeen t spans close o stop < countSeen t spans opening o stop →
          IsSeen t spans stop o ∧ t.charAt o = opening := by
      intro close opening hbefore hafter
      by_contra hno
      rw [countSeen_step opening ho, if_neg hno, countSeen_step close ho] at hafter
      omega
    rcases hopener with hround | hsquare
    · obtain ⟨hseen, hchar⟩ := hmoved ')' '(' (fun hlt => hnone (Or.inl hlt)) hround
      exact ⟨hseen, Or.inl ⟨hchar, hround⟩⟩
    · obtain ⟨hseen, hchar⟩ := hmoved ']' '[' (fun hlt => hnone (Or.inr hlt)) hsquare
      exact ⟨hseen, Or.inr ⟨hchar, hsquare⟩⟩
  · rintro ⟨-, ⟨-, hround⟩ | ⟨-, hsquare⟩⟩
    · exact Or.inl hround
    · exact Or.inr hsquare

/-- **The way back finds the first open bracket**: it tries one offset after the other. -/
theorem openBracketFrom_eq_find? {start : Nat} {n : Nesting} (h : n.Tells t spans start o)
    (hfit : BracketsFit t spans low start) (ho : o ≤ start) (hlow : low ≤ o) (hn : n.hasOpener = false) :
    openBracketFrom t spans low n o = (List.range' low (o - low)).reverse.find? (IsOpenBracket t spans start ·) := by
  induction o generalizing n with
  | zero => simp [openBracketFrom]
  | succ o ih =>
    rw [openBracketFrom]
    by_cases hend : o + 1 = low
    · rw [if_pos hend, hend, Nat.sub_self]
      rfl
    · have hread := h.read ho
      have hoffsets : (List.range' low (o + 1 - low)).reverse = o :: (List.range' low (o - low)).reverse := by
        have hlen : o + 1 - low = (o - low) + 1 := by omega
        have hlast : low + 1 * (o - low) = o := by omega
        rw [hlen, List.range'_concat, hlast, List.reverse_append]
        rfl
      rw [if_neg hend, hoffsets]
      cases hcovers : spans.covers o with
      | true =>
        have hskip : n.read t spans o = n := by rw [Nesting.read, hcovers, if_pos rfl]
        have hno : ¬ IsOpenBracket t spans start o := fun h => by rw [h.1.1] at hcovers; cases hcovers
        rw [hskip] at hread
        rw [if_pos rfl, List.find?_cons_of_neg (by simpa using hno), ih hread (by omega) (by omega) hn]
      | false =>
        have hopener := h.hasOpener_read_iff hfit (by omega) ho hn
        rw [if_neg Bool.false_ne_true]
        cases hread' : (n.read t spans o).hasOpener with
        | true =>
          have hopen := hopener.1 hread'
          rw [List.find?_cons_of_pos (by simpa using hopen)]
          simp [hread']
        | false =>
          have hno : ¬ IsOpenBracket t spans start o := fun h => by rw [hopener.2 h] at hread'; cases hread'
          rw [List.find?_cons_of_neg (by simpa using hno), ← ih hread (by omega) (by omega) hread']
          simp [hread']

theorem openBracket?_eq_find? {start : Nat} (h : low ≤ start) (hfit : BracketsFit t spans low start) :
    openBracket? t spans start low = (List.range' low (start - low)).reverse.find? (IsOpenBracket t spans start ·) :=
  openBracketFrom_eq_find? (Nesting.tells_initial t spans start) hfit le_rfl h rfl

theorem mem_range'_reverse {low high y : Nat} : y ∈ (List.range' low (high - low)).reverse ↔ low ≤ y ∧ y < high := by
  rw [List.mem_reverse, List.mem_range'_1]
  omega

/-- going down, the first number with some property is the greatest one: those before it are
greater and do not have it -/
theorem isGreatest_of_find?_range'_reverse {p : Nat → Bool} {low high x : Nat}
    (h : (List.range' low (high - low)).reverse.find? p = some x) :
    IsGreatest {y | low ≤ y ∧ y < high ∧ p y = true} x := by
  obtain ⟨hp, before, behind, hcut, hbefore⟩ := List.find?_eq_some_iff_append.1 h
  obtain ⟨hle, hlt⟩ := mem_range'_reverse.1 (List.mem_of_find?_eq_some h)
  refine ⟨⟨hle, hlt, hp⟩, ?_⟩
  rintro y ⟨hle', hlt', hy⟩
  have hiny := mem_range'_reverse.2 ⟨hle', hlt'⟩
  have hdown : (before ++ x :: behind).Pairwise (· > ·) := by
    rw [← hcut, List.pairwise_reverse]
    exact List.pairwise_lt_range'
  rw [hcut, List.mem_append, List.mem_cons] at hiny
  rcases hiny with hiny | rfl | hiny
  · have hno := hbefore y hiny
    rw [hy] at hno
    cases hno
  · exact le_rfl
  · exact ((List.pairwise_cons.1 (List.pairwise_append.1 hdown).2.1).1 y hiny).le

theorem find?_range'_reverse_eq_some_iff {p : Nat → Bool} {low high x : Nat} :
    (List.range' low (high - low)).reverse.find? p = some x ↔ IsGreatest {y | low ≤ y ∧ y < high ∧ p y = true} x := by
  refine ⟨isGreatest_of_find?_range'_reverse, fun hx => ?_⟩
  cases hfind : (List.range' low (high - low)).reverse.find? p with
  | none =>
    obtain ⟨⟨hle, hlt, hp⟩, -⟩ := hx
    exact absurd hp (List.find?_eq_none.1 hfind x (mem_range'_reverse.2 ⟨hle, hlt⟩))
  | some y => rw [(isGreatest_of_find?_range'_reverse hfind).unique hx]

/-- **The open bracket before an offset** is the nearest one that outnumbers the closing ones of its kind. -/
theorem openBracket?_eq_some_iff {start : Nat} (h : low ≤ start) (hfit : BracketsFit t spans low start) :
    openBracket? t spans start low = some o ↔
      IsGreatest {o | low ≤ o ∧ o < start ∧ IsOpenBracket t spans start o} o := by
  rw [openBracket?_eq_find? h hfit, find?_range'_reverse_eq_some_iff]
  simp only [decide_eq_true_eq]

/-- **No open bracket** is found exactly if there is none. -/
theorem openBracket?_eq_none_iff {start : Nat} (h : low ≤ start) (hfit : BracketsFit t spans low start) :
    openBracket? t spans start low = none ↔ ∀ o, low ≤ o → o < start → ¬ IsOpenBracket t spans start o := by
  rw [openBracket?_eq_find? h hfit, List.find?_eq_none]
  simp only [mem_range'_reverse, decide_eq_true_eq, and_imp]

/-! ## What is found -/

/-- a character that is no bracket leaves both counts as they are -/
theorem Nesting.hasOpener_read {n : Nesting} (h : t.charAt o ∉ ['(', ')', '[', ']']) :
    (n.read t spans o).hasOpener = n.hasOpener := by
  simp only [List.mem_cons, List.not_mem_nil, or_false, not_or] at h
  simp only [Nesting.read, h, if_false]
  split_ifs <;> rfl

/-- **What is found is a bracket** before the offset, whatever the counts are. -/
theorem openBracket?_stands {start : Nat} (h : openBracket? t spans start low = some o) :
    o < start ∧ t.charAt o ∈ ['(', ')', '[', ']'] := by
  have hfrom : ∀ (start : Nat) (n : Nesting), n.hasOpener = false → openBracketFrom t spans low n start = some o →
      o < start ∧ t.charAt o ∈ ['(', ')', '[', ']'] := by
    intro start
    induction start with
    | zero => intro n _ hfind; cases hfind
    | succ start ih =>
      intro n hn hfind
      simp only [openBracketFrom] at hfind
      split_ifs at hfind with hend hcovers hopener
      · exact (ih n hn hfind).imp_left Nat.lt_succ_of_lt
      · obtain rfl := Option.some.inj hfind
        refine ⟨Nat.lt_succ_self _, ?_⟩
        by_contra hno
        rw [Nesting.hasOpener_read hno, hn] at hopener
        cases hopener
      · exact (ih _ (Bool.eq_false_iff.2 hopener) hfind).imp_left Nat.lt_succ_of_lt
  exact hfrom start .initial rfl h

end CodeEditor
