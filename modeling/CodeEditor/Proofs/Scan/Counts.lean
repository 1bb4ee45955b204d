import CodeEditor.Scan
import Mathlib.Algebra.Ring.Parity
import Mathlib.Tactic
/-!
Counting what a scan sees.

A scan that reads a text back from some offset sees the characters outside the spans behind which an even number of
quotes stands (`IsSeen`). The closing brackets it has seen, less the opening ones, are `unmatched`; one more character
moves the number by one at most (`unmatched_step`).

The scans keep such numbers in 32 bits. The low bits of a sum depend on those of its parts only, so a count is the
number it stands for wherever that number fits (`CountsFit`), whatever it was on the way. It fits in every stretch of
fewer than 2 ^ 31 characters (`countsFit_of_lt`).
-/

namespace CodeEditor

variable {t : Text} {spans : Spans} {opening closing c : Char} {low o stop : Nat}

/-! ## Quotes and brackets -/

/-- the character at `o` is a quote outside the spans that is not escaped -/
def IsQuote (t : Text) (spans : Spans) (o : Nat) : Prop :=
  spans.covers o = false ∧ t.charAt o = '\'' ∧ quoteToggles t o = true

instance (t : Text) (spans : Spans) (o : Nat) : Decidable (IsQuote t spans o) :=
  inferInstanceAs (Decidable (_ ∧ _))

/-- how many quotes stand in `[o, stop)` -/
def quotesIn (t : Text) (spans : Spans) (o stop : Nat) : Nat :=
  (List.range' o (stop - o)).countP (IsQuote t spans ·)

/-- reading back from `stop`, the character at `o` is outside the spans and outside quotes -/
def IsSeen (t : Text) (spans : Spans) (stop o : Nat) : Prop :=
  spans.covers o = false ∧ Even (quotesIn t spans (o + 1) stop)

instance (t : Text) (spans : Spans) (stop o : Nat) : Decidable (IsSeen t spans stop o) :=
  inferInstanceAs (Decidable (_ ∧ _))

/-- how many of the characters in `[o, stop)` that are read as code are `c` -/
def countSeen (t : Text) (spans : Spans) (c : Char) (o stop : Nat) : Nat :=
  (List.range' o (stop - o)).countP fun i => IsSeen t spans stop i ∧ t.charAt i = c

/-- the closing brackets seen in `[o, stop)`, less the opening ones -/
def unmatched (t : Text) (spans : Spans) (opening closing : Char) (o stop : Nat) : Int :=
  countSeen t spans closing o stop - countSeen t spans opening o stop

theorem offsets_cons (h : o < stop) : List.range' o (stop - o) = o :: List.range' (o + 1) (stop - (o + 1)) := by
  have hlen : stop - o = stop - (o + 1) + 1 := by omega
  rw [hlen, List.range'_succ]

@[simp] theorem quotesIn_self (t : Text) (spans : Spans) (stop : Nat) : quotesIn t spans stop stop = 0 := by
  simp [quotesIn]

@[simp] theorem countSeen_self (t : Text) (spans : Spans) (c : Char) (stop : Nat) :
    countSeen t spans c stop stop = 0 := by
  simp [countSeen]

@[simp] theorem unmatched_self (t : Text) (spans : Spans) (opening closing : Char) (stop : Nat) :
    unmatched t spans opening closing stop stop = 0 := by
  simp [unmatched]

theorem countSeen_le (t : Text) (spans : Spans) (c : Char) (o stop : Nat) : countSeen t spans c o stop ≤ stop - o :=
  List.countP_le_length.trans_eq List.length_range'

/-! ## One character more -/

theorem quotesIn_step (h : o < stop) :
    quotesIn t spans o stop = quotesIn t spans (o + 1) stop + if IsQuote t spans o then 1 else 0 := by
  simp only [quotesIn, offsets_cons h, List.countP_cons, decide_eq_true_eq]

theorem countSeen_step (c : Char) (h : o < stop) :
    countSeen t spans c o stop =
      countSeen t spans c (o + 1) stop + if IsSeen t spans stop o ∧ t.charAt o = c then 1 else 0 := by
  simp only [countSeen, offsets_cons h, List.countP_cons, decide_eq_true_eq]

/-- **One character more** moves the number of unmatched brackets if it is seen and one of them. -/
theorem unmatched_step (t : Text) (spans : Spans) (opening closing : Char) (h : o < stop) :
    unmatched t spans opening closing o stop = unmatched t spans opening closing (o + 1) stop +
      (if IsSeen t spans stop o ∧ t.charAt o = closing then 1 else 0) -
      (if IsSeen t spans stop o ∧ t.charAt o = opening then 1 else 0) := by
  rw [unmatched, unmatched, countSeen_step closing h, countSeen_step opening h]
  push_cast
  omega

/-- a character that is not seen does not count -/
theorem unmatched_of_not_isSeen (h : o < stop) (hseen : ¬ IsSeen t spans stop o) :
    unmatched t spans opening closing o stop = unmatched t spans opening closing (o + 1) stop := by
  rw [unmatched_step t spans opening closing h, if_neg (fun hboth => hseen hboth.1),
    if_neg (fun hboth => hseen hboth.1), add_zero, sub_zero]

/-- a character that is seen counts for what it is -/
theorem unmatched_of_isSeen (opening closing : Char) (h : o < stop) (hseen : IsSeen t spans stop o) :
    unmatched t spans opening closing o stop = unmatched t spans opening closing (o + 1) stop +
      (if t.charAt o = closing then 1 else 0) - (if t.charAt o = opening then 1 else 0) := by
  simp only [unmatched_step t spans opening closing h, hseen, true_and]

/-- what a span covers is neither a quote nor seen -/
theorem not_isQuote_of_covers (h : spans.covers o = true) : ¬ IsQuote t spans o := fun hquote => by
  rw [hquote.1] at h
  cases h

theorem not_isSeen_of_covers (h : spans.covers o = true) : ¬ IsSeen t spans stop o := fun hseen => by
  rw [hseen.1] at h
  cases h

/-- outside the spans, a character is seen if the scan is outside quotes when it comes there -/
theorem isSeen_iff_not_odd (h : spans.covers o = false) :
    IsSeen t spans stop o ↔ ¬ Odd (quotesIn t spans (o + 1) stop) := by
  rw [IsSeen, and_iff_right h, Nat.not_odd_iff_even]

/-! ## Counting in 32 bits -/

/-- from no offset in `[low, stop]` up to `stop` are there too many unmatched brackets for 32 bits -/
def CountsFit (t : Text) (spans : Spans) (opening closing : Char) (low stop : Nat) : Prop :=
  ∀ o, low ≤ o → o ≤ stop →
    -2 ^ 31 ≤ unmatched t spans opening closing o stop ∧ unmatched t spans opening closing o stop < 2 ^ 31

/-- fewer than 2 ^ 31 characters hold fewer brackets -/
theorem countsFit_of_lt (h : stop < low + 2 ^ 31) : CountsFit t spans opening closing low stop := by
  intro o hlow hstop
  have hclosing := countSeen_le t spans closing o stop
  have hopening := countSeen_le t spans opening o stop
  rw [unmatched]
  omega

/-- the number in 32 bits -/
def count32 (t : Text) (spans : Spans) (opening closing : Char) (o stop : Nat) : Int32 :=
  .ofInt (unmatched t spans opening closing o stop)

namespace CountsFit

variable (h : CountsFit t spans opening closing low stop) (hlow : low ≤ o) (hstop : o ≤ stop)

include h hlow hstop

theorem toInt_count32 : (count32 t spans opening closing o stop : Int) = unmatched t spans opening closing o stop :=
  Int32.toInt_ofInt_of_le (h o hlow hstop).1 (h o hlow hstop).2

theorem count32_eq_zero_iff :
    count32 t spans opening closing o stop = 0 ↔ unmatched t spans opening closing o stop = 0 := by
  rw [← Int32.toInt_inj, h.toInt_count32 hlow hstop, Int32.toInt_zero]

theorem count32_nonpos_iff :
    count32 t spans opening closing o stop ≤ 0 ↔ unmatched t spans opening closing o stop ≤ 0 := by
  rw [Int32.le_iff_toInt_le, h.toInt_count32 hlow hstop, Int32.toInt_zero]

theorem count32_neg_iff :
    count32 t spans opening closing o stop < 0 ↔ unmatched t spans opening closing o stop < 0 := by
  rw [Int32.lt_iff_toInt_lt, h.toInt_count32 hlow hstop, Int32.toInt_zero]

end CountsFit

@[simp] theorem count32_self (t : Text) (spans : Spans) (opening closing : Char) (stop : Nat) :
    count32 t spans opening closing stop stop = 0 := by
  rw [count32, unmatched_self]
  rfl

/-- **One character more, in 32 bits**: the count moves as the number does. -/
theorem count32_of_not_isSeen (h : o < stop) (hseen : ¬ IsSeen t spans stop o) :
    count32 t spans opening closing o stop = count32 t spans opening closing (o + 1) stop := by
  rw [count32, unmatched_of_not_isSeen h hseen, count32]

theorem count32_of_isSeen (h : o < stop) (hseen : IsSeen t spans stop o) :
    count32 t spans opening closing o stop = count32 t spans opening closing (o + 1) stop +
      (if t.charAt o = closing then 1 else 0) - (if t.charAt o = opening then 1 else 0) := by
  rw [count32, unmatched_of_isSeen opening closing h hseen, Int32.ofInt_sub, Int32.ofInt_add, count32]
  split_ifs <;> rfl

/-- a character that is neither bracket does not count, seen or not -/
theorem count32_of_ne (h : o < stop) (hopening : t.charAt o ≠ opening) (hclosing : t.charAt o ≠ closing) :
    count32 t spans opening closing o stop = count32 t spans opening closing (o + 1) stop := by
  rw [count32, unmatched_step t spans opening closing h, if_neg fun hboth => hclosing hboth.2,
    if_neg fun hboth => hopening hboth.2, add_zero, sub_zero, count32]

end CodeEditor
