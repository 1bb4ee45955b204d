import CodeEditor.Proofs.Text.Pieces
import CodeEditor.Scan
/-!
Scans over pieces of plain code.

Without quotes and spans, a backward scan for brackets depends on the characters only (`Nesting.readBack?`). A line
whose brackets are closed from its end back is the statement of a cursor at its end (`statementStart_line`), and holds
no open bracket (`openBracket?_piece`). Forward, the first closing brace behind a piece without braces ends the block
(`closingBrace?_piece`).
-/

namespace CodeEditor

namespace Nesting

/-- read one character outside quotes -/
def readChar (n : Nesting) (c : Char) : Nesting :=
  if c = ')' then { n with round := n.round + 1 }
  else if c = ']' then { n with square := n.square + 1 }
  else if c = '(' then { n with round := n.round - 1 }
  else if c = '[' then { n with square := n.square - 1 }
  else n

theorem read_eq_readChar {t : Text} {n : Nesting} {offset : Nat} (hquote : t.charAt offset ≠ '\'')
    (hn : n.quoted = false) :
    n.read t .empty offset = n.readChar (t.charAt offset) := by
  have hcovers : Spans.empty.covers offset = false := rfl
  obtain ⟨round, square, quoted⟩ := n
  subst hn
  simp [read, readChar, hcovers, hquote]

@[simp] theorem readChar_quoted (n : Nesting) (c : Char) : (n.readChar c).quoted = n.quoted := by
  unfold readChar
  split_ifs <;> rfl

/-- read a text from its end back, as long as no opening bracket is without its closing one -/
def readBack? (n : Nesting) (u : Text) : Option Nesting :=
  u.foldr (fun c n? => n?.bind fun n => if (n.readChar c).hasOpener then none else some (n.readChar c)) (some n)

@[simp] theorem readBack?_nil (n : Nesting) : n.readBack? [] = some n := rfl

theorem readBack?_concat (n : Nesting) (u : Text) (c : Char) :
    n.readBack? (u ++ [c]) = if (n.readChar c).hasOpener then none else (n.readChar c).readBack? u := by
  rw [readBack?, List.foldr_append]
  simp only [List.foldr_cons, List.foldr_nil, Option.bind_some]
  split_ifs
  · induction u with
    | nil => rfl
    | cons d u ih => rw [List.foldr_cons, ih]; rfl
  · rfl

/-- a character that is no bracket -/
def isNeutral (c : Char) : Bool :=
  c != ')' && c != ']' && c != '(' && c != '['

theorem readChar_neutral (n : Nesting) {c : Char} (h : isNeutral c = true) : n.readChar c = n := by
  simp only [isNeutral, Bool.and_eq_true, bne_iff_ne] at h
  simp [readChar, h]

theorem readBack?_neutral {n : Nesting} (hn : n.hasOpener = false) {u : Text} (hu : ∀ c ∈ u, isNeutral c = true) :
    n.readBack? u = some n := by
  induction u using List.reverseRecOn with
  | nil => rfl
  | append_singleton u c ih =>
    rw [readBack?_concat, n.readChar_neutral (hu c (by simp)), hn, if_neg Bool.false_ne_true]
    exact ih fun d hd => hu d (List.mem_append_left _ hd)

theorem readBack?_append (n : Nesting) (u v : Text) : n.readBack? (u ++ v) = (n.readBack? v).bind (·.readBack? u) := by
  induction v using List.reverseRecOn generalizing n with
  | nil => simp
  | append_singleton v c ih =>
    rw [← List.append_assoc, readBack?_concat, readBack?_concat]
    split_ifs
    · rfl
    · exact ih _

end Nesting

open Nesting

variable {a u z : Text} {n m : Nesting}

/-- the way back over a piece ends at the start of its line -/
theorem statementLineStart_piece (ha : a.endsInLineFeed = true) (hlf : '\n' ∉ u) (hquote : '\'' ∉ u)
    (hbehind : Text.charAt (a ++ (u ++ z)) (a.length + u.length) ≠ '\'') (hn : n.quoted = false)
    (hread : (n.readChar (Text.charAt (a ++ (u ++ z)) (a.length + u.length))).readBack? u = some m)
    (hclosed : m.isClosed = true) :
    statementLineStart (a ++ (u ++ z)) .empty n (a.length + u.length) = a.length := by
  induction u using List.reverseRecOn generalizing n z with
  | nil =>
    obtain rfl := Option.some.inj hread
    have hstart : Text.startsLine (a ++ ([] ++ z)) a.length = true := by rw [List.nil_append, Text.startsLine_seam, ha]
    have hchar := read_eq_readChar hbehind hn
    rw [List.length_nil, Nat.add_zero] at hchar hclosed ⊢
    cases hlen : a.length with
    | zero => rfl
    | succ k =>
      rw [hlen] at hstart hchar hclosed
      rw [statementLineStart, hchar, hstart, hclosed]
      rfl
  | append_singleton u c ih =>
    have hcut : a ++ (u ++ [c] ++ z) = a ++ (u ++ c :: z) := by simp
    have hlen : a.length + (u ++ [c]).length = a.length + u.length + 1 := by simp [Nat.add_assoc]
    have hchar := Text.charAt_piece a u c z
    have hc : c ≠ '\'' := fun h => hquote (h ▸ by simp)
    have hstart : Text.startsLine (a ++ (u ++ c :: z)) (a.length + u.length + 1) = false := by
      rw [Text.startsLine, hchar, beq_eq_false_iff_ne]
      rintro rfl
      exact hlf (by simp)
    rw [hcut, hlen] at hbehind hread ⊢
    rw [readBack?_concat] at hread
    split_ifs at hread
    rw [statementLineStart, read_eq_readChar hbehind hn, hstart, Bool.false_and, if_neg Bool.false_ne_true]
    exact ih (fun h => hlf (List.mem_append_left _ h)) (fun h => hquote (List.mem_append_left _ h))
      (by rw [hchar]; exact hc) (by rw [readChar_quoted, hn]) (by rw [hchar]; exact hread)

/-- a piece whose brackets are closed holds no open bracket -/
theorem openBracket?_piece (hquote : '\'' ∉ u) (hn : n.quoted = false) (hread : n.readBack? u = some m) :
    openBracketFrom (a ++ (u ++ z)) .empty a.length n (a.length + u.length) = none := by
  induction u using List.reverseRecOn generalizing n z with
  | nil =>
    rw [List.length_nil, Nat.add_zero]
    cases hlen : a.length with
    | zero => rfl
    | succ k => rw [openBracketFrom, if_pos rfl]
  | append_singleton u c ih =>
    have hcut : a ++ (u ++ [c] ++ z) = a ++ (u ++ c :: z) := by simp
    have hlen : a.length + (u ++ [c]).length = a.length + u.length + 1 := by simp [Nat.add_assoc]
    have hchar := Text.charAt_piece a u c z
    have hc : c ≠ '\'' := fun h => hquote (h ▸ by simp)
    have hcovers : Spans.empty.covers (a.length + u.length) = false := rfl
    rw [readBack?_concat] at hread
    rw [hcut, hlen, openBracketFrom, if_neg (by omega), hcovers, if_neg Bool.false_ne_true,
      read_eq_readChar (by rw [hchar]; exact hc) hn, hchar]
    split_ifs at hread with hopener
    rw [if_neg hopener]
    exact ih (fun h => hquote (List.mem_append_left _ h)) (by rw [readChar_quoted, hn]) hread

/-- a line whose brackets are closed is the statement at its end -/
theorem statementStart_line {ind v : Text} {ch : Char} (h : Text.IsLine a (ind ++ v) z) (hind : ∀ c ∈ ind, c = ch)
    (hv : v.head? ≠ some ch) (hquote : '\'' ∉ ind ++ v) (hread : initial.readBack? (ind ++ v) = some initial) :
    statementStart (a ++ (ind ++ v ++ z)) .empty ch (a.length + (ind ++ v).length) = a.length + ind.length := by
  have hlf : '\n' ∉ ind ++ v := fun hmem => absurd (h.line '\n' hmem) (by decide)
  have hbehind := Text.charAt_behind h.behind (a ++ (ind ++ v))
  rw [List.append_assoc, List.length_append] at hbehind
  have hneutral : isNeutral (Text.charAt (a ++ (ind ++ v ++ z)) (a.length + (ind ++ v).length)) = true := by
    rcases hbehind with hc | hc <;> rw [hc] <;> rfl
  have hstart := statementLineStart_piece (z := z) (n := initial) h.before hlf hquote
    (by rcases hbehind with hc | hc <;> rw [hc] <;> decide) rfl (by rw [readChar_neutral _ hneutral]; exact hread) rfl
  have hrun : (ind ++ v).takeWhile (· == ch) = ind := by
    rw [List.takeWhile_append_of_pos fun c hc => by simpa using hind c hc]
    cases v with
    | nil => simp
    | cons d v =>
      have hd : d ≠ ch := by simpa using hv
      simp [hd]
  rw [statementStart, hstart, Text.slice_piece, hrun]

/-! ## Braces -/

/-- the next closing brace, if there is no brace or quote before it -/
theorem find?_closing (hu : ∀ c ∈ u, c ≠ '\'' ∧ c ≠ '{' ∧ c ≠ '}') {n : Nat} (hn : u.length < n) :
    BraceDepth.initial.find? (a ++ (u ++ '}' :: z)) .empty '{' '}' (List.range' a.length n) =
      some (a.length + u.length) := by
  have hcovers (offset : Nat) : Spans.empty.covers offset = false := rfl
  induction u generalizing a n with
  | nil =>
    obtain ⟨n, rfl⟩ := Nat.exists_eq_add_of_lt hn
    rw [List.range'_succ, BraceDepth.find?]
    simp [BraceDepth.read?, hcovers, BraceDepth.initial]
  | cons c u ih =>
    obtain ⟨n, rfl⟩ := Nat.exists_eq_add_of_lt hn
    obtain ⟨hquote, hopen, hclose⟩ := hu c List.mem_cons_self
    have hread : BraceDepth.initial.read? (a ++ (c :: u ++ '}' :: z)) .empty '{' '}' a.length = some .initial := by
      simp [BraceDepth.read?, hcovers, BraceDepth.initial, hquote, hopen, hclose]
    have hcut : a ++ (c :: u ++ '}' :: z) = (a ++ [c]) ++ (u ++ '}' :: z) := by simp
    have hrest := ih (a := a ++ [c]) (n := u.length + n + 1) (fun d hd => hu d (List.mem_cons_of_mem _ hd)) (by omega)
    rw [List.length_append, List.length_singleton] at hrest
    rw [List.range'_succ, BraceDepth.find?, hread, hcut]
    simp only [List.length_cons, ← Nat.add_assoc] at hrest ⊢
    rw [Nat.add_right_comm u.length 1 n, hrest, Nat.add_right_comm]

/-- the block of a brace ends at the next closing one, if there is no brace or quote between them -/
theorem closingBrace?_piece {start : Nat} (hstart : start + 1 = a.length)
    (hu : ∀ c ∈ u, c ≠ '\'' ∧ c ≠ '{' ∧ c ≠ '}') :
    closingBrace? (a ++ (u ++ '}' :: z)) .empty start = some (a.length + u.length) := by
  rw [closingBrace?, hstart]
  exact find?_closing hu (by simp)

end CodeEditor
