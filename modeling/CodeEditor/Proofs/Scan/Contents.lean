import CodeEditor.Proofs.Text.Lines
import CodeEditor.Scan
import Mathlib.Data.Nat.Find
/-!
What scans read of the contents of spans.

A scan skips the characters inside comments and strings, so two texts that differ there only (`SameOutside`) should be
scanned alike (`ScansAgree`). They are, as long as the quotes outside the spans count alike (`SameOutside.scansAgree`).
Whether a quote counts is read off the two characters before it, though, and these may lie inside a span. So a table
under which the contents never matter is one that covers nothing (`contents_are_skipped_iff`).
-/

namespace CodeEditor

/-! ## Scans that read alike -/

section

variable {t t' : Text} {spans spans' : Spans} {start : Nat}

theorem openBracketFrom_eq_of_read (stop : Nat) (n : Nesting) (hcovers : ∀ o < start, spans.covers o = spans'.covers o)
    (hread : ∀ o < start, ∀ n : Nesting, n.read t spans o = n.read t' spans' o) :
    openBracketFrom t spans stop n start = openBracketFrom t' spans' stop n start := by
  induction start generalizing n with
  | zero => rfl
  | succ o ih =>
    have hrest := fun n => ih n (fun i hi => hcovers i (by omega)) fun i hi => hread i (by omega)
    simp only [openBracketFrom, hcovers o (Nat.lt_succ_self o), hread o (Nat.lt_succ_self o), hrest]

theorem BraceDepth.find?_eq_of_read? {opener target : Char} (d : BraceDepth) {offsets : List Nat}
    (hread : ∀ o ∈ offsets, ∀ d : BraceDepth, d.read? t spans opener target o = d.read? t' spans' opener target o) :
    d.find? t spans opener target offsets = d.find? t' spans' opener target offsets := by
  induction offsets generalizing d with
  | nil => rfl
  | cons o rest ih =>
    have hrest := fun d => ih d fun i hi => hread i (List.mem_cons_of_mem _ hi)
    simp only [find?, hread o List.mem_cons_self, hrest]

end

/-! ## Texts that differ inside spans only -/

/-- two texts of one length, with the same characters outside the spans -/
structure SameOutside (spans : Spans) (t u : Text) : Prop where
  length : t.length = u.length
  char : ∀ o < t.length, spans.covers o = false → t.charAt o = u.charAt o

/-- the same quotes outside the spans are escaped -/
def QuotesAgree (spans : Spans) (t u : Text) : Prop :=
  ∀ o, spans.covers o = false → t.charAt o = '\'' → quoteToggles t o = quoteToggles u o

/-- a span that ends in a backslash ends neither right before a quote nor right before a backslash and a quote -/
def EscapesNoQuote (spans : Spans) (t : Text) : Prop :=
  ∀ o, spans.covers o = true → spans.covers (o + 1) = false → t.charAt o = '\\' →
    t.charAt (o + 1) ≠ '\'' ∧ ¬ (t.charAt (o + 1) = '\\' ∧ t.charAt (o + 2) = '\'')

/-- the scans find the same in both texts, from every offset -/
structure ScansAgree (spans : Spans) (t u : Text) : Prop where
  closing : ∀ start, closingBrace? t spans start = closingBrace? u spans start
  opening : ∀ start, openingBrace? t spans start = openingBrace? u spans start
  bracket : ∀ start stop, openBracket? t spans start stop = openBracket? u spans start stop

namespace SameOutside

variable {spans : Spans} {t u : Text}

/-- the texts end at the same place, so the NUL behind them is the same, too -/
theorem charAt (h : SameOutside spans t u) {o : Nat} (ho : spans.covers o = false) : t.charAt o = u.charAt o := by
  by_cases hlt : o < t.length
  · exact h.char o hlt ho
  · rw [t.charAt_of_length_le (by omega), u.charAt_of_length_le (by have := h.length; omega)]

theorem read_eq (h : SameOutside spans t u) (hquotes : QuotesAgree spans t u) (o : Nat) (n : Nesting) :
    n.read t spans o = n.read u spans o := by
  cases ho : spans.covers o with
  | true => simp only [Nesting.read, ho, if_true]
  | false =>
    rw [Nesting.read, Nesting.read, ho, ← h.charAt ho]
    by_cases hchar : t.charAt o = '\''
    · rw [hquotes o ho hchar]
    · simp only [hchar, if_false]

theorem read?_eq (h : SameOutside spans t u) (hquotes : QuotesAgree spans t u) (opener target : Char) (o : Nat)
    (d : BraceDepth) :
    d.read? t spans opener target o = d.read? u spans opener target o := by
  cases ho : spans.covers o with
  | true => simp only [BraceDepth.read?, ho, if_true]
  | false =>
    rw [BraceDepth.read?, BraceDepth.read?, ho, ← h.charAt ho]
    by_cases hchar : t.charAt o = '\''
    · rw [hquotes o ho hchar]
    · simp only [hchar, if_false]

/-- **Where the same quotes are escaped**, the scans read nothing else of the spans. -/
theorem scansAgree (h : SameOutside spans t u) (hquotes : QuotesAgree spans t u) : ScansAgree spans t u where
  closing start := by
    rw [closingBrace?, closingBrace?, h.length]
    exact BraceDepth.find?_eq_of_read? _ fun o _ => h.read?_eq hquotes _ _ o
  opening start := BraceDepth.find?_eq_of_read? _ fun o _ => h.read?_eq hquotes _ _ o
  bracket start stop := openBracketFrom_eq_of_read stop _ (fun _ _ => rfl) fun o _ => h.read_eq hquotes o

/-- where no backslash inside a span is one of the two characters before a quote outside, the quotes agree -/
theorem quotesAgree (h : SameOutside spans t u) (ht : EscapesNoQuote spans t) (hu : EscapesNoQuote spans u) :
    QuotesAgree spans t u := by
  intro o ho hquote
  have hquote' : u.charAt o = '\'' := (h.charAt ho).symm.trans hquote
  cases o with
  | zero => rw [quoteToggles, quoteToggles, h.charAt ho]
  | succ i =>
    have hbefore : i + 1 - 1 = i := rfl
    rw [quoteToggles, quoteToggles, hbefore]
    cases hi : spans.covers i with
    | true =>
      -- a span that ends right before a quote does not end in a backslash
      have hslash : t.charAt i ≠ '\\' := fun hslash => (ht i hi ho hslash).1 hquote
      have hslash' : u.charAt i ≠ '\\' := fun hslash => (hu i hi ho hslash).1 hquote'
      rw [bne_iff_ne.2 hslash, bne_iff_ne.2 hslash', Bool.true_or, Bool.true_or]
    | false =>
      have hsame := h.charAt hi
      cases i with
      | zero => rw [hsame]
      | succ j =>
        have hescape : j + 1 + 1 - 2 = j := rfl
        rw [← hsame, hescape]
        cases hj : spans.covers j with
        | false => rw [h.charAt hj]
        | true =>
          by_cases hslash : t.charAt (j + 1) = '\\'
          · -- nor does one that ends right before an escaped quote
            have hlast : t.charAt j ≠ '\\' := fun hlast => (ht j hj hi hlast).2 ⟨hslash, hquote⟩
            have hlast' : u.charAt j ≠ '\\' := fun hlast => (hu j hj hi hlast).2 ⟨hsame ▸ hslash, hquote'⟩
            rw [beq_eq_false_iff_ne.2 hlast, beq_eq_false_iff_ne.2 hlast']
          · rw [bne_iff_ne.2 hslash, Bool.true_or, Bool.true_or]

end SameOutside

/-! ## Tables under which the contents never matter -/

namespace Spans

variable {spans : Spans}

/-- the span that an offset lies in is the first one that ends behind it -/
theorem exists_span_of_covers {o : Nat} (h : spans.covers o = true) :
    ∃ s, spans.toList.find? (fun s => o < s.stop) = some s ∧ s.start ≤ o ∧ o < s.stop := by
  rw [covers, kindAt] at h
  cases hfind : spans.toList.find? (fun s => o < s.stop) with
  | none =>
    rw [hfind] at h
    cases h
  | some s =>
    rw [hfind] at h
    dsimp only at h
    split_ifs at h with hin
    · rw [Span.contains, Bool.and_eq_true, decide_eq_true_eq, decide_eq_true_eq] at hin
      exact ⟨s, rfl, hin⟩
    · cases h

/-- where a covered offset is followed by one that is not, a span ends -/
theorem exists_span_of_end {o : Nat} (h : spans.covers o = true) (hnext : spans.covers (o + 1) = false) :
    ∃ s ∈ spans.toList, s.start ≤ o ∧ s.stop = o + 1 := by
  obtain ⟨s, hfind, hstart, hstop⟩ := exists_span_of_covers h
  refine ⟨s, List.mem_of_find?_eq_some hfind, hstart, ?_⟩
  by_contra hne
  have hlong : o + 1 < s.stop := by omega
  -- a longer span would be the first one that ends behind the next offset, too
  have hfind' : spans.toList.find? (fun s => o + 1 < s.stop) = some s := by
    obtain ⟨-, before, behind, hcut, hbefore⟩ := List.find?_eq_some_iff_append.1 hfind
    refine List.find?_eq_some_iff_append.2 ⟨by simpa using hlong, before, behind, hcut, fun r hr => ?_⟩
    have hr := hbefore r hr
    rw [Bool.not_eq_true', decide_eq_false_iff_not] at hr ⊢
    omega
  have hin : s.contains (o + 1) = true := by
    rw [Span.contains, Bool.and_eq_true, decide_eq_true_eq, decide_eq_true_eq]
    omega
  rw [covers, kindAt, hfind'] at hnext
  dsimp only at hnext
  rw [if_pos hin] at hnext
  cases hnext

/-- nothing is covered from some offset on -/
theorem exists_uncovered_from (spans : Spans) : ∃ n, ∀ o, n ≤ o → spans.covers o = false := by
  refine ⟨(spans.toList.map Span.stop).sum, fun o ho => ?_⟩
  rw [Bool.eq_false_iff]
  intro hcovers
  obtain ⟨s, hfind, -, hstop⟩ := exists_span_of_covers hcovers
  have hle : s.stop ≤ (spans.toList.map Span.stop).sum :=
    List.single_le_sum (fun _ _ => Nat.zero_le _) _ (List.mem_map_of_mem (List.mem_of_find?_eq_some hfind))
  omega

/-- a table that covers anything covers a last offset -/
theorem exists_last_covered {o : Nat} (h : spans.covers o = true) :
    ∃ last, spans.covers last = true ∧ ∀ i, last < i → spans.covers i = false := by
  obtain ⟨n, hn⟩ := spans.exists_uncovered_from
  have ho : o ≤ n := by
    by_contra hlt
    rw [hn o (by omega)] at h
    cases h
  refine ⟨Nat.findGreatest (spans.covers · = true) n, Nat.findGreatest_spec (P := (spans.covers · = true)) ho h,
    fun i hi => ?_⟩
  by_cases hle : i ≤ n
  · exact Bool.eq_false_iff.2 (Nat.findGreatest_is_greatest (P := (spans.covers · = true)) hi hle)
  · exact hn i (by omega)

end Spans

/-- letters up to `c`, there one more character, then a quote with a backslash before it, and a brace -/
def escapedAfter (c : Nat) (x : Char) : Text :=
  List.replicate c 'a' ++ [x, '\\', '\'', '}']

theorem charAt_escapedAfter (c i : Nat) (x : Char) :
    (escapedAfter c x).charAt (c + i) = Text.charAt [x, '\\', '\'', '}'] i := by
  have hge : (List.replicate c 'a').length ≤ c + i := by rw [List.length_replicate]; omega
  rw [escapedAfter, Text.charAt, Text.charAt, List.getD_append_right _ _ _ _ hge, List.length_replicate,
    Nat.add_sub_cancel_left]

/-- the brace is found exactly if the backslash is not escaped itself -/
theorem closingBrace?_escapedAfter {spans : Spans} {c : Nat} (hbehind : ∀ i, c < i → spans.covers i = false)
    (x : Char) :
    closingBrace? (escapedAfter c x) spans c = if x = '\\' then none else some (c + 3) := by
  have hslash : (escapedAfter c x).charAt (c + 1) = '\\' := charAt_escapedAfter c 1 x
  have hmark : (escapedAfter c x).charAt (c + 2) = '\'' := charAt_escapedAfter c 2 x
  have hbrace : (escapedAfter c x).charAt (c + 3) = '}' := charAt_escapedAfter c 3 x
  have hquote : quoteToggles (escapedAfter c x) (c + 2) = (x == '\\') := by
    have hbefore : c + 2 - 1 = c + 1 := rfl
    have hescape : (escapedAfter c x).charAt (c + 2 - 2) = x := charAt_escapedAfter c 0 x
    rw [quoteToggles, hbefore, hslash, hescape]
    rfl
  have hfirst : BraceDepth.initial.read? (escapedAfter c x) spans '{' '}' (c + 1) = some .initial := by
    simp [BraceDepth.read?, hbehind, hslash]
  have hsecond : BraceDepth.initial.read? (escapedAfter c x) spans '{' '}' (c + 2) = some ⟨0, x == '\\'⟩ := by
    cases hx : x == '\\' <;> simp [BraceDepth.read?, BraceDepth.initial, hbehind, hmark, hquote, hx]
  have hthird : BraceDepth.read? (escapedAfter c x) spans '{' '}' ⟨0, x == '\\'⟩ (c + 3) =
      if x = '\\' then some ⟨0, true⟩ else none := by
    rw [BraceDepth.read?, hbehind (c + 3) (by omega), hbrace]
    by_cases hx : x = '\\' <;> simp [hx]
  have hlen : (escapedAfter c x).length - (c + 1) = 3 := by simp [escapedAfter]
  have hoffsets : List.range' (c + 1) 3 = [c + 1, c + 2, c + 3] := rfl
  rw [closingBrace?, hlen, hoffsets, BraceDepth.find?, hfirst]
  dsimp only
  rw [BraceDepth.find?, hsecond]
  dsimp only
  rw [BraceDepth.find?, hthird]
  split_ifs <;> rfl

/-- **A table under which the contents never matter** covers nothing. -/
theorem contents_are_skipped_iff (spans : Spans) :
    (∀ t u, SameOutside spans t u → ScansAgree spans t u) ↔ ∀ o, spans.covers o = false := by
  constructor
  · intro hskip o
    rw [Bool.eq_false_iff]
    intro ho
    obtain ⟨c, hc, hbehind⟩ := Spans.exists_last_covered ho
    have hsame : SameOutside spans (escapedAfter c '\\') (escapedAfter c 'a') := by
      refine ⟨by simp [escapedAfter], fun i _ hi => ?_⟩
      rcases Nat.lt_trichotomy i c with hlt | rfl | hlt
      · have hin : i < (List.replicate c 'a').length := by rwa [List.length_replicate]
        rw [escapedAfter, escapedAfter, Text.charAt, Text.charAt, List.getD_append _ _ _ _ hin,
          List.getD_append _ _ _ _ hin]
      · rw [hc] at hi
        cases hi
      · obtain ⟨k, rfl⟩ := Nat.exists_eq_add_of_lt hlt
        rw [Nat.add_assoc, charAt_escapedAfter, charAt_escapedAfter]
        rfl
    have hclosing := (hskip _ _ hsame).closing c
    rw [closingBrace?_escapedAfter hbehind, closingBrace?_escapedAfter hbehind] at hclosing
    simp at hclosing
  · intro hnone t u h
    refine h.scansAgree fun o _ _ => ?_
    rw [quoteToggles, quoteToggles, h.charAt (hnone _), h.charAt (hnone _)]

/-- a quoted backslash and a quoted letter, each taken for a string by the table: the backslash escapes the quote behind
it, and the brace is not found -/
theorem backslash_inside_span_escapes_quote :
    let t : Text := "\x7b '\\' \x7d".toList
    let u : Text := "\x7b 'x' \x7d".toList
    let spans : Spans := ⟨[⟨3, 4, .string⟩]⟩
    SameOutside spans t u ∧ closingBrace? t spans 0 = none ∧ closingBrace? u spans 0 = some 6 := by
  intro t u spans
  exact ⟨⟨by decide, by decide⟩, by decide, by decide⟩

end CodeEditor
