import Mathlib.Tactic
import CodeEditor.Proofs.Classifier.Lexer
import CodeEditor.Proofs.Scan.Contents
/-!
Where comments and strings end.

A token that ends in a mark of its own does not end in a backslash. One without goes on to the end of its line or of the
text, or to a backslash there (`endsClear_of_tokenAt?`). So no token ends in a backslash that could escape a quote
behind it (`escapesNoQuote_classify`), and under the spans that the classifier of a language finds, scans read nothing
of their contents (`scans_skip_contents`).
-/

namespace CodeEditor

/-! ## The end of a token -/

namespace Token

/-- a text that a token stops at without a mark: nothing, the end of a line, or a backslash there -/
def Breaks : Text → Prop
  | [] => True
  | '\n' :: _ => True
  | '\\' :: t => t.head?.all (· == '\n') = true
  | _ => False

/-- the first `n` characters of a text end in something else than a backslash, or the text breaks behind them -/
def EndsClear (t : Text) (n : Nat) : Prop :=
  Breaks (t.drop n) ∨ ∃ c, (t.take n).getLast? = some c ∧ c ≠ '\\'

variable {t : Text} {n : Nat}

/-- where a text breaks, there is no quote, and no quote behind a backslash -/
theorem Breaks.escapes_nothing (h : Breaks t) : t.charAt 0 ≠ '\'' ∧ ¬ (t.charAt 0 = '\\' ∧ t.charAt 1 = '\'') := by
  unfold Breaks at h
  split at h
  · decide
  · exact ⟨by simp [Text.charAt], by simp [Text.charAt]⟩
  · next u =>
    refine ⟨by simp [Text.charAt], ?_⟩
    cases u with
    | nil => decide
    | cons c u =>
      obtain rfl : c = '\n' := by simpa using h
      simp [Text.charAt]
  · exact h.elim

theorem EndsClear.cons (h : EndsClear t n) (c : Char) : EndsClear (c :: t) (n + 1) := by
  rcases h with hbreaks | ⟨d, hlast, hd⟩
  · exact .inl hbreaks
  · refine .inr ⟨d, ?_, hd⟩
    rw [List.take_succ_cons, List.getLast?_cons, hlast]
    rfl

theorem EndsClear.append (h : EndsClear t n) (mark : Text) : EndsClear (mark ++ t) (mark.length + n) := by
  induction mark with
  | nil => rwa [List.nil_append, List.length_nil, Nat.zero_add]
  | cons c mark ih =>
    have hlength : (c :: mark).length + n = mark.length + n + 1 := by rw [List.length_cons, Nat.add_right_comm]
    rw [hlength]
    exact ih.cons c

theorem endsClear_blockLength (t : Text) : EndsClear t (blockLength t) := by
  induction t using blockLength.induct with
  | case1 t => exact .inr ⟨'/', rfl, by decide⟩
  | case2 c t hend ih =>
    have hlength : blockLength (c :: t) = blockLength t + 1 := by
      rw [blockLength, Nat.add_comm]
      exact hend
    rw [hlength]
    exact ih.cons c
  | case3 => exact .inl trivial

theorem endsClear_lineLength (t : Text) : EndsClear t (lineLength t) := by
  induction t with
  | nil => exact .inl trivial
  | cons c t ih =>
    by_cases hc : c = '\n'
    · subst hc
      exact .inl trivial
    · have hlength : lineLength (c :: t) = lineLength t + 1 := by
        rw [lineLength, List.takeWhile_cons_of_pos (p := (· != '\n')) (bne_iff_ne.2 hc), List.length_cons, lineLength]
      rw [hlength]
      exact ih.cons c

theorem endsClear_stringLength (t : Text) : EndsClear t (stringLength t) := by
  induction t using stringLength.induct with
  | case1 t => exact .inr ⟨'"', rfl, by decide⟩
  | case2 t => exact .inl rfl
  | case3 c t hc ih =>
    have hlength : stringLength ('\\' :: c :: t) = stringLength t + 1 + 1 := by
      rw [stringLength, if_neg hc, Nat.add_comm]
    rw [hlength]
    exact (ih.cons c).cons '\\'
  | case4 => exact .inl rfl
  | case5 t => exact .inl trivial
  | case6 c t hquote hescape hlast hbreak ih =>
    have hlength : stringLength (c :: t) = stringLength t + 1 := by
      rw [stringLength, if_neg hbreak, Nat.add_comm]
      · exact hquote
      · exact hescape
      · exact hlast
    rw [hlength]
    exact ih.cons c
  | case7 => exact .inl trivial

theorem endsClear_of_behind? {mark : Text} {length : Text → Nat} (hlength : ∀ u, EndsClear u (length u))
    (h : behind? mark length t = some n) : EndsClear t n := by
  unfold behind? at h
  split_ifs at h with hmark
  obtain ⟨u, rfl⟩ := List.isPrefixOf_iff_prefix.1 hmark
  rw [List.drop_left] at h
  obtain rfl := Option.some.inj h
  exact (hlength u).append mark

end Token

namespace Language

variable {l : Language} {t : Text}

/-- **A token ends clear.** -/
theorem endsClear_of_tokenAt? {token : Nat × SpanKind} (h : l.tokenAt? t = some token) : Token.EndsClear t token.1 := by
  rcases tokenAt?_cases h with hblock | ⟨mark, -, hline⟩ | hstring
  · exact Token.endsClear_of_behind? Token.endsClear_blockLength hblock
  · exact Token.endsClear_of_behind? Token.endsClear_lineLength hline
  · exact Token.endsClear_of_behind? Token.endsClear_stringLength hstring

/-- each span of the tokens of a text is a token at its place -/
theorem tokenAt?_of_mem_tokens {id : Option String} {s : Span} {offset : Nat} (h : s ∈ (ofId id).tokens offset t) :
    ∃ k n, s = ⟨offset + k, offset + k + n, s.kind⟩ ∧ (ofId id).tokenAt? (t.drop k) = some (n, s.kind) := by
  induction offset, t using tokens.induct (ofId id) with
  | case1 offset =>
    rw [tokens] at h
    cases h
  | case2 offset c t n kind htoken ih =>
    rw [tokens, htoken] at h
    rcases List.mem_cons.1 h with rfl | hrest
    · exact ⟨0, n, rfl, htoken⟩
    · obtain ⟨k, m, hs, hat⟩ := ih hrest
      have hpos : 0 < n := Classifier.pos_of_tokenAt? htoken
      have hdrop : (c :: t).drop (n + k) = (t.drop (n - 1)).drop k := by
        obtain ⟨n, rfl⟩ := Nat.exists_eq_succ_of_ne_zero hpos.ne'
        rw [List.drop_drop, Nat.succ_add, List.drop_succ_cons, Nat.succ_sub_one]
      exact ⟨n + k, m, by rwa [← Nat.add_assoc], by rwa [hdrop]⟩
  | case3 offset c t htoken ih =>
    rw [tokens, htoken] at h
    obtain ⟨k, n, hs, hat⟩ := ih h
    exact ⟨k + 1, n, by rwa [Nat.add_right_comm] at hs, hat⟩

end Language

/-! ## Spans of a classifier -/

namespace Classifier

variable {c : Classifier} {id : Option String}

/-- the rules of a language are accepted as they are -/
theorem forLanguage_eq_make (id : Option String) : forLanguage (.ofId id) = make (languageRules (.ofId id)) := by
  obtain ⟨ps, hsimple, -, -⟩ := simple_languageRules id
  have haccepted : ∀ rule ∈ languageRules (.ofId id), rule.Accepted := fun rule hrule =>
    (exists_simple_of_mem hsimple rule hrule).elim fun _ hp => hp.accepted
  rw [forLanguage, checkRules_of_accepted haccepted]

/-- the spans of a language's classifier are its tokens -/
theorem classify_of_forLanguage (h : forLanguage (.ofId id) = .ok c) (t : Text) :
    c.classify t = ⟨(Language.ofId id).tokens 0 t⟩ := by
  obtain ⟨ps, hsimple, hheight, hfits⟩ := simple_languageRules id
  obtain ⟨c', hmake, hscan⟩ := make_of_simple hsimple hheight hfits
  rw [forLanguage_eq_make, hmake] at h
  obtain rfl := Except.ok.inj h
  rw [hscan, scan_languageRules, List.drop_zero]

/-- **No token ends in a backslash that escapes a quote.** -/
theorem escapesNoQuote_classify (h : forLanguage (.ofId id) = .ok c) (t : Text) : EscapesNoQuote (c.classify t) t := by
  intro o ho hnext hslash
  obtain ⟨s, hs, hstart, hstop⟩ := Spans.exists_span_of_end ho hnext
  rw [classify_of_forLanguage h] at hs
  obtain ⟨k, n, heq, htoken⟩ := Language.tokenAt?_of_mem_tokens hs
  rw [Nat.zero_add] at heq
  have hk : k ≤ o := by rwa [heq] at hstart
  have hlast : k + n = o + 1 := by rw [← hstop, heq]
  obtain ⟨m, rfl⟩ := Nat.exists_eq_add_of_le hk
  obtain rfl : n = m + 1 := by omega
  rcases Language.endsClear_of_tokenAt? htoken with hbreaks | ⟨d, hd, hne⟩
  · rw [List.drop_drop, ← Nat.add_assoc] at hbreaks
    have hclear := hbreaks.escapes_nothing
    rwa [Text.charAt_drop, Text.charAt_drop, Nat.add_zero] at hclear
  · have hchar : Text.charAt (t.drop k) m = '\\' := by rwa [Text.charAt_drop]
    have hlt : m < (t.drop k).length := Text.lt_length_of_charAt (by rw [hchar]; decide)
    rw [Text.getLast?_take_succ _ hlt, hchar] at hd
    exact absurd (Option.some.inj hd).symm hne

end Classifier

/-! ## Scans and the contents of spans -/

/-- **What scans read of spans.** Under every table, scans from every offset find the same in two texts that differ
inside the spans only, if the same quotes outside are escaped. Under a table that covers anything at all, this condition
cannot be dropped. It always holds under the spans that the classifier of a language finds in both texts. -/
theorem scans_skip_contents (spans : Spans) :
    (∀ t u, SameOutside spans t u → QuotesAgree spans t u → ScansAgree spans t u) ∧
      ((∀ t u, SameOutside spans t u → ScansAgree spans t u) ↔ ∀ o, spans.covers o = false) ∧
        ∀ id c t u, Classifier.forLanguage (.ofId id) = .ok c → c.classify t = spans → c.classify u = spans →
          SameOutside spans t u → ScansAgree spans t u := by
  refine ⟨fun t u h hquotes => h.scansAgree hquotes, contents_are_skipped_iff spans, ?_⟩
  intro id c t u hc ht hu h
  have hescapes : EscapesNoQuote spans t := ht ▸ Classifier.escapesNoQuote_classify hc t
  have hescapes' : EscapesNoQuote spans u := hu ▸ Classifier.escapesNoQuote_classify hc u
  exact h.scansAgree (h.quotesAgree hescapes hescapes')

/-- a string that ends in a quote of its own, a quoted brace, and a comment, in C++: another string and another comment
of the same lengths leave the closing brace where it is -/
theorem contents_of_string_and_comment_are_skipped :
    let t : Text := "\x7b\"\\\"\"'\x7d'//\x7d\n\x7d".toList
    let u : Text := "\x7b\"\x7d\x7b\"'\x7d'//'\n\x7d".toList
    let spans : Spans := ⟨[⟨1, 5, .string⟩, ⟨8, 11, .comment⟩]⟩
    ∃ c, Classifier.forLanguage (.ofId (some "cpp")) = .ok c ∧ c.classify t = spans ∧ c.classify u = spans ∧
      SameOutside spans t u ∧ QuotesAgree spans t u ∧ ScansAgree spans t u ∧ closingBrace? t spans 0 = some 12 := by
  intro t u spans
  have htokens : (Language.ofId (some "cpp")).tokens 0 "\x7b\"\\\"\"'\x7d'//\x7d\n\x7d".toList =
    [⟨1, 5, .string⟩, ⟨8, 11, .comment⟩] := by cbv
  have htokens' : (Language.ofId (some "cpp")).tokens 0 "\x7b\"\x7d\x7b\"'\x7d'//'\n\x7d".toList =
    [⟨1, 5, .string⟩, ⟨8, 11, .comment⟩] := by cbv
  obtain ⟨ps, hsimple, hheight, hfits⟩ := Classifier.simple_languageRules (some "cpp")
  obtain ⟨c, hmake, -⟩ := Classifier.make_of_simple hsimple hheight hfits
  have hc : Classifier.forLanguage (.ofId (some "cpp")) = .ok c := by rw [Classifier.forLanguage_eq_make, hmake]
  have ht : c.classify t = spans := by rw [Classifier.classify_of_forLanguage hc, htokens]
  have hu : c.classify u = spans := by rw [Classifier.classify_of_forLanguage hc, htokens']
  have hsame : SameOutside spans t u := ⟨by decide, by decide⟩
  have hquotes : QuotesAgree spans t u :=
    hsame.quotesAgree (ht ▸ Classifier.escapesNoQuote_classify hc t) (hu ▸ Classifier.escapesNoQuote_classify hc u)
  obtain ⟨hskip, -, hlanguage⟩ := scans_skip_contents spans
  exact ⟨c, hc, ht, hu, hsame, hquotes, hlanguage _ c t u hc ht hu hsame, by decide⟩

end CodeEditor
