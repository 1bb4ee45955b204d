import CodeEditor.Language
import CodeEditor.Proofs.Pattern.Tries
import CodeEditor.Spans
/-!
Comments and strings, found by reading on.

The tokens of a text are found from left to right: outside of a token, a mark starts one, and it goes on to its end
(`Language.tokens`). For each kind of token there is a pattern, and it matches at a place just if a token of that kind
starts there, up to its end (`Pattern.matchAt?_blockComment`, `matchAt?_lineComment`, `matchAt?_quoted`).
-/

namespace CodeEditor

/-! ## Tokens -/

namespace Token

/-- number of characters up to and with the first end of a block comment, all of them if there is none -/
def blockLength : Text → Nat
  | '*' :: '/' :: _ => 2
  | _ :: t => 1 + blockLength t
  | [] => 0

/-- number of characters on the same line -/
def lineLength (t : Text) : Nat :=
  (t.takeWhile (· != '\n')).length

/-- number of characters of a string behind the quote it starts with. A backslash takes the next character with it, but
neither goes over the end of the line -/
def stringLength : Text → Nat
  | '"' :: _ => 1
  | '\\' :: c :: t => if c = '\n' then 0 else 2 + stringLength t
  | ['\\'] => 0
  | c :: t => if c = '\n' then 0 else 1 + stringLength t
  | [] => 0

/-- length of a token that starts with a mark, given how far it goes on behind the mark -/
def behind? (mark : Text) (length : Text → Nat) (t : Text) : Option Nat :=
  if mark.isPrefixOf t then some (mark.length + length (t.drop mark.length)) else none

/-- length of the block comment at the start of a text -/
def block? : Text → Option Nat :=
  behind? ['/', '*'] blockLength

/-- length of the line comment at the start of a text -/
def line? (mark : Text) : Text → Option Nat :=
  behind? mark lineLength

/-- length of the string at the start of a text -/
def string? : Text → Option Nat :=
  behind? ['"'] stringLength

theorem behind?_nil {mark : Text} (hmark : mark ≠ []) (length : Text → Nat) : behind? mark length [] = none := by
  cases mark with
  | nil => exact absurd rfl hmark
  | cons c mark => rfl

theorem pos_of_behind? {mark t : Text} (hmark : mark ≠ []) {length : Text → Nat} {n : Nat}
    (h : behind? mark length t = some n) : 0 < n := by
  unfold behind? at h
  split_ifs at h
  obtain rfl := Option.some.inj h
  exact Nat.add_pos_left (List.length_pos_iff.2 hmark) _

end Token

namespace Language

/-- the token at the start of a text: its length and kind. A block comment comes before a line
comment, that before a string -/
def tokenAt? (l : Language) (t : Text) : Option (Nat × SpanKind) :=
  ((if l.isBracket then Token.block? t else none).map (·, .comment)).or
    (((l.lineComment?.bind (Token.line? · t)).map (·, .comment)).or
      ((if l.id.isSome then Token.string? t else none).map (·, .string)))

/-- a token is a block comment, a line comment or a string -/
theorem tokenAt?_cases {l : Language} {t : Text} {token : Nat × SpanKind} (h : l.tokenAt? t = some token) :
    Token.block? t = some token.1 ∨ (∃ mark, l.lineComment? = some mark ∧ Token.line? mark t = some token.1) ∨
      Token.string? t = some token.1 := by
  rw [tokenAt?, Option.or_eq_some_iff, Option.or_eq_some_iff] at h
  rcases h with h | ⟨-, h | ⟨-, h⟩⟩
  · obtain ⟨n, hn, rfl⟩ := Option.map_eq_some_iff.1 h
    split_ifs at hn
    exact .inl hn
  · obtain ⟨n, hn, rfl⟩ := Option.map_eq_some_iff.1 h
    exact .inr (.inl (Option.bind_eq_some_iff.1 hn))
  · obtain ⟨n, hn, rfl⟩ := Option.map_eq_some_iff.1 h
    split_ifs at hn
    exact .inr (.inr hn)

/-- the tokens of a text that starts at an offset: each is followed by the ones behind it, and a character that
starts none is skipped -/
def tokens (l : Language) (offset : Nat) : Text → List Span
  | [] => []
  | c :: t =>
    match l.tokenAt? (c :: t) with
    | some (length, kind) => ⟨offset, offset + length, kind⟩ :: tokens l (offset + length) (t.drop (length - 1))
    | none => tokens l (offset + 1) t
termination_by t => t.length

/-- text without a language has no tokens -/
theorem tokens_plain (offset : Nat) (t : Text) : plain.tokens offset t = [] := by
  induction t generalizing offset with
  | nil => rw [tokens]
  | cons c t ih =>
    have hnone : plain.tokenAt? (c :: t) = none := rfl
    rw [tokens, hnone]
    exact ih (offset + 1)

/-- marks inside of a token start none -/
example : (ofId (some "cpp")).tokens 0 "x \"// y\" // \"z".toList = [⟨2, 8, .string⟩, ⟨9, 14, .comment⟩] := by cbv

end Language

/-! ## Patterns -/

namespace Pattern

open Matching

/-- any character -/
def anything : CharSet :=
  .compl .none

/-- a character of the same line -/
def onLine : CharSet :=
  .compl (.char '\n')

/-- a character that stands for itself in a string -/
def plain : CharSet :=
  .compl (.union (.char '"') (.union (.char '\\') (.union (.char '\n') .none)))

theorem contains_onLine : onLine.contains = (· != '\n') := by
  funext c
  exact congrArg (!·) (Bool.beq_comm ..)

theorem contains_plain (c : Char) : plain.contains c = true ↔ c ≠ '"' ∧ c ≠ '\\' ∧ c ≠ '\n' := by
  simp only [plain, CharSet.contains, Bool.not_eq_true', Bool.or_eq_false_iff, beq_eq_false_iff_ne, and_true, ne_comm]

/-- the end of a block comment, or of the text -/
def blockEnd : Pattern :=
  alt (startingWith ['*'] (set (.char '/'))) (anchor .textEnd)

/-- a block comment -/
def blockComment : Pattern :=
  startingWith ['/', '*'] (seq (times 0 none false (set anything)) blockEnd)

/-- a line comment -/
def lineComment (mark : Text) : Pattern :=
  startingWith mark (times 0 none true (set onLine))

/-- a character of a string, with the backslash before it if there is one -/
def stringPart : Pattern :=
  alt (startingWith ['\\'] (set onLine)) (set plain)

/-- the end of a string, if it has one -/
def stringEnd : Pattern :=
  times 0 (some 1) true (set (.char '"'))

/-- a string in double quotes -/
def quoted : Pattern :=
  startingWith ['"'] (seq (times 0 none true stringPart) stringEnd)

variable {base n pos choice : Nat} {before : Option Char} {captures : List (Nat × Nat × Nat)} {k : Point → Attempt}
  {found : Found}

/-- at the end of a block comment what follows its text comes to a match -/
theorem endsIn_blockEnd (t : Text) :
    EndsIn base pos (blockEnd.matcher base ⟨pos, before, '*' :: '/' :: t, captures⟩ arrive) ⟨pos + 2, captures⟩ := by
  refine (EndsIn.orElse ?_ _).once
  have hstar : ['*'].isPrefixOf ('*' :: '/' :: t) = true := rfl
  rw [matcher_startingWith, if_pos hstar]
  exact endsIn_arrive

/-- so it does at the end of the text -/
theorem endsIn_blockEnd_nil :
    EndsIn base pos (blockEnd.matcher base ⟨pos, before, [], captures⟩ arrive) ⟨pos, captures⟩ := by
  refine (GivesUp.orElse_endsIn (n := base + 1) ?_ ?_).once
  · rw [matcher_startingWith, if_neg (by simp)]
    exact givesUp_fail
  · exact endsIn_arrive

/-- anywhere else it gives up -/
theorem givesUp_blockEnd {c : Char} {t : Text} (hend : ∀ u, c = '*' → t = '/' :: u → False) :
    GivesUp base (base + 1) pos (blockEnd.matcher base ⟨pos, before, c :: t, captures⟩ arrive) := by
  refine (GivesUp.orElse (n := base + 1) ?_ ?_).once
  · rw [matcher_startingWith]
    split_ifs with hstar
    · obtain rfl : '*' = c := by simpa using hstar
      change GivesUp _ _ _ (Matching.char (.char '/') ⟨pos + 1, some '*', t, captures⟩ arrive)
      cases t with
      | nil =>
        rw [char_nil rfl]
        exact givesUp_fail
      | cons d t =>
        have hd : CharSet.contains (.char '/') d = false := beq_eq_false_iff_ne.2 fun heq => hend t rfl (heq ▸ rfl)
        rw [char_cons rfl, hd, if_neg Bool.false_ne_true]
        exact givesUp_fail
    · exact givesUp_fail
  · exact givesUp_fail

/-- the text of a block comment is taken as far as its end -/
theorem endsIn_blockLength (pt : Point) :
    EndsIn base pt.pos (loop false base (Matching.char anything) pt fun pt' => blockEnd.matcher (base + 1) pt' arrive)
      ⟨pt.pos + Token.blockLength pt.rest, pt.captures⟩ := by
  obtain ⟨pos, before, t, captures⟩ := pt
  induction t using Token.blockLength.induct generalizing pos before with
  | case1 t => exact EndsIn.loop_leave (endsIn_blockEnd t)
  | case2 c t hend ih =>
    have hmore : EndsIn (base + 2) pos _ _ := (ih (pos + 1) (some c)).ahead (Nat.lt_succ_self pos)
    have hlength : Token.blockLength (c :: t) = 1 + Token.blockLength t := by
      rw [Token.blockLength]
      exact hend
    have hany : anything.contains c = true := rfl
    have hshorter : t.length < (c :: t).length := Nat.lt_succ_self _
    rw [hlength, ← Nat.add_assoc]
    refine GivesUp.loop_more (givesUp_blockEnd hend) ?_
    rw [char_cons rfl, if_pos hany]
    dsimp only
    rwa [if_pos hshorter]
  | case3 => exact EndsIn.loop_leave endsIn_blockEnd_nil

/-- a character that stands for itself is a part of a string -/
theorem endsIn_stringPart {c : Char} {t : Text} (hc : plain.contains c = true)
    (h : EndsIn 0 (pos + 1) (k ⟨pos + 1, some c, t, captures⟩) found) :
    EndsIn base pos (stringPart.matcher base ⟨pos, before, c :: t, captures⟩ k) found := by
  have hslash : ¬['\\'].isPrefixOf (c :: t) = true := by
    simpa using Ne.symm ((contains_plain c).1 hc).2.1
  refine (GivesUp.orElse_endsIn (n := base + 1) ?_ ?_).once
  · rw [matcher_startingWith, if_neg hslash]
    exact givesUp_fail
  · change EndsIn _ _ (Matching.char plain _ k) _
    rw [char_cons rfl, if_pos hc]
    exact h.ahead (Nat.lt_succ_self pos)

/-- a backslash takes the next character with it -/
theorem endsIn_stringPart_escape {c : Char} {t : Text} (hc : c ≠ '\n')
    (h : EndsIn 0 (pos + 2) (k ⟨pos + 2, some c, t, captures⟩) found) :
    EndsIn base pos (stringPart.matcher base ⟨pos, before, '\\' :: c :: t, captures⟩ k) found := by
  have hslash : ['\\'].isPrefixOf ('\\' :: c :: t) = true := rfl
  have honLine : onLine.contains c = true := by
    rw [contains_onLine]
    exact bne_iff_ne.2 hc
  refine (EndsIn.orElse ?_ _).once
  rw [matcher_startingWith, if_pos hslash]
  change EndsIn _ _ (Matching.char onLine ⟨pos + 1, some '\\', c :: t, captures⟩ k) _
  rw [char_cons rfl, if_pos honLine]
  exact h.ahead (Nat.lt_add_of_pos_right Nat.two_pos)

/-- a text that a string does not go on with: a quote, the end of the line, or a backslash there -/
def EndsString : Text → Prop
  | [] => True
  | '\\' :: t => t.head?.all (· == '\n')
  | c :: _ => c = '"' ∨ c = '\n'

theorem EndsString.contains_plain {c : Char} {t : Text} (h : EndsString (c :: t)) : plain.contains c = false := by
  rw [Bool.eq_false_iff]
  intro hplain
  obtain ⟨hquote, hslash, hbreak⟩ := (Pattern.contains_plain c).1 hplain
  rw [EndsString] at h
  · exact h.elim hquote hbreak
  · exact fun heq => hslash heq

theorem givesUp_stringPart {t : Text} (h : EndsString t) :
    GivesUp base (base + 1) pos (stringPart.matcher base ⟨pos, before, t, captures⟩ k) := by
  refine (GivesUp.orElse (n := base + 1) ?_ ?_).once
  · rw [matcher_startingWith]
    split_ifs with hslash
    · obtain ⟨u, rfl⟩ := List.isPrefixOf_iff_prefix.1 hslash
      change GivesUp _ _ _ (Matching.char onLine ⟨pos + 1, some '\\', u, captures⟩ k)
      cases u with
      | nil =>
        rw [char_nil rfl]
        exact givesUp_fail
      | cons d u =>
        obtain rfl : d = '\n' := by simpa [EndsString] using h
        have honLine : onLine.contains '\n' = false := rfl
        rw [char_cons rfl, honLine, if_neg Bool.false_ne_true]
        exact givesUp_fail
    · exact givesUp_fail
  · change GivesUp _ _ _ (Matching.char plain ⟨pos, before, t, captures⟩ k)
    cases t with
    | nil =>
      rw [char_nil rfl]
      exact givesUp_fail
    | cons c t =>
      rw [char_cons rfl, h.contains_plain, if_neg Bool.false_ne_true]
      exact givesUp_fail

/-- a closing quote is taken -/
theorem endsIn_stringEnd (t : Text) :
    EndsIn base pos (stringEnd.matcher base ⟨pos, before, '"' :: t, captures⟩ arrive) ⟨pos + 1, captures⟩ := by
  have hquote : CharSet.contains (.char '"') '"' = true := rfl
  rw [stringEnd, matcher_optional]
  refine EndsIn.branch_more ?_ _
  rw [matcher, char_cons rfl, if_pos hquote]
  exact endsIn_arrive

/-- a string may also end without one -/
theorem endsIn_stringEnd_of_ne {t : Text} (ht : ∀ u, t ≠ '"' :: u) :
    EndsIn base pos (stringEnd.matcher base ⟨pos, before, t, captures⟩ arrive) ⟨pos, captures⟩ := by
  rw [stringEnd, matcher_optional]
  refine GivesUp.branch_leave (n := base + 1) ?_ ?_
  · rw [matcher]
    cases t with
    | nil =>
      rw [char_nil rfl]
      exact givesUp_fail
    | cons c t =>
      have hc : CharSet.contains (.char '"') c = false := beq_eq_false_iff_ne.2 fun heq => ht t (heq ▸ rfl)
      rw [char_cons rfl, hc, if_neg Bool.false_ne_true]
      exact givesUp_fail
  · exact endsIn_arrive

/-- where a string ends without a quote -/
theorem endsIn_stringLength_of_ends {pt : Point} (h : EndsString pt.rest) (hquote : ∀ u, pt.rest ≠ '"' :: u) :
    EndsIn base pt.pos (loop true base (stringPart.matcher (base + 1)) pt fun pt' =>
      stringEnd.matcher (base + 2) pt' arrive)
      ⟨pt.pos, pt.captures⟩ :=
  GivesUp.loop_leave (givesUp_stringPart h) (endsIn_stringEnd_of_ne hquote)

/-- a string goes on as far as its end -/
theorem endsIn_stringLength (pt : Point) :
    EndsIn base pt.pos (loop true base (stringPart.matcher (base + 1)) pt fun pt' =>
      stringEnd.matcher (base + 2) pt' arrive)
      ⟨pt.pos + Token.stringLength pt.rest, pt.captures⟩ := by
  obtain ⟨pos, before, t, captures⟩ := pt
  induction t using Token.stringLength.induct generalizing pos before with
  | case1 t => exact GivesUp.loop_leave (givesUp_stringPart (Or.inl rfl)) (endsIn_stringEnd t)
  | case2 t => exact endsIn_stringLength_of_ends rfl (by simp)
  | case3 c t hc ih =>
    have hmore : EndsIn 0 (pos + 2) _ _ := (ih (pos + 2) (some c)).mono (Nat.zero_le base)
    have hlength : Token.stringLength ('\\' :: c :: t) = 2 + Token.stringLength t := by
      rw [Token.stringLength, if_neg hc]
    have hshorter : t.length < ('\\' :: c :: t).length := Nat.lt_add_of_pos_right Nat.two_pos
    rw [hlength, ← Nat.add_assoc]
    refine EndsIn.loop_more ?_
    refine endsIn_stringPart_escape hc ?_
    dsimp only
    rwa [if_pos hshorter]
  | case4 => exact endsIn_stringLength_of_ends rfl (by simp)
  | case5 t => exact endsIn_stringLength_of_ends (Or.inr rfl) (by simp)
  | case6 c t hquote hescape hlast hbreak ih =>
    have hslash : c ≠ '\\' := by
      rintro rfl
      cases t with
      | nil => exact hlast rfl rfl
      | cons d t => exact hescape d t rfl rfl
    have hmore : EndsIn 0 (pos + 1) _ _ := (ih (pos + 1) (some c)).mono (Nat.zero_le base)
    have hlength : Token.stringLength (c :: t) = 1 + Token.stringLength t := by
      rw [Token.stringLength, if_neg hbreak]
      · exact hquote
      · exact hescape
      · exact hlast
    have hshorter : t.length < (c :: t).length := Nat.lt_succ_self _
    rw [hlength, ← Nat.add_assoc]
    refine EndsIn.loop_more ?_
    refine endsIn_stringPart ((contains_plain c).2 ⟨hquote, hslash, hbreak⟩) ?_
    dsimp only
    rwa [if_pos hshorter]
  | case7 => exact endsIn_stringLength_of_ends trivial (by simp)

/-! ## Matches -/

variable {pt : Point}

/-- a pattern that starts with a mark matches where the mark is, and as far as the rest of it goes on -/
theorem matchAt?_of_startingWith {mark : Text} {p : Pattern} {length : Text → Nat}
    (h : ∀ pt : Point, EndsIn 0 pt.pos (p.matcher 0 pt arrive) ⟨pt.pos + length pt.rest, pt.captures⟩) (pt : Point) :
    (startingWith mark p).matchAt? pt = (Token.behind? mark length pt.rest).map fun n => ⟨pt.pos + n, pt.captures⟩ := by
  rw [matchAt?_startingWith, Token.behind?]
  split_ifs
  · rw [matchAt?_of_endsIn (h (pt.behind mark)), Point.pos_behind, Point.rest_behind, Point.captures_behind,
      Option.map_some, Nat.add_assoc]
  · rfl

/-- **A block comment** is what its pattern matches. -/
theorem matchAt?_blockComment (pt : Point) :
    blockComment.matchAt? pt = (Token.block? pt.rest).map fun n => ⟨pt.pos + n, pt.captures⟩ :=
  matchAt?_of_startingWith endsIn_blockLength pt

/-- **A line comment** is what its pattern matches. -/
theorem matchAt?_lineComment (mark : Text) (pt : Point) :
    (lineComment mark).matchAt? pt = (Token.line? mark pt.rest).map fun n => ⟨pt.pos + n, pt.captures⟩ := by
  refine matchAt?_of_startingWith (fun pt => ?_) pt
  have hrun : EndsIn 0 pt.pos _ _ := endsIn_run onLine pt
  rw [contains_onLine] at hrun
  exact hrun

/-- **A string** is what its pattern matches. -/
theorem matchAt?_quoted (pt : Point) :
    quoted.matchAt? pt = (Token.string? pt.rest).map fun n => ⟨pt.pos + n, pt.captures⟩ :=
  matchAt?_of_startingWith endsIn_stringLength pt

end Pattern

end CodeEditor
