import Mathlib.Tactic
import CodeEditor.Proofs.Classifier.Rules
import CodeEditor.Proofs.Classifier.Tokens
import CodeEditor.Proofs.Pattern.Cost
/-!
The classifier of a language.

The rules of a language have patterns without groups, so they are put together, and classification is their scan
(`make_of_simple`). Each rule finds the tokens of its kind, and the first rule that finds one is asked in the order in
which the marks of tokens are looked for. So the classifier finds just the tokens of the language
(`classifier_finds_tokens`).
-/

namespace CodeEditor

open Pattern

namespace Rule

/-- a rule that is read as a pattern without groups, and does not end in a comment -/
structure Simple (rule : Rule) (p : Pattern) : Prop where
  parsed : parse? .default rule.pattern = some (p, [])
  fits : p.fits = true
  opened : rule.opened = 0
  kept : p.groups = 0
  shows : rule.ShowsParenthesis

variable {rule : Rule} {p : Pattern}

theorem Simple.compiled (h : rule.Simple p) : Regex.compile? .default rule.pattern = some ⟨p, []⟩ :=
  Regex.compile?_eq_some_iff.2 ⟨h.parsed, h.fits⟩

theorem Simple.accepted (h : rule.Simple p) : rule.Accepted :=
  accepted_iff.2 ⟨_, h.compiled⟩

theorem Simple.kept_eq_opened (h : rule.Simple p) : rule.kept = rule.opened := by
  rw [h.opened, Rule.kept, h.parsed]
  exact h.kept

/-- the reader at the end of a simple rule -/
theorem Simple.reader (h : rule.Simple p) :
    ∃ r, rule.reader? = some r ∧ r.alternatives.value = p ∧ r.groups = 0 ∧ r.names = [] := by
  obtain ⟨r, hread, hfinish, -⟩ := reader?_of_compile? h.compiled
  obtain ⟨-, -, hvalue, hnames⟩ := Reader.finish?_eq_some_iff.1 hfinish
  have hopened := h.opened
  rw [Rule.opened, hread] at hopened
  exact ⟨r, hread, hvalue.symm, hopened, hnames.symm⟩

theorem Simple.names (h : rule.Simple p) : rule.names = [] := by
  obtain ⟨r, hread, -, -, hnames⟩ := h.reader
  rw [Rule.names, hread, Option.map_some, Reader.given, hnames]
  rfl

/-- what a simple rule finds -/
theorem Simple.spanAt? (h : rule.Simple p) {length? : Text → Option Nat}
    (hp : ∀ pt : Point, p.matchAt? pt = (length? pt.rest).map fun n => ⟨pt.pos + n, pt.captures⟩) (t : Text)
    (offset : Nat) :
    rule.spanAt? t offset = (length? (t.drop offset)).map fun n => ⟨offset, offset + n, rule.kind⟩ := by
  rw [Rule.spanAt?, h.compiled, Option.bind_some, Regex.matchIn?, Regex.matchAt?, hp, Option.map_map, Option.map_map]
  rfl

end Rule

namespace Classifier

/-- patterns in groups that are numbered in a row -/
def numbered (k : Nat) : List Pattern → List Pattern
  | [] => []
  | p :: ps => .group (k + 1) p :: numbered (k + 1) ps

variable {rules : List Rule} {ps : List Pattern}

theorem groupsBehind_of_simple (h : List.Forall₂ Rule.Simple rules ps) (k : Nat) :
    (groupsBehind k (readers rules)).map Sized.value = numbered k ps := by
  induction h generalizing k with
  | nil => rfl
  | cons hrule _ ih =>
    obtain ⟨r, hread, hvalue, hgroups, -⟩ := hrule.reader
    have hregroup := regroup_of_groups_eq_zero (k := k + 1) hrule.kept
    rw [readers, List.filterMap_cons_some hread, ← readers, groupsBehind, List.map_cons, numbered, hgroups,
      Nat.add_zero, ih, hvalue, hregroup]

/-- simple rules are joined as a choice among their patterns -/
theorem joinedPattern_of_simple (h : List.Forall₂ Rule.Simple rules ps) :
    joinedPattern (readers rules) = ofAlternatives (numbered 0 ps) := by
  rw [joinedPattern, groupsBehind_of_simple h]

theorem exists_simple_of_mem (h : List.Forall₂ Rule.Simple rules ps) : ∀ rule ∈ rules, ∃ p, rule.Simple p := by
  induction h with
  | nil => exact List.forall_mem_nil _
  | cons hrule _ ih => exact List.forall_mem_cons.2 ⟨⟨_, hrule⟩, ih⟩

/-- **Simple rules are put together** if their joined pattern is within the limits, and they keep their meaning. -/
theorem make_of_simple (h : List.Forall₂ Rule.Simple rules ps) (hheight : JoinedHeightFits (readers rules))
    (hfits : (ofAlternatives (numbered 0 ps)).fits = true) :
    ∃ c, make rules = .ok c ∧ ∀ t, c.classify t = ⟨scan rules t 0⟩ := by
  have hsimple := exists_simple_of_mem h
  have haccepted : ∀ rule ∈ rules, rule.Accepted := fun rule hrule => (hsimple rule hrule).elim fun _ hp => hp.accepted
  have hshows : ∀ rule ∈ rules, rule.ShowsParenthesis :=
    fun rule hrule => (hsimple rule hrule).elim fun _ hp => hp.shows
  have hkeep : KeepGroups rules := fun rule hrule =>
    (hsimple rule (List.mem_of_mem_dropLast hrule)).elim fun _ hp => hp.kept_eq_opened
  have hnames : (rules.map Rule.names).Pairwise List.Disjoint := by
    refine List.pairwise_map.2 (List.pairwise_of_forall_mem_list fun rule hrule other _ => ?_)
    obtain ⟨p, hp⟩ := hsimple rule hrule
    rw [hp.names]
    exact List.disjoint_nil_left _
  obtain ⟨c, hc⟩ := (exists_make_iff haccepted hshows).2 ⟨hnames, hheight, joinedPattern_of_simple h ▸ hfits⟩
  exact ⟨c, hc, classify_of_make haccepted hshows hkeep hc⟩

/-! ## The rules of languages -/

/-- block comments between the usual marks -/
def blockRule : Rule :=
  ⟨blockCommentPattern ['/', '*'] ['*', '/'], .comment⟩

/-- line comments behind a mark -/
def lineRule (mark : Text) : Rule :=
  ⟨lineCommentPattern mark, .comment⟩

/-- strings in double quotes -/
def stringRule : Rule :=
  ⟨stringPattern, .string⟩

/-- the marks of line comments -/
def lineMarks : List Text :=
  [['/', '/'], ['#'], ['%'], ['!'], ['-', '-']]

theorem simple_blockRule : blockRule.Simple blockComment where
  parsed := by decide +kernel
  fits := fits_of_price (by rintro (_ | _) <;> cbv)
  opened := by decide +kernel
  kept := rfl
  shows := by decide +kernel

/-- patterns with the same blueprints are within the limits alike -/
theorem fits_of_blueprint {p q : Pattern} (h : ∀ direction, p.blueprint direction = q.blueprint direction)
    (hq : q.fits = true) :
    p.fits = true := by
  rw [Pattern.fits, h, h]
  exact hq

/-- which characters a mark is made of does not matter for the size of a pattern with the mark in it -/
theorem fits_of_marks {F : Text → Pattern} (hone : (F ['#']).fits = true) (htwo : (F ['/', '/']).fits = true)
    (hlike : ∀ direction, (F ['%']).blueprint direction = (F ['#']).blueprint direction ∧
      (F ['!']).blueprint direction = (F ['#']).blueprint direction ∧
      (F ['-', '-']).blueprint direction = (F ['/', '/']).blueprint direction)
    {mark : Text} (hmark : mark ∈ lineMarks) : (F mark).fits = true := by
  simp only [lineMarks, List.mem_cons, List.not_mem_nil, or_false] at hmark
  rcases hmark with rfl | rfl | rfl | rfl | rfl
  · exact htwo
  · exact hone
  · exact fits_of_blueprint (fun direction => (hlike direction).1) hone
  · exact fits_of_blueprint (fun direction => (hlike direction).2.1) hone
  · exact fits_of_blueprint (fun direction => (hlike direction).2.2) htwo

theorem fits_lineComment {mark : Text} (hmark : mark ∈ lineMarks) : (lineComment mark).fits = true :=
  fits_of_marks (F := lineComment) (fits_of_price (by rintro (_ | _) <;> cbv))
    (fits_of_price (by rintro (_ | _) <;> cbv)) (by rintro (_ | _) <;> exact ⟨rfl, rfl, rfl⟩) hmark

theorem fits_lineComment_quoted {mark : Text} (hmark : mark ∈ lineMarks) :
    (ofAlternatives (numbered 0 [lineComment mark, quoted])).fits = true :=
  fits_of_marks (F := fun mark => ofAlternatives (numbered 0 [lineComment mark, quoted]))
    (fits_of_price (by rintro (_ | _) <;> cbv)) (fits_of_price (by rintro (_ | _) <;> cbv))
    (by rintro (_ | _) <;> exact ⟨rfl, rfl, rfl⟩) hmark

theorem simple_lineRule {mark : Text} (hmark : mark ∈ lineMarks) : (lineRule mark).Simple (lineComment mark) where
  parsed := by
    have hall : ∀ mark ∈ lineMarks, parse? .default (lineCommentPattern mark) = some (lineComment mark, []) := by
      decide +kernel
    exact hall mark hmark
  fits := fits_lineComment hmark
  opened := by
    have hall : ∀ mark ∈ lineMarks, (lineRule mark).opened = 0 := by decide +kernel
    exact hall mark hmark
  kept := by
    have hall : ∀ mark ∈ lineMarks, (lineComment mark).groups = 0 := by decide
    exact hall mark hmark
  shows := by
    have hall : ∀ mark ∈ lineMarks, (lineRule mark).ShowsParenthesis := by decide +kernel
    exact hall mark hmark

theorem simple_stringRule : stringRule.Simple quoted where
  parsed := by cbv
  fits := fits_of_price (by rintro (_ | _) <;> cbv)
  opened := by decide +kernel
  kept := rfl
  shows := by decide +kernel

theorem ne_nil_of_mem_lineMarks : ∀ {mark : Text}, mark ∈ lineMarks → mark ≠ [] := by
  decide

/-- the language of an id: without one, with braces, with line comments only, or without comments -/
theorem ofId_cases (id : Option String) :
    Language.ofId id = .plain ∨
      (∃ name, Language.ofId id = ⟨some name, .bracket, .lineAndBlock ['/', '/'] ['/', '*'] ['*', '/']⟩) ∨
        (∃ name, ∃ mark ∈ lineMarks, Language.ofId id = ⟨some name, .other, .lineOnly mark⟩) ∨
          ∃ name, Language.ofId id = ⟨some name, .other, .none⟩ := by
  cases id with
  | none => exact .inl rfl
  | some name =>
    rw [Language.ofId]
    split_ifs
    · exact .inr (.inl ⟨name, rfl⟩)
    · cases hmark : Language.lineMark? name with
      | none => exact .inr (.inr (.inr ⟨name, rfl⟩))
      | some mark =>
        have hmem : mark ∈ lineMarks := by
          unfold Language.lineMark? at hmark
          split_ifs at hmark <;> cases hmark <;> decide
        exact .inr (.inr (.inl ⟨name, mark, hmem, rfl⟩))

theorem lineComment?_lineOnly {mark : Text} (hmark : mark ∈ lineMarks) (name : String) :
    Language.lineComment? ⟨some name, .other, .lineOnly mark⟩ = some mark := by
  have hne : ∀ mark ∈ lineMarks, (CommentMarks.lineOnly mark).hasLine = true := by decide
  exact if_pos (hne mark hmark)

/-- the rules of a language are those of its block comments, its line comments and its strings, as far as it has them -/
theorem languageRules_ofId (id : Option String) :
    languageRules (.ofId id) = (if (Language.ofId id).isBracket then [blockRule] else []) ++
      (((Language.ofId id).lineComment?.map lineRule).toList ++ if (Language.ofId id).id.isSome then [stringRule]
        else []) := by
  rcases ofId_cases id with h | ⟨name, h⟩ | ⟨name, mark, hmark, h⟩ | ⟨name, h⟩
  · rw [h]
    rfl
  · rw [h]
    rfl
  · rw [h, languageRules, lineComment?_lineOnly hmark]
    rfl
  · rw [h]
    rfl

theorem mem_lineMarks {id : Option String} {mark : Text} (h : (Language.ofId id).lineComment? = some mark) :
    mark ∈ lineMarks := by
  rcases ofId_cases id with hid | ⟨name, hid⟩ | ⟨name, mark', hmark', hid⟩ | ⟨name, hid⟩
  · rw [hid] at h
    cases h
  · rw [hid] at h
    obtain rfl : ['/', '/'] = mark := Option.some.inj h
    decide
  · rw [hid, lineComment?_lineOnly hmark'] at h
    exact Option.some.inj h ▸ hmark'
  · rw [hid] at h
    cases h

/-! ## Tokens -/

theorem spanAt?_blockRule (t : Text) (offset : Nat) :
    blockRule.spanAt? t offset = (Token.block? (t.drop offset)).map fun n => ⟨offset, offset + n, .comment⟩ :=
  simple_blockRule.spanAt? matchAt?_blockComment t offset

theorem spanAt?_lineRule {mark : Text} (hmark : mark ∈ lineMarks) (t : Text) (offset : Nat) :
    (lineRule mark).spanAt? t offset = (Token.line? mark (t.drop offset)).map fun n => ⟨offset, offset + n, .comment⟩ :=
  (simple_lineRule hmark).spanAt? (matchAt?_lineComment mark) t offset

theorem spanAt?_stringRule (t : Text) (offset : Nat) :
    stringRule.spanAt? t offset = (Token.string? (t.drop offset)).map fun n => ⟨offset, offset + n, .string⟩ :=
  simple_stringRule.spanAt? matchAt?_quoted t offset

theorem firstSpan?_singleton (rule : Rule) (t : Text) (offset : Nat) :
    firstSpan? [rule] t offset = rule.spanAt? t offset :=
  List.findSome?_singleton ..

theorem firstSpan?_append (rules rules' : List Rule) (t : Text) (offset : Nat) :
    firstSpan? (rules ++ rules') t offset = (firstSpan? rules t offset).or (firstSpan? rules' t offset) :=
  List.findSome?_append

/-- the span of a token that is found at an offset -/
def tokenSpan (offset : Nat) (token : Nat × SpanKind) : Span :=
  ⟨offset, offset + token.1, token.2⟩

/-- **The first rule of a language that finds anything finds its token.** -/
theorem firstSpan?_languageRules (id : Option String) (t : Text) (offset : Nat) :
    firstSpan? (languageRules (.ofId id)) t offset = ((Language.ofId id).tokenAt? (t.drop offset)).map
      (tokenSpan offset) := by
  rw [languageRules_ofId, firstSpan?_append, firstSpan?_append, Language.tokenAt?, Option.map_or, Option.map_or]
  congr 1
  · split_ifs
    · rw [firstSpan?_singleton, spanAt?_blockRule, Option.map_map]
      rfl
    · rfl
  · congr 1
    · cases hmark : (Language.ofId id).lineComment? with
      | none => rfl
      | some mark =>
        rw [Option.map_some, Option.toList_some, firstSpan?_singleton, spanAt?_lineRule (mem_lineMarks hmark),
          Option.bind_some, Option.map_map]
        rfl
    · split_ifs
      · rw [firstSpan?_singleton, spanAt?_stringRule, Option.map_map]
        rfl
      · rfl

/-- at the end of a text there is no token -/
theorem tokenAt?_nil (id : Option String) : (Language.ofId id).tokenAt? [] = none := by
  have hblock : Token.block? [] = none := Token.behind?_nil (List.cons_ne_nil _ _) _
  have hstring : Token.string? [] = none := Token.behind?_nil (List.cons_ne_nil _ _) _
  have hline : (Language.ofId id).lineComment?.bind (Token.line? · []) = none := by
    rw [Option.bind_eq_none_iff]
    intro mark hmark
    exact Token.behind?_nil (ne_nil_of_mem_lineMarks (mem_lineMarks hmark)) _
  rw [Language.tokenAt?, hline, hblock, hstring, ite_self, ite_self]
  rfl

/-- a token has characters -/
theorem pos_of_tokenAt? {id : Option String} {t : Text} {token : Nat × SpanKind}
    (h : (Language.ofId id).tokenAt? t = some token) :
    0 < token.1 := by
  rcases Language.tokenAt?_cases h with hblock | ⟨mark, hmark, hline⟩ | hstring
  · exact Token.pos_of_behind? (List.cons_ne_nil _ _) hblock
  · exact Token.pos_of_behind? (ne_nil_of_mem_lineMarks (mem_lineMarks hmark)) hline
  · exact Token.pos_of_behind? (List.cons_ne_nil _ _) hstring

/-- **The scan of the rules of a language gives its tokens.** -/
theorem scan_languageRules (id : Option String) (t : Text) (offset : Nat) :
    scan (languageRules (.ofId id)) t offset = (Language.ofId id).tokens offset (t.drop offset) := by
  induction hleft : t.length + 1 - offset using Nat.strong_induction_on generalizing offset with
  | _ left ih =>
    rw [scan]
    split_ifs with hlen
    · have hnext := ih _ (by omega) (offset + 1) rfl
      rw [firstSpan?_languageRules]
      cases hrest : t.drop offset with
      | nil =>
        have hend : ∀ n, (Language.ofId id).tokens n [] = [] := fun n => by rw [Language.tokens]
        rw [← List.drop_drop, hrest] at hnext
        rw [tokenAt?_nil, hend]
        exact hnext.trans (hend _)
      | cons c u =>
        have hbehind : ∀ n, 0 < n → t.drop (offset + n) = u.drop (n - 1) := by
          intro n hn
          obtain ⟨n, rfl⟩ := Nat.exists_eq_succ_of_ne_zero hn.ne'
          rw [← List.drop_drop, hrest]
          rfl
        rw [Language.tokens]
        cases htoken : (Language.ofId id).tokenAt? (c :: u) with
        | none =>
          rw [hbehind 1 Nat.one_pos] at hnext
          exact hnext
        | some token =>
          have hpos := pos_of_tokenAt? htoken
          have hlt : offset < (tokenSpan offset token).stop := Nat.lt_add_of_pos_right hpos
          have hthen := ih _ (by omega) (tokenSpan offset token).stop rfl
          dsimp only [Option.map_some]
          rw [if_pos hlt, hthen]
          exact congrArg (List.cons _) (congrArg _ (hbehind _ hpos))
    · rw [List.drop_eq_nil_of_le (by omega), Language.tokens]

/-! ## Classifiers -/

/-- the rules of a language are simple, and their joined pattern is within the limits -/
theorem simple_languageRules (id : Option String) :
    ∃ ps, List.Forall₂ Rule.Simple (languageRules (.ofId id)) ps ∧
    JoinedHeightFits (readers (languageRules (.ofId id))) ∧
      (ofAlternatives (numbered 0 ps)).fits = true := by
  rcases ofId_cases id with h | ⟨name, h⟩ | ⟨name, mark, hmark, h⟩ | ⟨name, h⟩
  · have hrules : languageRules (.ofId id) = [] := by rw [h]; rfl
    rw [hrules]
    exact ⟨[], .nil, List.forall_mem_nil _, fits_of_price (by rintro (_ | _) <;> cbv)⟩
  · have hrules : languageRules (.ofId id) = [blockRule, lineRule ['/', '/'], stringRule] := by rw [h]; rfl
    rw [hrules]
    refine ⟨[blockComment, lineComment ['/', '/'], quoted], ?_,
      by decide +kernel, fits_of_price (by rintro (_ | _) <;> cbv)⟩
    exact .cons simple_blockRule (.cons (simple_lineRule (by decide)) (.cons simple_stringRule .nil))
  · have hrules : languageRules (.ofId id) = [lineRule mark, stringRule] := by
      rw [h, languageRules, lineComment?_lineOnly hmark]
      rfl
    rw [hrules]
    have hheight : ∀ mark ∈ lineMarks, JoinedHeightFits (readers [lineRule mark, stringRule]) := by decide +kernel
    refine ⟨[lineComment mark, quoted], ?_, hheight mark hmark, fits_lineComment_quoted hmark⟩
    exact .cons (simple_lineRule hmark) (.cons simple_stringRule .nil)
  · have hrules : languageRules (.ofId id) = [stringRule] := by rw [h]; rfl
    rw [hrules]
    exact ⟨[quoted], .cons simple_stringRule .nil, by decide +kernel, fits_of_price (by rintro (_ | _) <;> cbv)⟩

theorem checkRules_of_accepted (h : ∀ rule ∈ rules, rule.Accepted) : checkRules rules = .ok rules := by
  induction rules with
  | nil => rfl
  | cons rule rules ih =>
    obtain ⟨hrule, hrest⟩ := List.forall_mem_cons.1 h
    have hmake : Rule.make rule.pattern rule.kind = .ok rule := hrule
    rw [checkRules, hmake, ih hrest]

/-- **The classifier of a language finds its tokens**, in every text. -/
theorem classifier_finds_tokens (id : Option String) :
    ∃ c, forLanguage (.ofId id) = .ok c ∧ ∀ t, c.classify t = ⟨(Language.ofId id).tokens 0 t⟩ := by
  obtain ⟨ps, hsimple, hheight, hfits⟩ := simple_languageRules id
  obtain ⟨c, hmake, hscan⟩ := make_of_simple hsimple hheight hfits
  have haccepted : ∀ rule ∈ languageRules (.ofId id), rule.Accepted := fun rule hrule =>
    (exists_simple_of_mem hsimple rule hrule).elim fun _ hp => hp.accepted
  refine ⟨c, ?_, fun t => ?_⟩
  · rw [forLanguage, checkRules_of_accepted haccepted]
    exact hmake
  · rw [hscan, scan_languageRules, List.drop_zero]

end Classifier

end CodeEditor
