import CodeEditor.Proofs.Indent.LineShape
import CodeEditor.Proofs.Text.Rows
/-!
The grammar of line shapes.

The shape of a line is found by cutting the line up and looking at the pieces. Here it is told by what the line is put
together of: a line that opens a block ends in a brace and spaces (`EndsIn`), one that opens a statement is made of
blanks, a head, spaces, a parenthesis and a rest that is not finished (`OpensStatement`), and a bare `else` of blanks,
the word and spaces (`IsElse`). The first of these that fits is the shape (`shapes_follow_grammar`).

Blanks put in front of a line and spaces put behind it end up in the first and in the last of its pieces, because the
pieces between them begin and end with other characters (`cut_front`, `cut_behind`). So they never change its shape.
-/

namespace CodeEditor.LineShape

/-- nothing but spaces -/
def IsSpaces (u : Text) : Prop :=
  ∀ c ∈ u, c = ' '

instance (u : Text) : Decidable (IsSpaces u) :=
  List.decidableBAll (· = ' ') u

/-- behind the character `e` there are only spaces -/
def EndsIn (u : Text) (e : Char) : Prop :=
  ∃ before spaces, u = before ++ e :: spaces ∧ IsSpaces spaces

/-- without its trailing spaces the text is not empty, and ends neither in a semicolon nor in a closing brace -/
def EndsUnfinished (u : Text) : Prop :=
  ∃ e, EndsIn u e ∧ e ≠ ' ' ∧ e ≠ ';' ∧ e ≠ '}'

/-- leading blanks, a head, any spaces, an opening parenthesis, and a rest that is not finished -/
def OpensStatement (line : Text) : Prop :=
  ∃ blanks head spaces rest, line = blanks ++ (head ++ (spaces ++ '(' :: rest)) ∧ blanks.allBlank = true ∧
    head ∈ ["if".toList, "for".toList, "while".toList, "else if".toList] ∧ IsSpaces spaces ∧ EndsUnfinished rest

/-- leading blanks, `else`, trailing spaces -/
def IsElse (line : Text) : Prop :=
  ∃ blanks spaces, line = blanks ++ ("else".toList ++ spaces) ∧ blanks.allBlank = true ∧ IsSpaces spaces

/-! ## Cutting at a character -/

section

variable {blanks spaces u x y : Text} {c : Char}

theorem IsSpaces.append (hu : IsSpaces u) (hspaces : IsSpaces spaces) : IsSpaces (u ++ spaces) := by
  intro c hc
  rcases List.mem_append.1 hc with hc | hc
  · exact hu c hc
  · exact hspaces c hc

theorem IsSpaces.of_append_left (h : IsSpaces (u ++ spaces)) : IsSpaces u :=
  fun c hc => h c (List.mem_append_left _ hc)

/-- a character that is no space stands before the spaces put behind a text -/
theorem cut_behind (hspaces : IsSpaces spaces) (hc : c ≠ ' ') (h : u ++ spaces = x ++ c :: y) :
    ∃ y', u = x ++ c :: y' ∧ y = y' ++ spaces := by
  have hmem : c ∉ spaces := fun hmem => hc (hspaces c hmem)
  rcases List.append_eq_append_iff.1 h with ⟨a, -, ha⟩ | ⟨a, ha, hy⟩
  · exact absurd (by rw [ha]; simp) hmem
  · cases a with
    | nil => exact absurd (by rw [← List.nil_append spaces, ← hy]; simp) hmem
    | cons d y' =>
      obtain ⟨rfl, rfl⟩ := List.cons.inj hy
      exact ⟨y', ha, rfl⟩

/-- a character that is no blank stands behind the blanks put in front of a text -/
theorem cut_front (hblanks : blanks.allBlank = true) (hc : isBlank c = false) (h : blanks ++ u = x ++ c :: y) :
    ∃ x', u = x' ++ c :: y ∧ x = blanks ++ x' := by
  have hmem : c ∉ blanks := fun hmem => by
    rw [List.all_eq_true.1 hblanks c hmem] at hc
    cases hc
  rcases List.append_eq_append_iff.1 h with ⟨x', hx, hu⟩ | ⟨a, ha, hy⟩
  · exact ⟨x', hu, hx⟩
  · cases a with
    | nil => exact ⟨[], hy.symm, by rw [ha, List.append_nil, List.append_nil]⟩
    | cons d a =>
      obtain ⟨rfl, -⟩ := List.cons.inj hy
      exact absurd (by rw [ha]; simp) hmem

/-! ## Blanks in front and spaces behind -/

theorem endsIn_append_spaces (hspaces : IsSpaces spaces) (hc : c ≠ ' ') : EndsIn (u ++ spaces) c ↔ EndsIn u c := by
  constructor
  · rintro ⟨before, behind, hcut, hbehind⟩
    obtain ⟨behind', hu, rfl⟩ := cut_behind hspaces hc hcut
    exact ⟨before, behind', hu, hbehind.of_append_left⟩
  · rintro ⟨before, behind, rfl, hbehind⟩
    exact ⟨before, behind ++ spaces, by simp, hbehind.append hspaces⟩

theorem endsIn_blanks_append (hblanks : blanks.allBlank = true) (hc : isBlank c = false) :
    EndsIn (blanks ++ u) c ↔ EndsIn u c := by
  constructor
  · rintro ⟨before, behind, hcut, hbehind⟩
    obtain ⟨before', hu, -⟩ := cut_front hblanks hc hcut
    exact ⟨before', behind, hu, hbehind⟩
  · rintro ⟨before, behind, rfl, hbehind⟩
    exact ⟨blanks ++ before, behind, by simp, hbehind⟩

theorem EndsUnfinished.append (h : EndsUnfinished u) (hspaces : IsSpaces spaces) : EndsUnfinished (u ++ spaces) := by
  obtain ⟨e, hends, he, hunfinished⟩ := h
  exact ⟨e, (endsIn_append_spaces hspaces he).2 hends, he, hunfinished⟩

theorem opensStatement_append_spaces (hspaces : IsSpaces spaces) : OpensStatement (u ++ spaces) ↔ OpensStatement u := by
  constructor
  · rintro ⟨b, head, sp, rest, hcut, hb, hhead, hsp, e, ⟨body, behind, rfl, hbehind⟩, he, hunfinished⟩
    have hlast : u ++ spaces = b ++ (head ++ (sp ++ '(' :: body)) ++ e :: behind := by rw [hcut]; simp
    obtain ⟨behind', rfl, rfl⟩ := cut_behind hspaces he hlast
    exact ⟨b, head, sp, body ++ e :: behind',
      by simp, hb, hhead, hsp, e, ⟨body, behind', rfl, hbehind.of_append_left⟩, he, hunfinished⟩
  · rintro ⟨b, head, sp, rest, rfl, hb, hhead, hsp, hrest⟩
    exact ⟨b, head, sp, rest ++ spaces, by simp, hb, hhead, hsp, hrest.append hspaces⟩

/-- the order in which the heads are tried does not matter -/
theorem mem_heads {head : Text} :
    head ∈ heads ↔ head ∈ ["if".toList, "for".toList, "while".toList, "else if".toList] := by
  simp only [heads, List.mem_cons, List.not_mem_nil, or_false]
  tauto

theorem opensStatement_blanks_append (hblanks : blanks.allBlank = true) :
    OpensStatement (blanks ++ u) ↔ OpensStatement u := by
  constructor
  · rintro ⟨b, head, sp, rest, hcut, hb, hhead, hrest⟩
    obtain ⟨c, w, rfl, hc⟩ := exists_letter (mem_heads.2 hhead)
    obtain ⟨b', hu, rfl⟩ := cut_front hblanks hc hcut
    exact ⟨b', c :: w, sp, rest, hu, Text.allBlank_of_subset (List.subset_append_right _ _) hb, hhead, hrest⟩
  · rintro ⟨b, head, sp, rest, rfl, hb, hrest⟩
    exact ⟨blanks ++ b, head, sp, rest, by simp, Text.allBlank_append hblanks hb, hrest⟩

theorem isElse_append_spaces (hspaces : IsSpaces spaces) : IsElse (u ++ spaces) ↔ IsElse u := by
  constructor
  · rintro ⟨b, sp, hcut, hb, hsp⟩
    have hlast : u ++ spaces = b ++ "els".toList ++ 'e' :: sp := by rw [hcut]; simp
    obtain ⟨sp', rfl, rfl⟩ := cut_behind hspaces (by decide) hlast
    exact ⟨b, sp', by simp, hb, hsp.of_append_left⟩
  · rintro ⟨b, sp, rfl, hb, hsp⟩
    exact ⟨b, sp ++ spaces, by simp, hb, hsp.append hspaces⟩

theorem isElse_blanks_append (hblanks : blanks.allBlank = true) : IsElse (blanks ++ u) ↔ IsElse u := by
  constructor
  · rintro ⟨b, sp, hcut, hb, hsp⟩
    obtain ⟨b', hu, rfl⟩ := cut_front hblanks (show isBlank 'e' = false from rfl) hcut
    exact ⟨b', sp, hu, Text.allBlank_of_subset (List.subset_append_right _ _) hb, hsp⟩
  · rintro ⟨b, sp, rfl, hb, hsp⟩
    exact ⟨blanks ++ b, sp, by simp, Text.allBlank_append hblanks hb, hsp⟩

/-! ## What the tests look for -/

theorem dropEndWhile_append_spaces (hspaces : IsSpaces spaces) (u : Text) :
    Text.dropEndWhile (· == ' ') (u ++ spaces) = Text.dropEndWhile (· == ' ') u := by
  have hall : ∀ c ∈ spaces.reverse, (c == ' ') = true := fun c hc => beq_iff_eq.2 (hspaces c (List.mem_reverse.1 hc))
  rw [Text.dropEndWhile, Text.dropEndWhile, List.reverse_append, List.dropWhile_append_of_pos hall]

/-- a text is what is left of it without its trailing spaces, and these -/
theorem exists_trailing_spaces (u : Text) :
    ∃ spaces, IsSpaces spaces ∧ Text.dropEndWhile (· == ' ') u ++ spaces = u := by
  refine ⟨u.rtakeWhile (· == ' '), fun c hc => ?_, List.rdropWhile_append_rtakeWhile⟩
  have hspace := List.mem_rtakeWhile_imp hc
  exact beq_iff_eq.1 hspace

/-- the last character that is no space -/
theorem getLast?_dropEndWhile_iff {e : Char} :
    (Text.dropEndWhile (· == ' ') u).getLast? = some e ↔ e ≠ ' ' ∧ EndsIn u e := by
  constructor
  · intro hlast
    obtain ⟨before, hbefore⟩ := List.getLast?_eq_some_iff.1 hlast
    have he : e ≠ ' ' := by
      have hne : List.rdropWhile (· == ' ') u ≠ [] := by
        change Text.dropEndWhile (· == ' ') u ≠ []
        simp [hbefore]
      have hnot := List.rdropWhile_last_not (· == ' ') u hne
      have hget : (List.rdropWhile (· == ' ') u).getLast hne = e :=
        Option.some.inj ((List.getLast?_eq_getLast_of_ne_nil hne).symm.trans hlast)
      rw [hget] at hnot
      simpa using hnot
    obtain ⟨spaces, hspaces, hu⟩ := exists_trailing_spaces u
    exact ⟨he, before, spaces, by rw [← hu, hbefore]; simp, hspaces⟩
  · rintro ⟨he, before, spaces, rfl, hspaces⟩
    have hcut : before ++ e :: spaces = (before ++ [e]) ++ spaces := by simp
    rw [hcut, dropEndWhile_append_spaces hspaces, dropEndWhile_concat _ _ (by simpa using he), List.getLast?_concat]

theorem isOpening_iff {line : Text} : isOpening line = true ↔ EndsIn line '{' := by
  rw [isOpening, beq_iff_eq, getLast?_dropEndWhile_iff]
  simp

theorem isUnfinished_iff : isUnfinished (Text.dropEndWhile (· == ' ') u) = true ↔ EndsUnfinished u := by
  rw [isUnfinished, EndsUnfinished]
  cases hlast : (Text.dropEndWhile (· == ' ') u).getLast? with
  | none =>
    refine iff_of_false Bool.false_ne_true ?_
    rintro ⟨e, hends, he, -⟩
    rw [getLast?_dropEndWhile_iff.2 ⟨he, hends⟩] at hlast
    cases hlast
  | some e =>
    obtain ⟨he, hends⟩ := getLast?_dropEndWhile_iff.1 hlast
    simp only [Bool.and_eq_true, bne_iff_ne]
    refine ⟨fun hunfinished => ⟨e, hends, he, hunfinished⟩, ?_⟩
    rintro ⟨d, hends', hd, hunfinished⟩
    rw [getLast?_dropEndWhile_iff.2 ⟨hd, hends'⟩] at hlast
    obtain rfl := Option.some.inj hlast
    exact hunfinished

/-- a head is read off the front, then spaces and a parenthesis -/
theorem arguments?_eq_some_iff {head content arguments : Text} :
    arguments? head content = some arguments ↔
      ∃ spaces rest, content = head ++ (spaces ++ '(' :: rest) ∧ IsSpaces spaces ∧
      Text.dropEndWhile (· == ' ') rest = arguments := by
  constructor
  · intro h
    rw [arguments?, Text.after?] at h
    split_ifs at h with hhead
    · simp only at h
      split at h
      · rename_i rest hrest
        obtain ⟨behind, rfl⟩ := List.isPrefixOf_iff_prefix.1 hhead
        rw [List.drop_left] at hrest
        refine ⟨behind.takeWhile (· == ' '), rest, ?_, fun c hc => ?_, Option.some.inj h⟩
        · rw [← hrest, List.takeWhile_append_dropWhile]
        · have hspace := List.mem_takeWhile_imp hc
          exact beq_iff_eq.1 hspace
      · cases h
  · rintro ⟨spaces, rest, rfl, hspaces, rfl⟩
    have hall : ∀ c ∈ spaces, (c == ' ') = true := fun c hc => beq_iff_eq.2 (hspaces c hc)
    rw [arguments?, Text.after?, if_pos (List.isPrefixOf_iff_prefix.2 (List.prefix_append _ _)), List.drop_left]
    simp [List.dropWhile_append_of_pos hall]

/-- behind its blanks, a line is the text that begins with its first other character -/
theorem content_eq_iff {line content w : Text} (hc : isBlank c = false) (hcontent : content = c :: w) :
    line.content = content ↔ ∃ blanks, line = blanks ++ content ∧ blanks.allBlank = true := by
  constructor
  · rintro rfl
    exact ⟨line.indentation, line.indentation_append_content.symm, line.allBlank_indentation⟩
  · rintro ⟨blanks, rfl, hblanks⟩
    rw [Text.content_append hblanks, hcontent, Text.content, List.dropWhile_cons_of_neg (by simp [hc])]

/-- a line whose arguments, behind a head, are not finished -/
theorem isUnfinished_arguments?_iff {head content : Text} :
    ((arguments? head content).map isUnfinished).getD false = true ↔
    ∃ spaces rest, content = head ++ (spaces ++ '(' :: rest) ∧ IsSpaces spaces ∧ EndsUnfinished rest := by
  constructor
  · intro h
    cases harguments : arguments? head content with
    | none =>
      rw [harguments] at h
      cases h
    | some arguments =>
      rw [harguments] at h
      obtain ⟨spaces, rest, hcontent, hspaces, rfl⟩ := arguments?_eq_some_iff.1 harguments
      exact ⟨spaces, rest, hcontent, hspaces, isUnfinished_iff.1 h⟩
  · rintro ⟨spaces, rest, hcontent, hspaces, hrest⟩
    rw [arguments?_eq_some_iff.2 ⟨spaces, rest, hcontent, hspaces, rfl⟩]
    exact isUnfinished_iff.2 hrest

theorem isHeadlessIf_iff {line : Text} : isHeadlessIf line = true ↔ OpensStatement line := by
  rw [isHeadlessIf, List.any_eq_true]
  constructor
  · rintro ⟨head, hhead, h⟩
    obtain ⟨spaces, rest, hcontent, hspaces, hrest⟩ := isUnfinished_arguments?_iff.1 h
    obtain ⟨c, w, rfl, hc⟩ := exists_letter hhead
    obtain ⟨blanks, hline, hblanks⟩ := (content_eq_iff hc rfl).1 hcontent
    exact ⟨blanks, _, spaces, rest, hline, hblanks, mem_heads.1 hhead, hspaces, hrest⟩
  · rintro ⟨blanks, head, spaces, rest, hline, hblanks, hhead, hspaces, hrest⟩
    have hmem := mem_heads.2 hhead
    obtain ⟨c, w, rfl, hc⟩ := exists_letter hmem
    have hcontent := (content_eq_iff hc rfl).2 ⟨blanks, hline, hblanks⟩
    exact ⟨_, hmem, isUnfinished_arguments?_iff.2 ⟨spaces, rest, hcontent, hspaces, hrest⟩⟩

theorem isHeadlessElse_iff {line : Text} : isHeadlessElse line = true ↔ IsElse line := by
  rw [isHeadlessElse, beq_iff_eq]
  constructor
  · intro h
    obtain ⟨spaces, hspaces, hcontent⟩ := exists_trailing_spaces line.content
    rw [h] at hcontent
    exact ⟨line.indentation, spaces,
      by rw [hcontent, Text.indentation_append_content], line.allBlank_indentation, hspaces⟩
  · rintro ⟨blanks, spaces, hline, hblanks, hspaces⟩
    have hcontent := (content_eq_iff (show isBlank 'e' = false from rfl) rfl).2 ⟨blanks, hline, hblanks⟩
    rw [hcontent]
    exact (dropEndWhile_append_spaces hspaces "else".toList).trans rfl

end

/-! ## The grammar -/

/-- **Shapes follow the grammar.** A line opens a block exactly if its last character that is no space is an opening
brace. Otherwise it is the head of a statement exactly if it is leading blanks, one of the heads, spaces, a parenthesis
and a rest that is not finished; otherwise a bare `else` exactly if it is leading blanks, the word and trailing spaces;
and any other line otherwise. Blanks in front and spaces behind change nothing. -/
theorem shapes_follow_grammar (line : Text) {blanks spaces : Text} (hblanks : blanks.allBlank = true)
    (hspaces : IsSpaces spaces) :
    (ofLine line = .opensBlock ↔ EndsIn line '{') ∧
      (ofLine line = .headlessIf ↔ ¬ EndsIn line '{' ∧ OpensStatement line) ∧
      (ofLine line = .headlessElse ↔ ¬ EndsIn line '{' ∧ ¬ OpensStatement line ∧ IsElse line) ∧
      (ofLine line = .other ↔ ¬ EndsIn line '{' ∧ ¬ OpensStatement line ∧ ¬ IsElse line) ∧
      ofLine (blanks ++ (line ++ spaces)) = ofLine line := by
  have hopening : isOpening (blanks ++ (line ++ spaces)) = isOpening line := by
    rw [Bool.eq_iff_iff, isOpening_iff, isOpening_iff, endsIn_blanks_append hblanks rfl,
      endsIn_append_spaces hspaces (by decide)]
  have hif : isHeadlessIf (blanks ++ (line ++ spaces)) = isHeadlessIf line := by
    rw [Bool.eq_iff_iff, isHeadlessIf_iff, isHeadlessIf_iff, opensStatement_blanks_append hblanks,
      opensStatement_append_spaces hspaces]
  have helse : isHeadlessElse (blanks ++ (line ++ spaces)) = isHeadlessElse line := by
    rw [Bool.eq_iff_iff, isHeadlessElse_iff, isHeadlessElse_iff, isElse_blanks_append hblanks,
      isElse_append_spaces hspaces]
  have hsame : ofLine (blanks ++ (line ++ spaces)) = ofLine line := by rw [ofLine, ofLine, hopening, hif, helse]
  rw [← isOpening_iff, ← isHeadlessIf_iff, ← isHeadlessElse_iff, hsame, ofLine]
  cases isOpening line <;> cases isHeadlessIf line <;> cases isHeadlessElse line <;> simp

/-- a loop without a brace, behind a space and a tab and before two spaces -/
theorem shape_of_loop_between_blanks :
    let line : Text := "else if  (a < b".toList
    (Text.allBlank " \t".toList = true ∧ IsSpaces "  ".toList) ∧ ofLine line = .headlessIf ∧ ¬ EndsIn line '{' ∧
    OpensStatement line ∧
      ofLine " \telse if  (a < b  ".toList = .headlessIf := by
  intro line
  have hblanks : Text.allBlank " \t".toList = true := by decide
  have hspaces : IsSpaces "  ".toList := by decide
  have hshape : ofLine line = .headlessIf := by decide
  obtain ⟨-, hhead, -, -, hsame⟩ := shapes_follow_grammar line hblanks hspaces
  exact ⟨⟨hblanks, hspaces⟩, hshape, (hhead.1 hshape).1, (hhead.1 hshape).2, hsame.trans hshape⟩

end CodeEditor.LineShape
