import CodeEditor.Proofs.Keys.EnterSpans
import CodeEditor.Proofs.Text.Ink
import CodeEditor.Proofs.Session.Keys
import CodeEditor.Proofs.Session.Run
/-!
Enter and the spans it plans with.

Comments and strings are found once, before the key is handled. Then the blanks around the cursor go, and the plan
for the text that is left is made with the spans of the text before (`enter_plans_with_spans_before_trim`). Where
nothing was there to take away, these are the spans of the text, and where the two tables cover the same offsets the
plan is the same. Any number of blanks is enough to make it another one: they shift what lies behind them, and a
classifier may read them.
-/

namespace CodeEditor

namespace Session

variable {s : Session} {classify : Text → Spans}

/-- Enter is handled as in code: blocks stand between braces, nothing is selected, the cursor is not at a line start,
and the character before it lies in no comment and no string -/
structure EntersCode (s : Session) (classify : Text → Spans) : Prop where
  classifier : s.classifier = some classify
  isBracket : s.language.isBracket = true
  noSelection : s.buffer.hasSelection = false
  inLine : s.text.startsLine s.buffer.cursor = false
  inCode : (classify s.text).covers (s.buffer.cursor - 1) = false

/-- Enter is planned: blocks stand between braces, nothing is selected, the cursor is not at a line start, and the
character before it lies in nothing that the spans at hand cover -/
structure PlansEnter (s : Session) : Prop where
  isBracket : s.language.isBracket = true
  noSelection : s.buffer.hasSelection = false
  inLine : s.text.startsLine s.buffer.cursor = false
  inCode : s.sync.inLiteral = false

/-- the buffer without the blanks around the cursor -/
def trimmed (s : Session) : Buffer :=
  s.buffer.trimAroundCursor

/-- what Enter plans for the trimmed text with some spans -/
def enterPlan (s : Session) (spans : Spans) : EnterPlan :=
  EnterPlan.make s.trimmed.text ⟨spans, s.unit, s.language.closesRecordsWithSemicolon⟩ s.trimmed.cursor

/-- so many blanks go, before the cursor and behind it -/
def Trims (s : Session) (before behind : Nat) : Prop :=
  before ≤ s.buffer.cursor ∧ blanksAround s.text s.buffer.cursor = (s.buffer.cursor - before, s.buffer.cursor + behind)

/-- a removal does the same to text and marks, whatever the history -/
theorem erase_congr {b c : Buffer} (htext : c.text = b.text) (hmarks : c.marks = b.marks) (x y : Nat) :
    (c.erase x y).text = (b.erase x y).text ∧ (c.erase x y).marks = (b.erase x y).marks := by
  have hclamp : ∀ i, c.clamp i = b.clamp i := fun i => by rw [Buffer.clamp, Buffer.length, htext]; rfl
  simp only [Buffer.erase, hclamp, htext]
  by_cases heq : b.clamp (min x y) = b.clamp (max x y)
  · simp only [if_pos heq]
    exact ⟨htext, hmarks⟩
  · simp only [if_neg heq, Buffer.edit_text, Buffer.edit_marks, htext, hmarks, and_self]

theorem trimAroundCursor_openGroup (b : Buffer) :
    b.openGroup.trimAroundCursor.text = b.trimAroundCursor.text ∧
      b.openGroup.trimAroundCursor.cursor = b.trimAroundCursor.cursor := by
  rw [Buffer.trimAroundCursor_eq, Buffer.trimAroundCursor_eq]
  obtain ⟨htext, hmarks⟩ := erase_congr (b := b) (c := b.openGroup) rfl rfl
    (blanksAround b.text b.cursor).1 (blanksAround b.text b.cursor).2
  exact ⟨htext, congrArg Marks.insert hmarks⟩

/-- **Enter carries out the plan** for the trimmed text. -/
theorem handleKey_enter_of_plans (h : s.PlansEnter) (mods : Modifiers) :
    (s.handleKey .enter mods).1 = .handled ∧ (s.handleKey .enter mods).2.buffer =
      Buffer.grouped (fun b => (EnterPlan.make s.trimmed.text s.sync.enterContext s.trimmed.cursor).apply
        b.trimAroundCursor)
        s.buffer := by
  have hstart : s.sync.text.startsLine s.sync.buffer.cursor = false := by
    rw [text, sync_buffer]; exact h.inLine
  have hcode : (s.sync.inLiteral || !s.sync.language.isBracket) = false := by
    rw [h.inCode, sync_language, h.isBracket]
    rfl
  rw [handleKey_enter s mods h.noSelection]
  simp only [hstart, hcode, Bool.false_eq_true, if_false]
  refine ⟨trivial, ?_⟩
  obtain ⟨htext, hcursor⟩ := trimAroundCursor_openGroup s.buffer
  rw [grouped, mapBuffer, sync_buffer]
  simp only [Buffer.grouped, Buffer.bracketEnter, htext, hcursor]
  rfl

theorem EntersCode.plansEnter (h : s.EntersCode classify) (hs : s.Reachable) : s.PlansEnter := by
  refine ⟨h.isBracket, h.noSelection, h.inLine, ?_⟩
  rw [inLiteral, hs.sound.sync_spans h.classifier, sync_buffer, h.inCode, Bool.and_false]

theorem handleKey_enter_in_code (hs : s.Reachable) (h : s.EntersCode classify) (mods : Modifiers) :
    (s.handleKey .enter mods).1 = .handled ∧ (s.handleKey .enter mods).2.buffer =
      Buffer.grouped (fun b => (s.enterPlan (classify s.text)).apply b.trimAroundCursor) s.buffer := by
  have hcontext : s.sync.enterContext = ⟨classify s.text, s.unit, s.language.closesRecordsWithSemicolon⟩ := by
    rw [enterContext, hs.sound.sync_spans h.classifier, sync_unit, sync_language]
  rw [enterPlan, ← hcontext]
  exact handleKey_enter_of_plans (h.plansEnter hs) mods

/-- nothing trimmed, nothing changed -/
theorem trimmed_of_trims_none (h : s.Trims 0 0) : s.trimmed = s.buffer := by
  have hnone : blanksAround s.buffer.text s.buffer.cursor = (s.buffer.cursor, s.buffer.cursor) := h.2
  rw [trimmed, Buffer.trimAroundCursor_eq, hnone]
  simp [Buffer.erase]

/-! ## Blanks that matter -/

/-- an open parenthesis, a letter and `n` blanks -/
def openText (n : Nat) : Text :=
  '(' :: 'a' :: List.replicate n ' '

/-- the parenthesis of one text is a comment, and no other text has any -/
def onlyIn (t u : Text) : Spans :=
  if u = t then ⟨[⟨0, 1, .comment⟩]⟩ else .empty

/-- a session with that text and that classifier, the cursor behind the first blanks -/
def opened (before behind : Nat) : Session :=
  (ofText [] (.ofId (some "cpp")) { Config.default with inferUnit := false }).run
    [.attach (onlyIn (openText (before + behind))), .buffer (.insert 0 (openText (before + behind))),
      .buffer (.placeCursor (before + 2))]

theorem opened_state (before behind : Nat) :
    (opened before behind).text = openText (before + behind) ∧
    (opened before behind).buffer.marks = .both (before + 2) := by
  have htext : ((Buffer.ofText []).insert 0 (openText (before + behind))).text = openText (before + behind) := by
    simp [Buffer.insert, Buffer.ofText, Edit.apply, openText]
  have hopened : (opened before behind).buffer =
      ((Buffer.ofText []).insert 0 (openText (before + behind))).placeCursor (before + 2) := rfl
  have hlen : (openText (before + behind)).length = before + behind + 2 := by simp [openText]
  refine ⟨?_, ?_⟩
  · rw [text, hopened]; exact htext
  · rw [hopened, Buffer.placeCursor, Buffer.clamp, Buffer.length, htext, hlen, min_eq_left (by omega)]

theorem breakEnds_openText (n : Nat) : (openText n).breakEnds = [] := by
  have := Text.breakEndsFrom_blanks 2 n []
  rw [List.append_nil] at this
  rw [Text.breakEnds, openText, Text.breakEndsFrom_cons _ _ _ (by simp), Text.breakEndsFrom_cons _ _ _ (by simp), this]
  rfl

theorem opened_trims (before behind : Nat) : (opened before behind).Trims before behind := by
  obtain ⟨htext, hmarks⟩ := opened_state before behind
  have hcursor : (opened before behind).buffer.cursor = before + 2 := by rw [Buffer.cursor, hmarks]; rfl
  have hblank : ∀ n, ∀ c ∈ List.replicate n ' ', isBlank c = true := fun n =>
    List.all_eq_true.1 (Text.allBlank_replicate rfl n)
  have hbreaks := breakEnds_openText (before + behind)
  have hstart : (openText (before + behind)).lineStart 0 = 0 := Text.lineStart_zero _
  have hend : (openText (before + behind)).lineEnd 0 = before + behind + 2 := by
    have := (openText (before + behind)).lineEnd_last
    rw [hbreaks] at this
    rw [← List.length_nil, this]
    simp [openText]
  have hleft : (openText (before + behind)).slice 0 (before + 2) = '(' :: 'a' :: List.replicate before ' ' := by
    simp [openText, Text.slice]
  have hright : (openText (before + behind)).slice (before + 2) (before + behind + 2) = List.replicate behind ' ' := by
    simp [openText, Text.slice]
  have hline : (openText (before + behind)).lineOf (before + 2) = 0 := by rw [Text.lineOf, hbreaks]; rfl
  refine ⟨by omega, ?_⟩
  rw [htext, hcursor]
  simp only [blanksAround, hline, hstart, hend, hleft, hright, List.takeWhile_eq_self_iff.2 (hblank _)]
  simp [List.takeWhile_append_of_pos (hblank before), isBlank]

theorem opened_entersCode (before behind : Nat) :
    (opened before behind).EntersCode (onlyIn (openText (before + behind))) := by
  obtain ⟨htext, hmarks⟩ := opened_state before behind
  have hcursor : (opened before behind).buffer.cursor = before + 2 := by rw [Buffer.cursor, hmarks]; rfl
  refine ⟨rfl, rfl, ?_, ?_, ?_⟩
  · rw [Buffer.hasSelection, hmarks]; simp [Marks.both]
  · -- a letter or a blank, and no LF, stands before the cursor
    rw [htext, hcursor, Text.startsLine, openText]
    cases before with
    | zero => rfl
    | succ m => simp [Text.charAt]
  · rw [htext, hcursor, onlyIn, if_pos rfl]
    simp [Spans.covers, Spans.kindAt]

theorem opened_trimmed (before behind : Nat) :
    (opened before behind).trimmed.text = ['(', 'a'] ∧ (opened before behind).trimmed.cursor = 2 := by
  obtain ⟨htext, hmarks⟩ := opened_state before behind
  have hcursor : (opened before behind).buffer.cursor = before + 2 := by rw [Buffer.cursor, hmarks]; rfl
  have htext' : (opened before behind).buffer.text = openText (before + behind) := htext
  have haround := (opened_trims before behind).2
  rw [htext, hcursor] at haround
  have hlen : (openText (before + behind)).length = before + behind + 2 := by simp [openText]
  rw [trimmed, Buffer.trimAroundCursor_eq, htext', hcursor, haround]
  constructor
  · rw [Buffer.erase_text _ (by omega), htext', List.drop_eq_nil_of_le (by omega)]
    simp [openText]
  · rw [Buffer.erase_cursor _ (by omega) (by omega) (by rw [htext']; omega)]
    omega

/-- **Blanks change the plan**, however many they are: the parenthesis that stays open without them
was a comment with them -/
theorem opened_plans_differ {before behind : Nat} (h : 0 < before + behind) :
    (opened before behind).enterPlan (onlyIn (openText (before + behind)) (opened before behind).text) ≠
      (opened before behind).enterPlan (onlyIn (openText (before + behind)) (opened before behind).trimmed.text) := by
  obtain ⟨htext, hcursor⟩ := opened_trimmed before behind
  have hne : ['(', 'a'] ≠ openText (before + behind) := by
    intro heq
    have := congrArg List.length heq
    simp [openText] at this
    omega
  have hunit : (opened before behind).unit = .default := rfl
  have hlanguage : (opened before behind).language.closesRecordsWithSemicolon = true := rfl
  rw [enterPlan, enterPlan, htext, hcursor, hunit, hlanguage, (opened_state before behind).1, onlyIn, onlyIn,
    if_pos rfl, if_neg hne]
  decide

/-! ## The spans of a plan -/

/-- line comments: from two slashes to the end of the line -/
def lineComment (t : Text) : Spans :=
  match (List.range t.length).find? fun i => t.charAt i == '/' && t.charAt (i + 1) == '/' with
  | some start => ⟨[⟨start, t.lineEnd (t.lineOf start), .comment⟩]⟩
  | none => .empty

/-- a comment two blanks behind the cursor: Enter takes its brace for code, and closes the block
once more than it should -/
theorem enter_reads_brace_in_comment :
    let s :=
      (ofText "void f() \x7b  // \x7d\n\x7d".toList (.ofId (some "cpp")) { Config.default with inferUnit := false }).run
      [.attach lineComment, .buffer (.placeCursor 10)]
    s.Reachable ∧ s.EntersCode lineComment ∧
      (s.pressKey .enter .none).text = "void f() \x7b\n  \n\x7d// \x7d\n\x7d".toList ∧
      ((s.enterPlan (lineComment s.trimmed.text)).apply s.trimmed).text = "void f() \x7b\n  // \x7d\n\x7d".toList :=
  ⟨⟨_, _, _, _, rfl⟩, ⟨rfl, rfl, rfl, rfl, rfl⟩, by decide, by decide⟩

/-- **The spans Enter plans with** are those of the text before the blanks around the cursor went. Where both
tables cover the same offsets of the trimmed text, the plan is the one that the spans of that text give. For this
to hold of every text and every classifier, nothing may be trimmed: it fails for any other number of blanks before
and behind the cursor. -/
theorem enter_plans_with_spans_before_trim (s : Session) (classify : Text → Spans) (hs : s.Reachable)
    (h : s.EntersCode classify) (mods : Modifiers) :
    (s.handleKey .enter mods).1 = .handled ∧
    (s.handleKey .enter mods).2.buffer =
      Buffer.grouped (fun b => (s.enterPlan (classify s.text)).apply b.trimAroundCursor) s.buffer ∧
    ((classify s.text).AgreeOn s.trimmed.text.length (classify s.trimmed.text) →
      s.enterPlan (classify s.text) = s.enterPlan (classify s.trimmed.text)) ∧
    ∀ before behind,
      (∀ (s : Session) (classify : Text → Spans), s.Reachable → s.EntersCode classify → s.Trims before behind →
        s.enterPlan (classify s.text) = s.enterPlan (classify s.trimmed.text)) ↔ before = 0 ∧ behind = 0 := by
  obtain ⟨hhandled, hbuffer⟩ := handleKey_enter_in_code hs h mods
  refine ⟨hhandled, hbuffer, fun hagree => ?_, fun before behind => ⟨fun hall => ?_, ?_⟩⟩
  · have hwithin : s.trimmed.Within := (Buffer.reaches_trimAroundCursor s.buffer).within hs.sound.buffer.within
    exact EnterPlan.make_congr hagree _ _ hwithin.1
  · by_contra hne
    have hpos : 0 < before + behind := by omega
    exact opened_plans_differ hpos
      (hall _ _ ⟨_, _, _, _, rfl⟩ (opened_entersCode before behind) (opened_trims before behind))
  · rintro ⟨rfl, rfl⟩ s classify - - htrims
    rw [trimmed_of_trims_none htrims]
    rfl

/-- a call and a blank, the cursor behind both -/
def behindCall : Session :=
  (ofText "f(); ".toList (.ofId (some "cpp")) { Config.default with inferUnit := false }).run
    [.attach lineComment, .buffer (.placeCursor 5)]

/-- the blank goes, and without a comment the tables agree -/
theorem enter_plans_behind_call :
    (behindCall.Reachable ∧ behindCall.EntersCode lineComment ∧
      (lineComment behindCall.text).AgreeOn behindCall.trimmed.text.length (lineComment behindCall.trimmed.text)) ∧
      behindCall.enterPlan (lineComment behindCall.text) =
        behindCall.enterPlan (lineComment behindCall.trimmed.text) := by
  have hs : behindCall.Reachable := ⟨_, _, _, _, rfl⟩
  have hcode : behindCall.EntersCode lineComment := ⟨rfl, rfl, rfl, rfl, rfl⟩
  have hbefore : lineComment behindCall.text = .empty := by decide
  have hbehind : lineComment behindCall.trimmed.text = .empty := by decide
  have hagree : (lineComment behindCall.text).AgreeOn behindCall.trimmed.text.length
    (lineComment behindCall.trimmed.text) := by
    rw [hbefore, hbehind]
    exact fun _ _ => rfl
  exact ⟨⟨hs, hcode, hagree⟩, (enter_plans_with_spans_before_trim behindCall lineComment hs hcode .none).2.2.1 hagree⟩

end Session

end CodeEditor
