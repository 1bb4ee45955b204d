import CodeEditor.Proofs.Outline.Inference
import CodeEditor.Proofs.Session.Run
import CodeEditor.Proofs.Session.Typing
/-!
Typing a program in outline.

Enter between two statements, behind a head and behind an opening brace, and Down and End to leave a block, are all that
it takes to lay a program out: what is typed is the text of every line without its indentation, and no closing brace.

Some keys write lines (`Writes`) if they lead from the indentation of the first line to the end of the last one, and
Enter then goes to the depth of the lines again. Simple statements, heads with theirs and blocks around lines that are
written are written, and so are lines before other lines; a program is built from these.
-/

namespace CodeEditor

/-! ## Lines of an outline as code -/

theorem isBreak_of_isAlphabetic {c : Char} (h : isAlphabetic c = true) : isBreak c = false := by
  have hne (d : Char) (hd : isAlphabetic d = false) : c ≠ d := ne_of_class h hd
  have hline : isAlphabetic '\u2028' = false ∧ isAlphabetic '\u2029' = false := by decide +kernel
  simp [isBreak, hne '\n' rfl, hne '\r' rfl, hne '\x0b' rfl, hne '\x0c' rfl, hne '\u0085' rfl, hne _ hline.1,
    hne _ hline.2]

theorem Nesting.isNeutral_of_isAlphabetic {c : Char} (h : isAlphabetic c = true) : isNeutral c = true := by
  have hne (d : Char) (hd : isAlphabetic d = false) : c ≠ d := ne_of_class h hd
  simp [isNeutral, hne ')' rfl, hne ']' rfl, hne '(' rfl, hne '[' rfl]

namespace Word

@[simp] theorem opener_not_mem (w : Word) : '{' ∉ w.text :=
  w.not_mem rfl

@[simp] theorem closer_not_mem (w : Word) : '}' ∉ w.text :=
  w.not_mem rfl

theorem readBack? (w : Word) {n : Nesting} (hn : n.hasOpener = false) : n.readBack? w.text = some n :=
  Nesting.readBack?_neutral hn fun c hc => Nesting.isNeutral_of_isAlphabetic (w.alphabetic c hc)

end Word

/-- a word with plain code behind it -/
theorem Word.isCode (w : Word) {u : Text} (hbreak : u.any isBreak = false) (hquote : '\'' ∉ u)
    (hclosed : Nesting.initial.readBack? u = some .initial) : IsCode (w.text ++ u) where
  starts := by
    obtain ⟨c, t, hcons, hc⟩ := w.exists_cons
    exact ⟨c, t ++ u, by rw [hcons, List.cons_append], isBlank_of_isAlphabetic hc⟩
  isBreak := by
    intro c hc
    rcases List.mem_append.1 hc with hc | hc
    · exact isBreak_of_isAlphabetic (w.alphabetic c hc)
    · exact Bool.eq_false_iff.2 (List.any_eq_false.1 hbreak c hc)
  quote := fun hmem => (List.mem_append.1 hmem).elim (w.not_mem rfl) hquote
  closed := by rw [Nesting.readBack?_append, hclosed, Option.bind_some, w.readBack? rfl]

/-- a condition with its parentheses -/
theorem Word.isCode_condition (head condition : Word) :
    IsCode (head.text ++ ' ' :: '(' :: (condition.text ++ [')'])) := by
  have hcut : ' ' :: '(' :: (condition.text ++ [')']) = [' ', '('] ++ condition.text ++ [')'] := by simp
  refine head.isCode ?_ ?_ ?_
  · have hcondition : condition.text.any isBreak = false :=
      List.any_eq_false.2 fun c hc => Bool.eq_false_iff.1 (isBreak_of_isAlphabetic (condition.alphabetic c hc))
    rw [hcut, List.any_append, List.any_append, hcondition]
    rfl
  · simpa using condition.not_mem (c := '\'') rfl
  · have hinside : (Nesting.initial.readChar ')').readBack? condition.text = some ⟨1, 0, false⟩ :=
      condition.readBack? rfl
    rw [hcut, Nesting.readBack?_concat, if_neg (by decide), Nesting.readBack?_append, hinside]
    rfl

namespace Session

/-! ## Writing lines -/

/-- the cursor rests at the end of a line, from which Enter goes to a depth that is no deeper -/
structure Rests (s : Session) (unit : IndentUnit) (depth : Nat) (before behind : Text) : Prop where
  typing : s.Typing unit before behind
  enter : (s.pressKey .enter .none).Typing unit (before ++ '\n' :: unit.levels depth) behind
  settled : EnterPlan.Settled (before ++ ['\n'])
  line : ∃ a u, before = a ++ u ∧ Text.IsLine a u behind ∧ unit.width * depth + 1 ≤ u.length

/-- From the indentation of the first line, the keys lead to the end of the last one. No head stands above that waits
for its statement, and nothing stands behind but closing braces that are less deep. -/
def Writes (unit : IndentUnit) (depth : Nat) (keys : List Key) (lines : List Line) : Prop :=
  ∀ (s : Session) (a z : Text), s.Typing unit (a ++ unit.levels depth) z → EnterPlan.Settled a →
  EnterPlan.Closers unit depth z →
    ∃ before, (s.pressKeys keys).Rests unit depth before z ∧
      before ++ ['\n'] = a ++ lines.flatMap (fun l => l.text unit ++ ['\n'])

variable {unit : IndentUnit} {depth : Nat} {keys more : List Key} {lines further : List Line}

namespace Rests

variable {s : Session} {a v z : Text} {e : Char}

/-- at the end of a line of code that is no head, if Enter keeps or lowers the indentation there -/
theorem of_line {deep : Nat} (h : s.Typing unit (a ++ (unit.levels deep ++ (v ++ [e]))) z)
    (hline : EnterPlan.IsCodeLine unit deep a (v ++ [e]) z) (he : e = ';' ∨ e = '}') (hdepth : depth ≤ deep)
    (hplan : EnterPlan.make (a ++ (unit.levels deep ++ (v ++ [e]) ++ z)) ⟨.empty, unit, false⟩
      (a.length + (unit.levels deep ++ (v ++ [e])).length) = EnterPlan.newline (unit.levels depth)) :
    s.Rests unit depth (a ++ (unit.levels deep ++ (v ++ [e]))) z where
  typing := h
  enter := by
    have hblank : isBlank e = false := by rcases he with rfl | rfl <;> rfl
    exact h.newline hline hblank hplan
  settled := by
    rw [List.append_assoc]
    exact .of_line hline (he.imp_right Or.inl)
  line := by
    refine ⟨a, _, rfl, hline.isLine, ?_⟩
    have hlen := Nat.mul_le_mul_left unit.width hdepth
    rw [List.length_append, List.length_append, unit.length_levels, List.length_singleton]
    omega

/-- Down and End leave a block from the end of its last line -/
theorem leave {before : Text}
    (h : s.Rests unit (depth + 1) before ('\n' :: (unit.levels depth ++ ['}'] ++ z)))
    (hz : z.startsWithLineFeed = true) :
    (s.pressKeys [.down, .stop]).Rests unit depth (before ++ ['\n'] ++ (unit.levels depth ++ ['}'])) z := by
  obtain ⟨a, u, rfl, hu, hlen⟩ := h.line
  have hcloser : EnterPlan.IsCodeLine unit depth (a ++ u ++ ['\n']) ([] ++ ['}']) z :=
    ⟨EnterPlan.isCode_closer, by rw [Text.endsInLineFeed_concat]; rfl, hz⟩
  -- Down goes to the same column, which lies behind the brace
  have hshort : (unit.levels depth ++ ['}']).length ≤ u.length := by
    rw [List.length_append, unit.length_levels, List.length_singleton]
    rw [Nat.mul_succ] at hlen
    omega
  have hleft := h.typing.leave hu hcloser.isLine hshort rfl
  rw [List.append_cons] at hleft
  exact of_line hleft hcloser (Or.inr rfl) le_rfl (EnterPlan.make_closer hcloser)

end Rests

namespace Writes

/-- lines, Enter, and more lines -/
theorem next (h : Writes unit depth keys lines) (hmore : Writes unit depth more further) :
    Writes unit depth (keys ++ .enter :: more) (lines ++ further) := by
  intro s a z hs ha hz
  obtain ⟨before, hrests, hbefore⟩ := h s a z hs ha hz
  have hcut : before ++ '\n' :: unit.levels depth = before ++ ['\n'] ++ unit.levels depth := by simp
  obtain ⟨before', hrests', hbefore'⟩ := hmore _ _ z (hcut ▸ hrests.enter) hrests.settled hz
  refine ⟨before', ?_, ?_⟩
  · rw [pressKeys_append, pressKeys_cons]
    exact hrests'
  · rw [hbefore', hbefore, List.flatMap_append, List.append_assoc]

variable {v : Text}

theorem simple (word : Word) :
    Writes unit depth ((word.text ++ [';']).map .char) [.simple depth word] := by
  intro s a z hs ha hz
  have hline : EnterPlan.IsCodeLine unit depth a (word.text ++ [';']) z :=
    ⟨word.isCode rfl (by decide) rfl, ha.endsInLineFeed, hz.startsWithLineFeed⟩
  have htyped := hs.line_chars (w := word.text ++ [';']) (by simp) (by simp)
  exact ⟨_, Rests.of_line htyped hline (Or.inl rfl) le_rfl (EnterPlan.make_simple hline ha),
    by simp [Line.simple, Line.text]⟩

/-- code that heads the next line, Enter, and a statement -/
theorem under_head (hcode : IsCode (v ++ [')'])) (hopen : '{' ∉ v) (hclose : '}' ∉ v)
    (hhead : (LineShape.ofLine (unit.levels depth ++ (v ++ [')']))).isHeadless = true) (word : Word) :
    Writes unit depth ((v ++ [')']).map .char ++ .enter :: (word.text ++ [';']).map .char)
      [⟨depth, v ++ [')']⟩, .simple (depth + 1) word] := by
  intro s a z hs ha hz
  have habove {z : Text} (hz : z.startsWithLineFeed = true) : EnterPlan.IsCodeLine unit depth a (v ++ [')']) z :=
    ⟨hcode, ha.endsInLineFeed, hz⟩
  have htyped := hs.line_chars (w := v ++ [')']) (by simp [hopen]) (by simp [hclose])
  have hentered := htyped.newline (habove hz.startsWithLineFeed) rfl
    (EnterPlan.make_head (habove hz.startsWithLineFeed) (by decide) hhead)
  set b := a ++ (unit.levels depth ++ (v ++ [')']) ++ ['\n']) with hb
  have hcut : a ++ (unit.levels depth ++ (v ++ [')'])) ++ '\n' :: unit.levels (depth + 1) =
    b ++ unit.levels (depth + 1) := by
    simp [hb]
  rw [hcut] at hentered
  have hline : EnterPlan.IsCodeLine unit (depth + 1) b (word.text ++ [';']) z :=
    ⟨word.isCode rfl (by decide) rfl, by rw [hb, ← List.append_assoc, Text.endsInLineFeed_concat]; rfl,
      hz.startsWithLineFeed⟩
  have hunder := hentered.line_chars (w := word.text ++ [';']) (by simp) (by simp)
  have hrests := Rests.of_line hunder hline (Or.inl rfl) (Nat.le_succ depth)
    (EnterPlan.make_under_head hline (habove rfl) hhead)
  refine ⟨b ++ (unit.levels (depth + 1) ++ (word.text ++ [';'])), ?_, ?_⟩
  · rw [pressKeys_append, pressKeys_cons]
    exact hrests
  · simp [hb, Line.simple, Line.text]

/-- a head, Enter, and the statement under it -/
theorem headed (head : Head) (condition word : Word) :
    Writes unit depth
      ((head.text ++ ' ' :: '(' :: (condition.text ++ [')'])).map .char ++ .enter :: (word.text ++ [';']).map .char)
      [.head depth head condition, .simple (depth + 1) word] := by
  have hcut : head.text ++ ' ' :: '(' :: (condition.text ++ [')']) =
    (head.text ++ ' ' :: '(' :: condition.text) ++ [')'] := by
    simp
  have hcode := head.word.isCode_condition condition
  have hhead :
    (LineShape.ofLine (unit.levels depth ++ (head.text ++ ' ' :: '(' :: (condition.text ++ [')'])))).isHeadless =
      true :=
    LineShape.isHeadless_head (fun c hc => by rw [IndentUnit.mem_levels hc, unit.blank]) (by cases head <;> decide)
  have hopen : '{' ∉ head.text := head.word.opener_not_mem
  have hclose : '}' ∉ head.text := head.word.closer_not_mem
  rw [Head.word, hcut] at hcode
  rw [hcut] at hhead
  rw [Line.head, hcut]
  exact under_head hcode (by simp [hopen]) (by simp [hclose]) hhead word

/-- an opening brace, Enter, lines one level in, and Down and End -/
theorem block (header : Word) (h : Writes unit (depth + 1) keys lines) :
    Writes unit depth ((header.text ++ [' ', '{']).map .char ++ .enter :: (keys ++ [.down, .stop]))
      (.opener depth header :: (lines ++ [.closer depth])) := by
  intro s a z hs ha hz
  have hheader : EnterPlan.IsCodeLine unit depth a (header.text ++ [' ']) z :=
    ⟨header.isCode rfl (by decide) rfl, ha.endsInLineFeed, hz.startsWithLineFeed⟩
  have hopener : EnterPlan.IsCodeLine unit depth a (header.text ++ [' '] ++ ['{']) z := by
    refine ⟨?_, ha.endsInLineFeed, hz.startsWithLineFeed⟩
    rw [List.append_assoc]
    exact header.isCode rfl (by decide) rfl
  have htyped := hs.line_chars (w := header.text ++ [' ']) (by simp) (by simp)
  have hopened := (htyped.opener hheader).enter (u := '\n' :: unit.levels (depth + 1))
    (w := '\n' :: unit.levels depth ++ ['}'])
    hopener rfl (by
      rw [EnterPlan.make_opener hopener hz]
      simp)
  -- the body is typed between the opening brace and the closing one that Enter has set
  set b := a ++ (unit.levels depth ++ (header.text ++ [' '] ++ ['{']) ++ ['\n']) with hb
  have hcut : a ++ (unit.levels depth ++ (header.text ++ [' '] ++ ['{'])) ++ '\n' :: unit.levels (depth + 1) =
      b ++ unit.levels (depth + 1) := by
    simp [hb]
  rw [hcut] at hopened
  have hsettled : EnterPlan.Settled b := .of_line hopener (Or.inr (Or.inr rfl))
  have hclosers : EnterPlan.Closers unit (depth + 1) ('\n' :: unit.levels depth ++ ['}'] ++ z) :=
    Or.inr ⟨depth, z, Nat.lt_succ_self depth, by simp, hz.startsWithLineFeed⟩
  obtain ⟨before, hrests, hbefore⟩ := h _ b _ hopened hsettled hclosers
  have hleft := Rests.leave hrests hz.startsWithLineFeed
  refine ⟨before ++ ['\n'] ++ (unit.levels depth ++ ['}']), ?_, ?_⟩
  · have hkeys : (header.text ++ [' ', '{']).map Key.char = (header.text ++ [' ']).map Key.char ++ [.char '{'] := by
      simp
    rw [hkeys, pressKeys_append, pressKeys_append, pressKeys_cons, pressKeys_append]
    exact hleft
  · rw [hbefore]
    simp [hb, Line.opener, Line.closer, Line.text]

end Writes

end Session

/-! ## Writing a program -/

namespace Outline

/-- there is a statement in every block -/
def IsFilled : Outline → Prop
  | done => True
  | simple _ rest => rest.IsFilled
  | headed _ _ _ rest => rest.IsFilled
  | block _ body rest => body.isDone = false ∧ body.IsFilled ∧ rest.IsFilled

/-- Enter and the keys of what follows, if anything does -/
def nextKeys (rest : Outline) (keys : List Key) : List Key :=
  if rest.isDone then [] else .enter :: keys

/-- the keys that type a program -/
def keys : Outline → List Key
  | done => []
  | simple word rest => (word.text ++ [';']).map .char ++ rest.nextKeys rest.keys
  | headed head condition word rest =>
    (head.text ++ ' ' :: '(' :: (condition.text ++ [')'])).map .char ++ .enter :: (word.text ++ [';']).map .char ++
      rest.nextKeys rest.keys
  | block header body rest =>
    (header.text ++ [' ', '{']).map .char ++ .enter :: (body.keys ++ [.down, .stop]) ++ rest.nextKeys rest.keys

variable {unit : IndentUnit} {depth : Nat}

/-- lines with what follows them -/
theorem writes_next {first : List Key} {lines : List Line} (h : Session.Writes unit depth first lines) {rest : Outline}
    (hrest : rest.isDone = false → Session.Writes unit depth rest.keys (rest.lines depth)) :
    Session.Writes unit depth (first ++ rest.nextKeys rest.keys) (lines ++ rest.lines depth) := by
  cases hdone : rest.isDone with
  | true =>
    obtain rfl := eq_done hdone
    simpa [nextKeys, isDone, Outline.lines] using h
  | false =>
    rw [nextKeys, hdone]
    exact h.next (hrest hdone)

/-- **The keys of a program write its lines.** -/
theorem writes {p : Outline} (hp : p.IsFilled) (hdone : p.isDone = false)
    (depth : Nat) : Session.Writes unit depth p.keys (p.lines depth) := by
  induction p generalizing depth with
  | done => cases hdone
  | simple word rest ih =>
    exact writes_next (Session.Writes.simple word) fun hrest => ih hp hrest depth
  | headed head condition word rest ih =>
    exact writes_next (Session.Writes.headed head condition word) fun hrest => ih hp hrest depth
  | block header body rest ihbody ihrest =>
    obtain ⟨hbody, hfilled, hrest⟩ := hp
    have hblock := Session.Writes.block header (ihbody hfilled hbody (depth + 1))
    rw [Outline.lines, List.append_cons]
    exact writes_next hblock fun hmore => ihrest hrest hmore depth

/-- the layout with a line feed behind every line -/
theorem layout_concat {p : Outline} (h : p.isDone = false) :
    p.layout unit ++ ['\n'] = (p.lines 0).flatMap (fun l => l.text unit ++ ['\n']) := by
  obtain ⟨l, ls, hlines, -⟩ := lines_of_not_isDone h 0
  rcases List.eq_nil_or_concat (l :: ls) with hnil | ⟨above, last, hlast⟩
  · cases hnil
  · rw [layout, hlines, hlast, List.concat_eq_append, List.map_append, List.map_singleton, BraceScan.intercalate_concat,
      List.flatMap_map, List.flatMap_append]
    simp

/-- **Typing a program lays it out.** In every language with blocks between braces, outside the C family, for every
program with a statement in every block and every indent unit: the keys of the program, typed into an empty text,
leave its layout there. -/
theorem typed_text_is_layout (p : Outline) (unit : IndentUnit) (l : Language) (c : Config) (hl : l.isBracket = true)
    (hrecords : l.closesRecordsWithSemicolon = false) (hp : p.IsFilled) :
    (((Session.ofText [] l c).run [.setUnit unit.ch unit.width]).pressKeys p.keys).text = p.layout unit := by
  set s := (Session.ofText [] l c).run [.setUnit unit.ch unit.width] with hs
  have hopened : s = { Session.ofText [] l c with unit := unit } := by
    have hmake : IndentUnit.make unit.ch unit.width = .ok unit := by simp [IndentUnit.make, unit.blank, unit.pos]
    rw [hs, Session.run, List.foldl_cons, List.foldl_nil, Session.step, hmake]
    rfl
  have htyping : s.Typing unit ([] ++ unit.levels 0) [] := by
    rw [hopened]
    exact ⟨⟨rfl, rfl⟩, rfl, hl, hrecords, rfl, rfl⟩
  cases hdone : p.isDone with
  | true =>
    obtain rfl := eq_done hdone
    exact htyping.text
  | false =>
    obtain ⟨before, hrests, hbefore⟩ := writes hp hdone 0 s [] [] htyping (Or.inl rfl) (Or.inl rfl)
    rw [List.nil_append, ← layout_concat hdone] at hbefore
    rw [hrests.typing.text, List.append_nil, List.append_cancel_right hbefore]

/-- a block with a loop and a block in it, and a statement behind it, with two blanks -/
theorem loop_in_block_is_laid_out :
    let p : Outline := .block (letter 'a' rfl)
      (.headed .repeating (letter 'b' rfl) (letter 'c' rfl)
        (.block (letter 'd' rfl) (.simple (letter 'e' rfl) .done) .done))
      (.simple (letter 'f' rfl) .done)
    let s := (Session.ofText [] (.ofId (some "js")) .default).run [.setUnit ' ' 2]
    let typed (t : String) : List Key := t.toList.map .char
    p.keys = typed "a \x7b" ++ .enter :: typed "while (b)" ++ .enter :: typed "c;" ++ .enter :: typed "d \x7b" ++
        .enter :: typed "e;" ++ [.down, .stop, .down, .stop, .enter] ++ typed "f;" ∧
      (s.pressKeys p.keys).text = "a \x7b\n  while (b)\n    c;\n  d \x7b\n    e;\n  \x7d\n\x7d\nf;".toList := by
  intro p s typed
  have hlayout : p.layout (.spaces 2) = "a \x7b\n  while (b)\n    c;\n  d \x7b\n    e;\n  \x7d\n\x7d\nf;".toList := by
    decide
  refine ⟨rfl, ?_⟩
  rw [← hlayout]
  exact typed_text_is_layout p (.spaces 2) (.ofId (some "js")) .default (by decide) (by decide)
    ⟨rfl, ⟨rfl, trivial, trivial⟩, trivial⟩

end Outline

end CodeEditor
