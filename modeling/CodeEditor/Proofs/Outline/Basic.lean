import CodeEditor.Indent.Unit
import CodeEditor.Text.CharClass
/-!
Programs in outline.

An outline is a list of statements, each on lines of its own: a simple one, a head with the one statement under it, or a
block around an outline. Its layout puts every line at its depth, in units of indentation.
-/

namespace CodeEditor

/-- one or more letters of any script -/
structure Word where
  text : Text
  ne_nil : text ≠ []
  alphabetic : ∀ c ∈ text, isAlphabetic c = true

theorem isBlank_of_isAlphabetic {c : Char} (h : isAlphabetic c = true) : isBlank c = false := by
  have hne (d : Char) (hd : isAlphabetic d = false) : c ≠ d := ne_of_class h hd
  simp [isBlank, hne ' ' rfl, hne '\t' rfl]

namespace Word

theorem not_mem (w : Word) {c : Char} (h : isAlphabetic c = false) : c ∉ w.text := fun hc =>
  ne_of_class (w.alphabetic c hc) h rfl

theorem exists_cons (w : Word) : ∃ c t, w.text = c :: t ∧ isAlphabetic c = true := by
  obtain ⟨c, t, h⟩ := List.exists_cons_of_ne_nil w.ne_nil
  exact ⟨c, t, h, w.alphabetic c (h ▸ List.mem_cons_self)⟩

end Word

/-- the words that head a statement without a brace -/
inductive Head where
  | conditional
  | counting
  | repeating
  deriving DecidableEq, Repr

/-- how a head is written -/
def Head.text : Head → Text
  | .conditional => "if".toList
  | .counting => "for".toList
  | .repeating => "while".toList

theorem Head.alphabetic (h : Head) : ∀ c ∈ h.text, isAlphabetic c = true :=
  List.all_eq_true.1 (by cases h <;> rfl)

theorem Head.ne_nil (h : Head) : h.text ≠ [] := by
  cases h <;> exact List.cons_ne_nil _ _

/-- a head as a word -/
def Head.word (head : Head) : Word :=
  ⟨head.text, head.ne_nil, head.alphabetic⟩

/-- statements, one after the other -/
inductive Outline where
  | done
  | simple (word : Word) (rest : Outline)
  /-- a condition or a loop over one simple statement -/
  | headed (head : Head) (condition word : Word) (rest : Outline)
  | block (header : Word) (body rest : Outline)

/-- a line: its depth, and what stands behind the indentation -/
structure Line where
  depth : Nat
  content : Text
  deriving DecidableEq, Repr

namespace Line

/-- a line at its depth -/
def text (unit : IndentUnit) (l : Line) : Text :=
  unit.levels l.depth ++ l.content

/-- `word;` -/
def simple (depth : Nat) (word : Word) : Line :=
  ⟨depth, word.text ++ [';']⟩

/-- `if (condition)` -/
def head (depth : Nat) (head : Head) (condition : Word) : Line :=
  ⟨depth, head.text ++ ' ' :: '(' :: (condition.text ++ [')'])⟩

/-- `header {` -/
def opener (depth : Nat) (header : Word) : Line :=
  ⟨depth, header.text ++ [' ', '{']⟩

/-- `}` -/
def closer (depth : Nat) : Line :=
  ⟨depth, ['}']⟩

end Line

namespace Outline

/-- a letter as a word -/
def letter (c : Char) (h : isAlphabetic c = true) : Word :=
  ⟨[c], List.cons_ne_nil _ _, fun _ hd => List.mem_singleton.1 hd ▸ h⟩

/-- no statement -/
def isDone : Outline → Bool
  | done => true
  | _ => false

/-- the lines of an outline at some depth -/
def lines (depth : Nat) : Outline → List Line
  | done => []
  | simple word rest => .simple depth word :: rest.lines depth
  | headed head condition word rest =>
    .head depth head condition :: .simple (depth + 1) word :: rest.lines depth
  | block header body rest =>
    .opener depth header :: (body.lines (depth + 1) ++ .closer depth :: rest.lines depth)

/-- the text of an outline -/
def layout (unit : IndentUnit) (p : Outline) : Text :=
  ['\n'].intercalate ((p.lines 0).map (Line.text unit))

/-- number of blocks with a statement in them -/
def filledBlocks : Outline → Nat
  | done => 0
  | simple _ rest => rest.filledBlocks
  | headed _ _ _ rest => rest.filledBlocks
  | block _ body rest => (if body.isDone then 0 else 1) + body.filledBlocks + rest.filledBlocks

/-- the first line stands at the depth of the outline -/
theorem lines_of_not_isDone {p : Outline} (h : p.isDone = false) (depth : Nat) :
    ∃ l ls, p.lines depth = l :: ls ∧ l.depth = depth := by
  cases p with
  | done => cases h
  | simple word rest => exact ⟨_, _, rfl, rfl⟩
  | headed head condition word rest => exact ⟨_, _, rfl, rfl⟩
  | block header body rest => exact ⟨_, _, rfl, rfl⟩

theorem eq_done {p : Outline} (h : p.isDone = true) : p = done := by
  cases p with
  | done => rfl
  | _ => cases h

end Outline

end CodeEditor
