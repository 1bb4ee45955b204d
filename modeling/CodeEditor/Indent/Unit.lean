import CodeEditor.Error
/-!
The indent unit: what one level of nesting adds to a line, some number of copies of the space or of the tab.
-/

namespace CodeEditor

/-- `width` copies of `ch`, which is a blank, and at least one of it -/
structure IndentUnit where
  ch : Char
  width : Nat
  blank : isBlank ch = true
  pos : 0 < width
  deriving DecidableEq, Repr

namespace IndentUnit

/-- a unit of one or more blanks of one kind -/
def make (ch : Char) (width : Nat) : Except Error IndentUnit :=
  if h : isBlank ch = true ∧ 0 < width then .ok ⟨ch, width, h.1, h.2⟩ else .error (.invalidIndentUnit ch width)

/-- `width` spaces, but at least one -/
def spaces (width : Nat) : IndentUnit :=
  ⟨' ', max width 1, rfl, Nat.le_max_right width 1⟩

/-- one tab -/
def tab : IndentUnit :=
  ⟨'\t', 1, rfl, Nat.one_pos⟩

/-- two spaces -/
def default : IndentUnit :=
  spaces 2

/-- the whitespace of `levels` levels -/
def levels (unit : IndentUnit) (levels : Nat) : Text :=
  List.replicate (unit.width * levels) unit.ch

/-- the whitespace of one level -/
def text (unit : IndentUnit) : Text :=
  unit.levels 1

@[simp] theorem length_levels (unit : IndentUnit) (n : Nat) : (unit.levels n).length = unit.width * n :=
  List.length_replicate

@[simp] theorem length_text (unit : IndentUnit) : unit.text.length = unit.width := by
  rw [text, length_levels, Nat.mul_one]

theorem mem_levels {unit : IndentUnit} {n : Nat} {c : Char} (h : c ∈ unit.levels n) : c = unit.ch :=
  List.eq_of_mem_replicate h

theorem allBlank_levels (unit : IndentUnit) (n : Nat) : (unit.levels n).allBlank = true :=
  List.all_eq_true.2 fun _ hc => mem_levels hc ▸ unit.blank

theorem allBlank_text (unit : IndentUnit) : unit.text.allBlank = true :=
  unit.allBlank_levels 1

/-- the text holds no other character than the unit's -/
def makesUp (unit : IndentUnit) (t : Text) : Bool :=
  t.all (· == unit.ch)

/-- the display form, as in `4 x <space>` -/
def display (unit : IndentUnit) : Text :=
  Text.ofNat unit.width ++ (if unit.ch = '\t' then " x <tab>" else " x <space>").toList

end IndentUnit

end CodeEditor
