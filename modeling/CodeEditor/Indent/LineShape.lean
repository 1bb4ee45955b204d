import CodeEditor.Text.Basic
/-!
The shape of a line, as far as indentation depends on it.

A line opens a block if it ends in an opening brace. A line without one can still be the head of a statement whose body
is the next line: a conditional or loop with its parenthesis, or a bare `else`. Only trailing spaces are ignored, tabs
are not; leading spaces and tabs both are.
-/

namespace CodeEditor

/-- shape of one line -/
inductive LineShape where
  /-- ends in an opening brace -/
  | opensBlock
  /-- head of a conditional or a loop without a brace -/
  | headlessIf
  /-- a bare `else` -/
  | headlessElse
  /-- any other line -/
  | other
  deriving DecidableEq, Repr

namespace LineShape

/-- the words that open a conditional or a loop -/
def heads : List Text :=
  ["else if".toList, "if".toList, "for".toList, "while".toList]

/-- the last character that is not a space is an opening brace -/
def isOpening (line : Text) : Bool :=
  (line.dropEndWhile (· == ' ')).getLast? == some '{'

/-- what stands between the parenthesis of a head and the end of the line, trailing spaces left out -/
def arguments? (head content : Text) : Option Text :=
  match Text.after? head content with
  | none => none
  | some rest =>
    match rest.dropWhile (· == ' ') with
    | '(' :: arguments => some (Text.dropEndWhile (· == ' ') arguments)
    | _ => none

/-- the arguments of a head that is still without its body -/
def isUnfinished (arguments : Text) : Bool :=
  match arguments.getLast? with
  | none => false
  | some c => c != ';' && c != '}'

/-- one of the heads, then an opening parenthesis and a rest that is not finished -/
def isHeadlessIf (line : Text) : Bool :=
  heads.any fun head => ((arguments? head line.content).map isUnfinished).getD false

/-- nothing but `else` between leading blanks and trailing spaces -/
def isHeadlessElse (line : Text) : Bool :=
  Text.dropEndWhile (· == ' ') line.content == "else".toList

/-- shape of a line (without its break) -/
def ofLine (line : Text) : LineShape :=
  if isOpening line then .opensBlock
  else if isHeadlessIf line then .headlessIf
  else if isHeadlessElse line then .headlessElse
  else .other

/-- the next line is the body -/
def isHeadless : LineShape → Bool
  | .headlessIf | .headlessElse => true
  | _ => false

end LineShape

end CodeEditor
