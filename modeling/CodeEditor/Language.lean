import CodeEditor.Text.Basic
/-!
What the editor knows about a language: whether blocks stand between braces, and how comments are written.

A language is found by its id; a name not in the tables, or no name, gives a language without blocks and
comments. `Language.guess?` finds an id from the name of a file: first among a few whole names, then by the
extension, whose case does not matter.
-/

namespace CodeEditor

/-- marks that start and end comments -/
structure CommentMarks where
  line : Option Text
  blockStart : Option Text
  blockEnd : Option Text
  deriving DecidableEq, Repr

namespace CommentMarks

/-- no comments -/
def none : CommentMarks :=
  ⟨.none, .none, .none⟩

/-- line comments only -/
def lineOnly (mark : Text) : CommentMarks :=
  ⟨some mark, .none, .none⟩

/-- line comments and block comments -/
def lineAndBlock (mark start stop : Text) : CommentMarks :=
  ⟨some mark, some start, some stop⟩

/-- a mark that is there and not empty -/
def isUsable (mark : Option Text) : Bool :=
  mark.any fun m => !m.isEmpty

/-- line comments can be written -/
def hasLine (c : CommentMarks) : Bool :=
  isUsable c.line

/-- block comments can be written -/
def hasBlock (c : CommentMarks) : Bool :=
  isUsable c.blockStart && isUsable c.blockEnd

end CommentMarks

/-- how blocks are written -/
inductive LanguageClass where
  /-- between braces -/
  | bracket
  /-- in some other way -/
  | other
  deriving DecidableEq, Repr

/-- a language -/
structure Language where
  id : Option String
  kind : LanguageClass
  comment : CommentMarks
  deriving DecidableEq, Repr

namespace Language

/-- languages with blocks between braces -/
def bracketIds : List String :=
  ["chdr", "cpphdr", "c", "cpp", "objc", "java", "js", "ts", "proto", "c-sharp", "html", "cuda", "php", "rust", "swift",
   "go", "scala", "opencl"]

/-- languages whose comments start with a number sign -/
def numberSignIds : List String :=
  ["cmake", "makefile", "python", "python3", "sh", "perl", "ruby", "r", "asm", "automake"]

/-- languages whose comments start with a percent sign -/
def percentIds : List String :=
  ["latex", "matlab", "octave", "bibtex"]

/-- C and C++, whose record bodies end in a brace and a semicolon -/
def recordIds : List String :=
  ["chdr", "cpphdr", "c", "cpp"]

/-- bracket languages in which indentation does not follow braces -/
def markupIds : List String :=
  ["html"]

/-- the mark of a line comment in a language without braces -/
def lineMark? (id : String) : Option Text :=
  if numberSignIds.contains id then some ['#']
  else if percentIds.contains id then some ['%']
  else if id == "fortran" then some ['!']
  else if id == "pascal" then some ['/', '/']
  else if id == "lua" then some ['-', '-']
  else none

/-- text without a language -/
def plain : Language :=
  ⟨none, .other, .none⟩

/-- the language of an id -/
def ofId : Option String → Language
  | none => plain
  | some id =>
    if bracketIds.contains id then
      ⟨some id, .bracket, .lineAndBlock ['/', '/'] ['/', '*'] ['*', '/']⟩
    else
      ⟨some id, .other, ((lineMark? id).map CommentMarks.lineOnly).getD .none⟩

/-- blocks stand between braces -/
def isBracket (l : Language) : Bool :=
  l.kind == .bracket

/-- the mark of a line comment -/
def lineComment? (l : Language) : Option Text :=
  if l.comment.hasLine then l.comment.line else none

/-- a record body ends in a brace and a semicolon -/
def closesRecordsWithSemicolon (l : Language) : Bool :=
  l.id.any recordIds.contains

/-- indentation follows braces -/
def infersFromBraces (l : Language) : Bool :=
  l.isBracket && !l.id.any markupIds.contains

/-! ## File names -/

/-- the last part of a path: empty parts and single dots do not count, and two dots are no name -/
def fileName? (path : Text) : Option Text :=
  match ((path.splitOn '/').filter fun part => part != [] && part != ['.']).getLast? with
  | none => none
  | some name => if name == ['.', '.'] then none else some name

/-- what follows the last dot of a name; a dot at the start of the name does not count -/
def extension? (name : Text) : Option Text :=
  let tail := name.reverse.takeWhile (· != '.')
  if tail.length + 1 < name.length then some tail.reverse else none

/-- ids of whole file names -/
def idsByName : List (String × String) :=
  [("CMakeLists.txt", "cmake"), ("Makefile", "makefile"), ("makefile", "makefile"), ("GNUmakefile", "makefile"),
   ("Makefile.am", "automake")]

/-- ids of extensions, in lower case -/
def idsByExtension : List (String × String) :=
  [("h", "chdr"), ("hpp", "cpphdr"), ("hh", "cpphdr"), ("hxx", "cpphdr"), ("c", "c"), ("cc", "cpp"), ("cpp", "cpp"),
   ("cxx", "cpp"), ("c++", "cpp"), ("m", "objc"), ("java", "java"), ("js", "js"), ("mjs", "js"), ("cjs", "js"),
   ("ts", "ts"), ("proto", "proto"), ("cs", "c-sharp"), ("html", "html"), ("htm", "html"), ("cu", "cuda"),
   ("cuh", "cuda"), ("php", "php"), ("rs", "rust"), ("swift", "swift"), ("go", "go"), ("scala", "scala"),
   ("cl", "opencl"), ("cmake", "cmake"), ("py", "python"), ("sh", "sh"), ("bash", "sh"), ("pl", "perl"), ("pm", "perl"),
   ("rb", "ruby"), ("r", "r"), ("s", "asm"), ("asm", "asm"), ("tex", "latex"), ("bib", "bibtex"), ("f", "fortran"),
   ("f90", "fortran"), ("f95", "fortran"), ("for", "fortran"), ("pas", "pascal"), ("pp", "pascal"), ("lua", "lua")]

/-- the language id of a file -/
def guess? (path : Text) : Option String :=
  match fileName? path with
  | none => none
  | some name =>
    match idsByName.lookup (String.ofList name) with
    | some id => some id
    | none =>
      match extension? name with
      | none => none
      | some ext => idsByExtension.lookup (String.ofList (ext.map Char.toLower))

end Language

end CodeEditor
