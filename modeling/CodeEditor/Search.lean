import CodeEditor.Error
import CodeEditor.Pattern.Replacement
/-!
Search and replace.

A query is a search text with two options: whether case matters, and whether the text is a pattern. A plain text is
searched as the pattern in which every character stands for itself. The line anchors of a pattern hold at every line.

Only matches that are not empty count as found. Looking for one forward or backward goes around the ends of the text.
-/

namespace CodeEditor

/-- how to search -/
structure SearchOptions where
  caseSensitive : Bool
  /-- the search text is a pattern -/
  isPattern : Bool
  deriving DecidableEq, Repr

/-- case matters, and the text is plain -/
def SearchOptions.default : SearchOptions :=
  ⟨true, false⟩

/-- a search ready to run -/
structure Query where
  text : Text
  options : SearchOptions
  regex : Regex
  deriving DecidableEq, Repr

/-- a stretch of the text that a search found -/
structure Occurrence where
  start : Nat
  stop : Nat
  deriving DecidableEq, Repr

namespace Occurrence

/-- number of characters -/
def length (o : Occurrence) : Nat :=
  o.stop - o.start

/-- no characters -/
def isEmpty (o : Occurrence) : Bool :=
  o.stop ≤ o.start

end Occurrence

namespace Query

/-- the pattern that is compiled for a search text -/
def patternText (t : Text) (options : SearchOptions) : Text :=
  if options.isPattern then t else Pattern.Escape.quote t

/-- the flags a search text is compiled with -/
def flags (options : SearchOptions) : Pattern.Flags :=
  { Pattern.Flags.default with anyCase := !options.caseSensitive, multiLine := true }

/-- the search for a text -/
def make (t : Text) (options : SearchOptions) : Except Error Query :=
  if t.isEmpty then .error .emptySearch
  else match Regex.compile? (flags options) (patternText t options) with
    | none => .error (.invalidSearchPattern (patternText t options))
    | some regex => .ok ⟨t, options, regex⟩

/-- every match that is not empty, in order -/
def findAll (q : Query) (t : Text) : List Occurrence :=
  ((q.regex.allMatches t).filter (!·.isEmpty)).map fun m => ⟨m.start, m.stop⟩

/-- the first match that starts at `offset` or later, or else the first one of all -/
def findForward? (q : Query) (t : Text) (offset : Nat) : Option Occurrence :=
  let found := q.findAll t
  found.find? (offset ≤ ·.start) <|> found.head?

/-- the last match that ends at `offset` or earlier, or else the last one of all -/
def findBackward? (q : Query) (t : Text) (offset : Nat) : Option Occurrence :=
  let found := q.findAll t
  found.reverse.find? (·.stop ≤ offset) <|> found.getLast?

/-- what replaces an occurrence: a plain search takes the replacement as it is, a pattern fills in the groups of the
match found from the start of the occurrence on -/
def expandReplacement (q : Query) (t : Text) (found : Occurrence) (replacement : Text) : Text :=
  if !q.options.isPattern then replacement
  else match q.regex.find? t (min found.start t.length) with
    | none => []
    | some m => q.regex.expand t m replacement

/-- the text from `start` on with each of the matches replaced -/
def spliceFrom (t : Text) (replace : Match → Text) (start : Nat) : List Match → Text
  | [] => t.drop start
  | m :: rest => t.slice start m.start ++ replace m ++ spliceFrom t replace m.stop rest

/-- the text with every match replaced, empty ones too, and how many were found; without any the text stays -/
def replaceAll (q : Query) (t replacement : Text) : Text × Nat :=
  let count := (q.findAll t).length
  if count = 0 then (t, 0)
  else
    let replace (m : Match) := if q.options.isPattern then q.regex.expand t m replacement else replacement
    (spliceFrom t replace 0 (q.regex.allMatches t), count)

end Query

end CodeEditor
