import CodeEditor.Indent.Unit
import CodeEditor.Language
import CodeEditor.Scan
/-!
The indent unit that a text already uses.

One pass over the text counts leading spaces and tabs, and lists by how much the number of leading blanks changes from
one counted line to the next. The more frequent blank and the most frequent change make the unit (`Tally.style`).

Which lines count depends on the language. Where blocks stand between braces (`inferFromBraces`), only a line behind
one that ended in `{` counts, a `}` at the start of a line takes the last change back, labels and lines that start
with `#` do not count, and comments and quoted stretches are left out. Elsewhere (`inferPlain`) every line outside
quotes and parentheses counts.
-/

namespace CodeEditor

/-- what inference found: `ch` is missing without leading blanks, `width` is 0 without changes -/
structure IndentStyle where
  ch : Option Char
  width : Nat
  deriving DecidableEq, Repr

/-- the unit of a style, if it is one -/
def IndentStyle.unit? (s : IndentStyle) : Option IndentUnit :=
  match s.ch with
  | none => none
  | some ch => (IndentUnit.make ch s.width).toOption

/-- counted blanks and the changes of indentation, newest first -/
structure Tally where
  spaces : Nat
  tabs : Nat
  changes : List Nat
  deriving DecidableEq, Repr

namespace Tally

/-- nothing counted -/
def empty : Tally :=
  ⟨0, 0, []⟩

/-- count a leading blank -/
def countBlank (h : Tally) (c : Char) : Tally :=
  if c = '\t' then { h with tabs := h.tabs + 1 } else { h with spaces := h.spaces + 1 }

/-- note a change of indentation; staying the same is none -/
def note (h : Tally) (before now : Int) : Tally :=
  if before = now then h else { h with changes := (before - now).natAbs :: h.changes }

/-- more often among the changes, or as often and smaller -/
def better (changes : List Nat) (x y : Nat) : Bool :=
  changes.count y < changes.count x || (changes.count x == changes.count y && x < y)

/-- the most frequent of the changes, the smallest among equals, and 0 for none -/
def mostFrequent (changes : List Nat) : Nat :=
  match changes with
  | [] => 0
  | first :: rest => rest.foldl (fun best x => if better changes x best then x else best) first

/-- the style that was counted: spaces win a tie with tabs -/
def style (h : Tally) : IndentStyle :=
  { ch := if h.tabs > h.spaces then some '\t' else if h.spaces > 0 then some ' ' else none,
    width := mostFrequent h.changes }

end Tally

/-- which quotes are open -/
structure OpenQuotes where
  single : Bool
  double : Bool
  deriving DecidableEq, Repr

namespace OpenQuotes

/-- none -/
def none : OpenQuotes :=
  ⟨false, false⟩

/-- some quote is open -/
def any (q : OpenQuotes) : Bool :=
  q.single || q.double

/-- read the character at `offset`: a quote that is not escaped switches its kind unless the other kind is open; the
flag says whether it did -/
def read (t : Text) (q : OpenQuotes) (offset : Nat) : Bool × OpenQuotes :=
  let c := t.charAt offset
  if c = '\'' && !q.double && quoteToggles t offset then (true, { q with single := !q.single })
  else if c = '"' && !q.single && quoteToggles t offset then (true, { q with double := !q.double })
  else (false, q)

end OpenQuotes

/-! ## Languages with braces -/

/-- the line from `offset` on is a label (its last character other than a blank is a colon, before any parenthesis) or
starts with a number sign -/
def isLabelOrDirective (t : Text) (offset : Nat) : Bool :=
  let line := (t.drop offset).takeWhile (· != '\n')
  let head := line.takeWhile (· != '(')
  line.head? == some '#' || (head.length == line.length && (head.filter (!isBlank ·)).getLast? == some ':')

/-- state of the pass over a text with braces -/
structure BraceScan where
  tally : Tally
  quotes : OpenQuotes
  /-- leading blanks of the current line so far, while there was nothing else on it -/
  leading : Option Nat
  /-- indentation of the last counted line, less what closing braces took back -/
  baseline : Int
  lastChange : Option Nat
  lineComment : Bool
  blockComment : Bool
  afterOpener : Bool
  /-- last character of code -/
  lastCode : Option Char
  deriving DecidableEq, Repr

namespace BraceScan

/-- before the first character -/
def initial : BraceScan :=
  ⟨.empty, .none, none, 0, none, false, false, false, none⟩

/-- a line starts: whether it counts depends on the last character of code before it -/
def enterLine (s : BraceScan) : BraceScan :=
  { s with lineComment := false, quotes := .none, leading := some 0, afterOpener := s.lastCode == some '{' }

/-- the first character other than a blank on a counted line ends its indentation -/
def countLine (s : BraceScan) (leading : Nat) : BraceScan :=
  { s with
    tally := s.tally.note s.baseline leading
    lastChange := some (s.baseline - leading).natAbs
    baseline := leading
    lastCode := none }

/-- read quotes and comment marks at `offset`; the offset moves past the end mark of a block comment -/
def readMarks (t : Text) (s : BraceScan) (offset : Nat) : BraceScan × Nat :=
  let (switched, quotes) := s.quotes.read t offset
  let s := { s with quotes }
  if switched || quotes.any then (s, offset)
  else
    let c := t.charAt offset
    let next := t.charAt (offset + 1)
    if c = '/' && next = '/' then ({ s with lineComment := true }, offset)
    else if c = '/' && next = '*' then ({ s with blockComment := true }, offset)
    else if c = '*' && next = '/' then ({ s with blockComment := false }, min (offset + 2) t.length)
    else (s, offset)

/-- read the character at `offset` as code -/
def readCode (t : Text) (s : BraceScan) (offset : Nat) : BraceScan :=
  let c := t.charAt offset
  let inCode := !s.quotes.any && !s.blockComment && !s.lineComment
  let lastCode := if inCode && !isBlank c && !t.endsLine offset then some c else s.lastCode
  let baseline :=
    match s.lastChange with
    | some change => if inCode && c = '}' && s.leading.isSome then s.baseline - change else s.baseline
    | none => s.baseline
  { s with lastCode, baseline, leading := if isBlank c then s.leading else none }

/-- read the rest of the text from `offset` on -/
def run (t : Text) (s : BraceScan) (offset : Nat) : BraceScan :=
  if _h : t.length ≤ offset then s
  else
    let s := if t.startsLine offset then s.enterLine else s
    let finish (s : BraceScan) : BraceScan :=
      let (s, here) := s.readMarks t offset
      run t (s.readCode t here) (max (here + 1) (offset + 1))
    match s.afterOpener, s.leading with
    | true, some leading =>
      if isBlank (t.charAt offset) then
        finish { s with tally := s.tally.countBlank (t.charAt offset), leading := some (leading + 1) }
      else if isLabelOrDirective t offset then
        let nextLine := t.lineOf offset + 1
        if nextLine < t.lineCount then run t { s with leading := some 0 } (max (t.lineStart nextLine) (offset + 1))
        else finish { s with leading := some 0 }
      else if t.endsLine offset then finish s
      else finish (s.countLine leading)
    | _, _ => finish s
termination_by t.length - offset
decreasing_by all_goals omega

end BraceScan

/-- the style of a text with braces -/
def inferFromBraces (t : Text) : IndentStyle :=
  (BraceScan.initial.run t 0).tally.style

/-! ## Other languages -/

/-- state of the pass over a text without braces -/
structure PlainScan where
  tally : Tally
  quotes : OpenQuotes
  leading : Option Nat
  baseline : Int
  parens : Int
  deriving DecidableEq, Repr

namespace PlainScan

/-- before the first character -/
def initial : PlainScan :=
  ⟨.empty, .none, none, 0, 0⟩

/-- read the character at `offset` as indentation, or as the end of it -/
def readIndent (t : Text) (s : PlainScan) (offset : Nat) : PlainScan :=
  let c := t.charAt offset
  let s := if t.startsLine offset then { s with leading := some 0 } else s
  match s.leading with
  | none => s
  | some leading =>
    if s.parens != 0 || s.quotes.any then s
    else if isBlank c then { s with tally := s.tally.countBlank c, leading := some (leading + 1) }
    else if t.endsLine offset then s
    else { s with tally := s.tally.note s.baseline leading, baseline := leading }

/-- read the character at `offset` -/
def read (t : Text) (s : PlainScan) (offset : Nat) : PlainScan :=
  let s := s.readIndent t offset
  let c := t.charAt offset
  let (switched, quotes) := s.quotes.read t offset
  let parens :=
    if switched || quotes.any then s.parens
    else if c = '(' then s.parens + 1
    else if c = ')' then s.parens - 1
    else s.parens
  { s with quotes, parens, leading := if isBlank c then s.leading else none }

end PlainScan

/-- the style of a text without braces -/
def inferPlain (t : Text) : IndentStyle :=
  ((List.range t.length).foldl (PlainScan.read t) PlainScan.initial).tally.style

/-- the style of a text in a language -/
def inferStyle (t : Text) (l : Language) : IndentStyle :=
  if l.infersFromBraces then inferFromBraces t else inferPlain t

end CodeEditor
