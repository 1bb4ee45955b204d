import CodeEditor.Pattern.Basic
import CodeEditor.Pattern.Flags
/-!
Escapes of a written pattern: what a backslash and the characters behind it stand for.

An ASCII character that is neither a letter nor a digit nor an angle bracket stands for itself. Of the letters some name
a control character, a class or an anchor, and two stand before the name of a Unicode class (`property?`); the others,
the digits and all non-ASCII characters are errors.
-/

namespace CodeEditor.Pattern

/-- a class named by a letter; the capital letter is its complement -/
inductive Shorthand where
  | word
  | digit
  | space
  deriving DecidableEq, Repr

/-- the set of a shorthand -/
def Shorthand.set (s : Shorthand) (unicode : Bool) : CharSet :=
  match s with
  | word => if unicode then .word else .asciiWord
  | digit => if unicode then .digit else .asciiDigit
  | space => if unicode then .space else .asciiSpace

/-- what an escape stands for -/
inductive Escape where
  /-- a character; `code` if it was written by a code point of two digits -/
  | literal (c : Char) (code : Bool)
  | shorthand (s : Shorthand) (negated : Bool)
  /-- the characters with a name, or all others -/
  | property (name : Text) (negated : Bool)
  | textStart
  | textEnd
  | word (edge : WordEdge)
  deriving DecidableEq, Repr

namespace Escape

/-- a hexadecimal digit -/
def isHex (c : Char) : Bool :=
  c.isDigit || ('a' ≤ c && c ≤ 'f') || ('A' ≤ c && c ≤ 'F')

/-- value of a hexadecimal digit -/
def hexValue (c : Char) : Nat :=
  if c.isDigit then c.toNat - '0'.toNat
  else if 'a' ≤ c then c.toNat - 'a'.toNat + 10
  else c.toNat - 'A'.toNat + 10

/-- the character of a code point in hexadecimal digits, which must be one of a character -/
def ofHex? (digits : Text) : Option Char :=
  let n := digits.foldl (fun n c => n * 16 + hexValue c) 0
  if n.isValidChar then some (Char.ofNat n) else none

/-- read `count` hexadecimal digits; free spacing may stand between them -/
def digits? (f : Flags) : Nat → Text → Option (Text × Text)
  | 0, t => some ([], t)
  | _ + 1, [] => none
  | count + 1, c :: t =>
    if isHex c then (digits? f count (skip f t)).map fun (ds, t) => (c :: ds, t) else none

/-- read hexadecimal digits up to and with a closing brace; free spacing may stand between them -/
def braced? (f : Flags) : Text → Option (Text × Text)
  | [] => none
  | '}' :: t => some ([], skip f t)
  | c :: t => if isHex c then (braced? f (skip f t)).map fun (ds, t) => (c :: ds, t) else none
termination_by t => t.length
decreasing_by exact length_skip_lt f _ t

/-- a character by its code point: digits in braces, or `count` digits -/
def code? (f : Flags) (count : Nat) (t : Text) : Option (Escape × Text) :=
  match skip f t with
  | '{' :: t =>
    match braced? f (skip f t) with
    | none | some ([], _) => none
    | some (digits, t) => (ofHex? digits).map fun c => (.literal c false, t)
  | t =>
    match digits? f count t with
    | none => none
    | some (digits, t) => (ofHex? digits).map fun c => (.literal c (count == 2), t)

/-- read a name up to and with a closing brace; free spacing may stand inside of it -/
def className? (f : Flags) : Text → Option (Text × Text)
  | [] => none
  | '}' :: t => some ([], t)
  | c :: t => (className? f (skip f t)).map fun (name, t) => (c :: name, t)
termination_by t => t.length
decreasing_by exact length_skip_lt f c t

/-- a Unicode class by its name: a name in braces, or a single character -/
def property? (f : Flags) (negated : Bool) (t : Text) : Option (Escape × Text) :=
  match skip f t with
  | [] => none
  | '{' :: t => (className? f (skip f t)).map fun (name, t) => (.property name negated, t)
  | '\\' :: _ => none
  | c :: t => some (.property [c] negated, t)

/-- the kinds of word edges that have a name -/
def edges : List (String × WordEdge) :=
  [("start", .start), ("end", .stop), ("start-half", .startHalf), ("end-half", .stopHalf)]

/-- a letter of such a name -/
def isEdgeLetter (c : Char) : Bool :=
  c.isAlpha || c == '-'

/-- the letters at the start of a text, free spacing left out -/
def edgeName (f : Flags) : Text → Text × Text
  | [] => ([], [])
  | c :: t =>
    if isEdgeLetter c then
      let (name, t) := edgeName f (skip f t)
      (c :: name, t)
    else ([], c :: t)
termination_by t => t.length
decreasing_by exact length_skip_lt f c t

/-- a word boundary, or the kind of edge named in braces behind it; braces around anything else
belong to a repetition -/
def wordEdge? (f : Flags) : Text → Option (Escape × Text)
  | '{' :: t =>
    match skip f t with
    | [] => none
    | c :: rest =>
      if isEdgeLetter c then
        match edgeName f (c :: rest) with
        | (name, '}' :: rest) => (edges.lookup (String.ofList name)).map fun edge => (.word edge, rest)
        | _ => none
      else some (.word .boundary, '{' :: t)
  | t => some (.word .boundary, t)

/-- read the escape whose backslash has just been read -/
def read? (f : Flags) : Text → Option (Escape × Text)
  | [] => none
  | c :: t =>
    match c with
    | 'x' => code? f 2 t
    | 'u' => code? f 4 t
    | 'U' => code? f 8 t
    | 'p' => property? f false t
    | 'P' => property? f true t
    | 'w' => some (.shorthand .word false, t)
    | 'W' => some (.shorthand .word true, t)
    | 'd' => some (.shorthand .digit false, t)
    | 'D' => some (.shorthand .digit true, t)
    | 's' => some (.shorthand .space false, t)
    | 'S' => some (.shorthand .space true, t)
    | 'a' => some (.literal '\x07' false, t)
    | 'f' => some (.literal '\x0c' false, t)
    | 't' => some (.literal '\t' false, t)
    | 'n' => some (.literal '\n' false, t)
    | 'r' => some (.literal '\r' false, t)
    | 'v' => some (.literal '\x0b' false, t)
    | 'A' => some (.textStart, t)
    | 'z' => some (.textEnd, t)
    | 'b' => wordEdge? f t
    | 'B' => some (.word .interior, t)
    | '<' => some (.word .start, t)
    | '>' => some (.word .stop, t)
    | c => if isAscii c && !CharSet.asciiAlnum.contains c then some (.literal c false, t) else none

/-- a text in which every character stands for itself -/
def quote (t : Text) : Text :=
  t.flatMap fun c =>
    if ['\\', '.', '+', '*', '?', '(', ')', '|', '[', ']', '{', '}', '^', '$', '#', '&', '-', '~'].contains c then
      ['\\', c]
    else [c]

end Escape

end CodeEditor.Pattern
