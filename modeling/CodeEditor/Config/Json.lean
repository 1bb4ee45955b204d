import CodeEditor.Text.Basic
/-!
Reading JSON documents.

The grammar is the strict one: no comments, no trailing commas, no control characters in strings, no leading
zeros. Numbers keep their written form, because only some of them are read as numbers later. Strings keep their
`\u` escapes as 16-bit units for the same reason: a lone surrogate is part of a correct document but not of a
text (`Json.Piece.texts?`).

The reader works on the list of characters left to read, and calls itself on shorter lists only; `fuel` is the number of
characters at the start, which no nesting can exceed.
-/

namespace CodeEditor

namespace Json

/-- one character of a string as written: itself, a one-letter escape, or a 16-bit unit -/
inductive Piece where
  | char (c : Char)
  | unit (code : Nat)
  deriving DecidableEq, Repr

end Json

/-- a JSON value -/
inductive Json where
  | null
  | bool (b : Bool)
  | number (written : Text)
  | string (pieces : List Json.Piece)
  | array (items : List Json)
  | object (fields : List (List Json.Piece × Json))

namespace Json

/-! ## Strings -/

/-- a unit of the first half of a surrogate pair -/
def isHigh (code : Nat) : Bool :=
  0xd800 ≤ code && code < 0xdc00

/-- a unit of the second half of a surrogate pair -/
def isLow (code : Nat) : Bool :=
  0xdc00 ≤ code && code < 0xe000

/-- the text of a string: two halves of a pair make one character, a half alone makes none -/
def text? : List Piece → Option Text
  | [] => some []
  | .char c :: rest => (text? rest).map (c :: ·)
  | [.unit code] => if isHigh code || isLow code then none else some [Char.ofNat code]
  | .unit code :: .char c :: rest =>
    if isHigh code || isLow code then none
    else (text? rest).map fun t => Char.ofNat code :: c :: t
  | .unit code :: .unit code' :: rest =>
    if isHigh code then
      if isLow code' then
        (text? rest).map (Char.ofNat (0x10000 + (code - 0xd800) * 0x400 + (code' - 0xdc00)) :: ·)
      else none
    else if isLow code then none
    else (text? (.unit code' :: rest)).map (Char.ofNat code :: ·)

/-- value of a hexadecimal digit -/
def hexValue? (c : Char) : Option Nat :=
  if c.isDigit then some (c.toNat - '0'.toNat)
  else if 'a' ≤ c && c ≤ 'f' then some (c.toNat - 'a'.toNat + 10)
  else if 'A' ≤ c && c ≤ 'F' then some (c.toNat - 'A'.toNat + 10)
  else none

/-- the escapes of one letter -/
def escapes : List (Char × Char) :=
  [('"', '"'), ('\\', '\\'), ('/', '/'), ('b', '\x08'), ('f', '\x0c'), ('n', '\n'), ('r', '\r'), ('t', '\t')]

/-- four hexadecimal digits -/
def unit? (a b c d : Char) : Option Nat :=
  match hexValue? a, hexValue? b, hexValue? c, hexValue? d with
  | some a, some b, some c, some d => some (((a * 16 + b) * 16 + c) * 16 + d)
  | _, _, _, _ => none

/-- the rest of a string, up to and with its closing quote -/
def stringTail? : Text → Option (List Piece × Text)
  | [] => none
  | '"' :: rest => some ([], rest)
  | '\\' :: 'u' :: a :: b :: c :: d :: rest =>
    match unit? a b c d with
    | none => none
    | some code => (stringTail? rest).map fun (pieces, rest) => (.unit code :: pieces, rest)
  | '\\' :: e :: rest =>
    match escapes.lookup e with
    | none => none
    | some c => (stringTail? rest).map fun (pieces, rest) => (.char c :: pieces, rest)
  | c :: rest =>
    if c = '\\' || c.toNat < 32 then none
    else (stringTail? rest).map fun (pieces, rest) => (.char c :: pieces, rest)

/-! ## Numbers -/

/-- digits at the start, at least one -/
def digits? (t : Text) : Option (Text × Text) :=
  match t.takeWhile Char.isDigit with
  | [] => none
  | ds => some (ds, t.drop ds.length)

/-- an integer part: 0, or digits that do not start with 0 -/
def integer? : Text → Option (Text × Text)
  | '0' :: rest => if (rest.head?.map Char.isDigit).getD false then none else some (['0'], rest)
  | t => digits? t

/-- a decimal point with digits, if there is one -/
def fraction? : Text → Option (Text × Text)
  | '.' :: rest => (digits? rest).map fun (ds, rest) => ('.' :: ds, rest)
  | t => some ([], t)

/-- an exponent, if there is one -/
def exponent? : Text → Option (Text × Text)
  | e :: sign :: rest =>
    if e = 'e' || e = 'E' then
      if sign = '+' || sign = '-' then (digits? rest).map fun (ds, rest) => (e :: sign :: ds, rest)
      else (digits? (sign :: rest)).map fun (ds, rest) => (e :: ds, rest)
    else some ([], e :: sign :: rest)
  | [e] => if e = 'e' || e = 'E' then none else some ([], [e])
  | [] => some ([], [])

/-- a number without its sign -/
def unsigned? (t : Text) : Option (Text × Text) := do
  let (whole, t) ← integer? t
  let (fraction, t) ← fraction? t
  let (exponent, t) ← exponent? t
  return (whole ++ fraction ++ exponent, t)

/-- a number -/
def number? : Text → Option (Text × Text)
  | '-' :: t => (unsigned? t).map fun (written, t) => ('-' :: written, t)
  | t => unsigned? t

/-! ## Values -/

/-- white space between the parts of a document -/
def isSpace (c : Char) : Bool :=
  c == ' ' || c == '\n' || c == '\t' || c == '\r'

/-- the text without leading white space -/
def skip (t : Text) : Text :=
  t.dropWhile isSpace

/-- what a list holds behind its opening bracket -/
inductive Frame where
  | items
  | fields

mutual

/-- a value at the start of a text -/
def value? : Nat → Text → Option (Json × Text)
  | 0, _ => none
  | fuel + 1, t =>
    match skip t with
    | '"' :: rest => (stringTail? rest).map fun (pieces, rest) => (.string pieces, rest)
    | '[' :: rest =>
      match skip rest with
      | ']' :: rest => some (.array [], rest)
      | rest => (items? fuel rest).map fun (items, rest) => (.array items, rest)
    | '{' :: rest =>
      match skip rest with
      | '}' :: rest => some (.object [], rest)
      | rest => (fields? fuel rest).map fun (fields, rest) => (.object fields, rest)
    | rest =>
      match Text.after? "null".toList rest, Text.after? "true".toList rest, Text.after? "false".toList rest with
      | some rest, _, _ => some (.null, rest)
      | _, some rest, _ => some (.bool true, rest)
      | _, _, some rest => some (.bool false, rest)
      | _, _, _ => (number? rest).map fun (written, rest) => (.number written, rest)

/-- the items of an array, up to and with its closing bracket -/
def items? : Nat → Text → Option (List Json × Text)
  | 0, _ => none
  | fuel + 1, t =>
    match value? fuel t with
    | none => none
    | some (item, rest) =>
      match skip rest with
      | ']' :: rest => some ([item], rest)
      | ',' :: rest => (items? fuel rest).map fun (items, rest) => (item :: items, rest)
      | _ => none

/-- the fields of an object, up to and with its closing brace -/
def fields? : Nat → Text → Option (List (List Piece × Json) × Text)
  | 0, _ => none
  | fuel + 1, t =>
    match skip t with
    | '"' :: rest =>
      match stringTail? rest with
      | none => none
      | some (key, rest) =>
        match skip rest with
        | ':' :: rest =>
          match value? fuel rest with
          | none => none
          | some (value, rest) =>
            match skip rest with
            | '}' :: rest => some ([(key, value)], rest)
            | ',' :: rest => (fields? fuel rest).map fun (fields, rest) => ((key, value) :: fields, rest)
            | _ => none
        | _ => none
    | _ => none

end

/-- a whole document: one value and white space around it -/
def ofText? (t : Text) : Option Json :=
  match value? (2 * t.length + 2) t with
  | some (json, rest) => if (skip rest).isEmpty then some json else none
  | none => none

end Json

end CodeEditor
