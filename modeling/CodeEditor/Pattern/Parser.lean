import CodeEditor.Pattern.Bracket
import CodeEditor.Pattern.Normal
/-!
Reading a written pattern.

The reader goes over the characters once. It keeps the concatenation being read, the alternatives already finished and a
stack of the groups still open (`Reader`). Flags are resolved on the way, so the result is a `Pattern`; the names of
groups come beside it. There is no look-around and no back reference: both are errors.

Each part carries the height of its tree, and a tree higher than `maxHeight` is an error.
-/

namespace CodeEditor.Pattern

/-- one part of a concatenation: a directive only sets flags, and cannot be repeated -/
inductive Item where
  | directive
  | node (n : Sized Pattern)

/-- a group that is still open: what stood before it, the flags to come back to, and its number if it has one -/
structure OpenGroup where
  items : List Item
  branches : List (Sized Pattern)
  flags : Flags
  index : Option Nat

/-- what has been read, the latest first in every list -/
structure Reader where
  flags : Flags
  items : List Item
  branches : List (Sized Pattern)
  stack : List OpenGroup
  /-- number of the last group -/
  groups : Nat
  names : List (Text × Nat)

/-- the highest tree allowed -/
def maxHeight : Nat := 250

namespace Item

/-- the part as a tree -/
def sized : Item → Sized Pattern
  | directive => ⟨.empty, 0⟩
  | node n => n

end Item

namespace Reader

/-- nothing read yet -/
def initial (f : Flags) : Reader :=
  ⟨f, [], [], [], 0, []⟩

/-- the finished concatenation -/
def concat (items : List Item) : Sized Pattern :=
  match items with
  | [] => ⟨.empty, 0⟩
  | [item] => item.sized
  | items =>
    let parts := items.reverse.map Item.sized
    ⟨inOrder (parts.map Sized.value), heightOver parts⟩

/-- the finished alternatives -/
def alternatives (r : Reader) : Sized Pattern :=
  let last := concat r.items
  match r.branches with
  | [] => last
  | branches =>
    let parts := (last :: branches).reverse
    ⟨oneOf (parts.map Sized.value), heightOver parts⟩

/-- add a part -/
def push (r : Reader) (p : Pattern) (height : Nat) : Reader :=
  { r with items := .node ⟨p, height⟩ :: r.items }

/-- open a group -/
def openGroup (r : Reader) (flags : Flags) (index : Option Nat) : Reader :=
  { r with
    items := [], branches := [], flags
    stack := ⟨r.items, r.branches, r.flags, index⟩ :: r.stack }

/-- close the innermost group -/
def closeGroup? (r : Reader) : Option Reader :=
  match r.stack with
  | [] => none
  | g :: stack =>
    let body := r.alternatives
    let whole := match g.index with
      | some index => .group index body.value
      | none => body.value
    some { r with
      items := .node ⟨whole, 1 + body.height⟩ :: g.items
      branches := g.branches, flags := g.flags, stack }

/-- repeat the last part; a directive, or nothing, cannot be repeated -/
def repeatLast? (r : Reader) (low : Nat) (high : Option Nat) (greedy : Bool) : Option Reader :=
  match r.items with
  | .node n :: items =>
    some { r with items := .node ⟨.repeated low high (greedy != r.flags.swapGreed) n.value, 1 + n.height⟩ :: items }
  | _ => none

/-- the last part can be repeated -/
def canRepeat (r : Reader) : Bool :=
  match r.items with
  | .node _ :: _ => true
  | _ => false

/-! ## Groups -/

/-- a character of a group name -/
def isNameChar (first : Bool) (c : Char) : Bool :=
  c == '_' || if first then isAlphabetic c else c == '.' || c == '[' || c == ']' || isAlphanumeric c

/-- a group name, up to and with the closing angle bracket -/
def name? (t : Text) : Option (Text × Text) :=
  let name := t.takeWhile (· != '>')
  match name, t.drop name.length with
  | c :: cs, _ :: rest => if isNameChar true c && cs.all (isNameChar false) then some (name, rest) else none
  | _, _ => none

/-- look-ahead and look-behind -/
def isLookAround (t : Text) : Bool :=
  ["?=", "?!", "?<=", "?<!"].any fun mark => mark.toList.isPrefixOf t

/-- open a group that is numbered and named -/
def openNamed? (r : Reader) (t : Text) : Option (Reader × Text) :=
  match name? t with
  | none => none
  | some (name, t) =>
    if (r.names.lookup name).isSome then none
    else
      let index := r.groups + 1
      some ({ r.openGroup r.flags (some index) with groups := index, names := (name, index) :: r.names }, t)

/-- read the start of a group or a directive, behind the opening parenthesis -/
def readGroup? (r : Reader) (t : Text) : Option (Reader × Text) :=
  let t := skip r.flags t
  if isLookAround t then none
  else match Text.after? "?P<".toList t, Text.after? "?<".toList t, t with
    | some rest, _, _ => r.openNamed? rest
    | none, some rest, _ => r.openNamed? rest
    | none, none, '?' :: rest =>
      match r.flags.read? [] false rest with
      | none => none
      | some (_, [], .directive, _) => none
      | some (flags, _, .directive, rest) => some ({ r with flags, items := .directive :: r.items }, rest)
      | some (flags, _, .group, rest) => some (r.openGroup flags none, rest)
    | none, none, t => some ({ r.openGroup r.flags (some (r.groups + 1)) with groups := r.groups + 1 }, t)

/-! ## Repetitions -/

/-- a repetition mark and the question mark that may follow it -/
def readMark? (r : Reader) (low : Nat) (high : Option Nat) : Text → Option (Reader × Text)
  | '?' :: t => (r.repeatLast? low high false).map (·, t)
  | t => (r.repeatLast? low high true).map (·, t)

/-- digits at the start of a text, free spacing left out -/
def countDigits (f : Flags) : Text → Text × Text
  | [] => ([], [])
  | c :: t =>
    if c.isDigit then
      let (ds, t) := countDigits f (skip f t)
      (c :: ds, t)
    else ([], c :: t)
termination_by t => t.length
decreasing_by exact length_skip_lt f c t

/-- the text without white space, and what free spacing leaves out behind each -/
def skipSpaces (f : Flags) : Text → Text
  | [] => []
  | c :: t => if isWhiteSpace c then skipSpaces f (skip f t) else c :: t
termination_by t => t.length
decreasing_by exact length_skip_lt f c t

/-- a count with white space around it; a count is below 2^32 -/
def count? (f : Flags) (t : Text) : Option (Nat × Text) :=
  let t := t.dropWhile isWhiteSpace
  match countDigits f t with
  | ([], _) => none
  | (digits, t) =>
    if Text.toNat digits < UInt32.size then some (Text.toNat digits, skipSpaces f t) else none

/-- read a counted repetition, behind its opening brace -/
def readCounts? (r : Reader) (t : Text) : Option (Reader × Text) :=
  if !r.canRepeat then none
  else match count? r.flags (skip r.flags t) with
    | none => none
    | some (low, '}' :: t) => r.readMark? low (some low) (skip r.flags t)
    | some (low, ',' :: t) =>
      match skip r.flags t with
      | '}' :: t => r.readMark? low none (skip r.flags t)
      | t =>
        match count? r.flags t with
        | some (high, '}' :: t) => if low ≤ high then r.readMark? low (some high) (skip r.flags t) else none
        | _ => none
    | _ => none

/-! ## Leaves -/

/-- a character that stands for itself -/
def literal (f : Flags) (c : Char) : Pattern :=
  if !f.anyCase then .set (.char c)
  else if f.unicode then .set (.anyCase c)
  else .set (if c.isAlpha then .union (.char c.toLower) (.char c.toUpper) else .char c)

/-- the dot: without the Unicode classes it could match half a character, which is an error -/
def dot? (f : Flags) : Option Pattern :=
  if !f.unicode then none
  else some <| .set <|
    if f.dotAll then .compl .none
    else if f.crlf then .compl (.union (.char '\r') (.char '\n'))
    else .compl (.char '\n')

/-- the caret -/
def caret (f : Flags) : Pattern :=
  .anchor (if !f.multiLine then .textStart else if f.crlf then .crlfLineStart else .lineStart)

/-- the dollar sign -/
def dollar (f : Flags) : Pattern :=
  .anchor (if !f.multiLine then .textEnd else if f.crlf then .crlfLineEnd else .lineEnd)

/-- the leaf of an escape -/
def escape? [UnicodeClasses] (f : Flags) : Escape → Option Pattern
  | .literal c code => if !f.unicode && code && c.toNat ≥ 128 then none else some (literal f c)
  | .shorthand s negated =>
    if !negated then some (.set (s.set f.unicode))
    else if f.unicode then some (.set (.compl (s.set true)))
    else none
  | .property name negated => (Bracket.property? f name negated).map ofSet
  | .textStart => some (.anchor .textStart)
  | .textEnd => some (.anchor .textEnd)
  | .word edge => some (.anchor (.word edge (!f.unicode)))

/-! ## The reader -/

/-- read one part of the pattern, at `c` -/
def step? [UnicodeClasses] (r : Reader) (c : Char) (t : Text) : Option (Reader × Text) :=
  match c with
  | '(' => r.readGroup? t
  | ')' => r.closeGroup?.map (·, t)
  | '|' => some ({ r with items := [], branches := concat r.items :: r.branches }, t)
  | '[' => (Bracket.set? r.flags t).map fun (s, t) => (r.push (ofSet s.value) s.height, t)
  | '?' => r.readMark? 0 (some 1) t
  | '*' => r.readMark? 0 none t
  | '+' => r.readMark? 1 none t
  | '{' => r.readCounts? t
  | '\\' =>
    match Escape.read? r.flags t with
    | none => none
    | some (e, t) => (escape? r.flags e).map fun p => (r.push p 0, t)
  | '.' => (dot? r.flags).map fun p => (r.push p 0, t)
  | '^' => some (r.push (caret r.flags) 0, t)
  | '$' => some (r.push (dollar r.flags) 0, t)
  | c => some (r.push (literal r.flags c) 0, t)

/-- read to the end of the pattern; a part is never longer than what it is read from -/
def run? [UnicodeClasses] (r : Reader) (t : Text) : Option Reader :=
  match skip r.flags t with
  | [] => some r
  | c :: rest =>
    match r.step? c rest with
    | none => none
    | some (r, t') => if t'.length < t.length then run? r t' else none
termination_by t.length

/-- the pattern read; no group may be open any more -/
def finish? (r : Reader) : Option (Pattern × List (Text × Nat)) :=
  let whole := r.alternatives
  if r.stack.isEmpty && whole.height ≤ maxHeight then some (whole.value, r.names) else none

end Reader

/-- the pattern of a written form, and the numbers of the groups that have names -/
def parse? [UnicodeClasses] (f : Flags) (t : Text) : Option (Pattern × List (Text × Nat)) :=
  ((Reader.initial f).run? t).bind Reader.finish?

end CodeEditor.Pattern
