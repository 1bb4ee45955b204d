import CodeEditor.Pattern.Escape
import CodeEditor.Pattern.UnicodeClasses
/-!
Bracket expressions of a written pattern, such as `[a-z&&[^b]]`.

Inside the brackets stand characters, ranges, classes and further bracket expressions. They form a union, which binds
tighter than the operators `&&`, `--` and `~~`; those group to the left. A closing bracket that comes first, and minus
signs that come first, stand for themselves.

The reader keeps the expressions that are still open on a stack (`Bracket.Open`), so nesting needs no recursion. Each
part carries the height of its expression, since patterns may be nested only so deep.
-/

namespace CodeEditor.Pattern

/-- a part of a written pattern with the height of its tree -/
structure Sized (α : Type) where
  value : α
  height : Nat

/-- the height of a tree over these parts -/
def heightOver {α : Type} (parts : List (Sized α)) : Nat :=
  1 + (parts.map Sized.height).foldl max 0

namespace Bracket

/-- the operators between unions -/
inductive Op where
  | inter
  | diff
  | symmDiff
  deriving DecidableEq, Repr

/-- the set of an operator -/
def Op.apply : Op → CharSet → CharSet → CharSet
  | .inter => .inter
  | .diff => .diff
  | .symmDiff => .symmDiff

/-- what waits for a union to be finished: a bracket with what stood before it, or an operator with its left side -/
inductive Open where
  | bracket (negated : Bool) (outer : List (Sized CharSet))
  | op (op : Op) (left : Sized CharSet)

/-- a set as it is when case does or does not matter -/
def fold (f : Flags) (s : CharSet) : CharSet :=
  if !f.anyCase then s else if f.unicode then .folded s else .asciiFolded s

/-- the complement of a set, if it is negated; without the Unicode classes it could match half a
character, which is an error -/
def negate? (f : Flags) (negated : Bool) (s : CharSet) : Option CharSet :=
  if !negated then some s else if f.unicode then some (.compl s) else none

/-- the characters with a name, or all others -/
def property? [UnicodeClasses] (f : Flags) (name : Text) (negated : Bool) : Option CharSet :=
  if f.unicode then (UnicodeClasses.ranges? name).bind fun r => negate? f negated (fold f (.table r)) else none

/-- the union of the parts read, the latest first -/
def close (parts : List (Sized CharSet)) : Sized CharSet :=
  match parts with
  | [] => ⟨.none, 0⟩
  | [part] => part
  | parts => ⟨.unionAll (parts.reverse.map Sized.value), heightOver parts⟩

/-- apply the operator that waits for `right`, if one does -/
def applyOp (f : Flags) (right : Sized CharSet) : List Open → Sized CharSet × List Open
  | .op op left :: stack =>
    (⟨op.apply (fold f left.value) (fold f right.value), heightOver [left, right]⟩, stack)
  | stack => (right, stack)

/-- the minus signs at the start of a bracket -/
def readMinus? (f : Flags) (parts : List (Sized CharSet)) : Text → Option (List (Sized CharSet) × Text)
  | [] => none
  | '-' :: t => readMinus? f (⟨.char '-', 0⟩ :: parts) (skip f t)
  | t => some (parts, t)
termination_by t => t.length
decreasing_by exact length_skip_lt f _ t

/-- read the start of a bracket behind its `[`: a caret that negates it, and what stands for itself
because it comes first -/
def readStart? (f : Flags) (t : Text) : Option (Bool × List (Sized CharSet) × Text) :=
  let (negated, t) := match skip f t with
    | '^' :: t => (true, skip f t)
    | t => (false, t)
  match readMinus? f [] t with
  | none => none
  | some ([], ']' :: t) =>
    match skip f t with
    | [] => none
    | t => some (negated, [⟨.char ']', 0⟩], t)
  | some (parts, t) => some (negated, parts, t)

/-- a named set such as `[:alpha:]`, behind its `[`, and whether it is negated; anything else is not an
error, only no named set -/
def named? (t : Text) : Option (CharSet × Bool × Text) :=
  match t with
  | ':' :: t =>
    let (negated, t) := match t with
      | '^' :: t => (true, t)
      | t => (false, t)
    match t.dropWhile (· != ':') with
    | ':' :: ']' :: rest =>
      (CharSet.named.lookup (String.ofList (t.takeWhile (· != ':')))).map (·, negated, rest)
    | _ => none
  | _ => none

/-- one end of a range, or a class -/
inductive Atom where
  | char (c : Char)
  | set (s : CharSet)

/-- a character, or an escape that stands for a character or a class -/
def atom? [UnicodeClasses] (f : Flags) : Text → Option (Atom × Text)
  | [] => none
  | '\\' :: t =>
    match Escape.read? f t with
    | some (.literal c _, t) => if isAscii c || f.unicode then some (.char c, t) else none
    | some (.shorthand s negated, t) => (negate? f negated (s.set f.unicode)).map fun s => (.set s, t)
    | some (.property name negated, t) => (property? f name negated).map fun s => (.set s, t)
    | _ => none
  | c :: t => if isAscii c || f.unicode then some (.char c, t) else none

/-- the character that decides whether a minus sign makes a range: the next one that counts. In free spacing only the
first number sign is taken for the start of a comment, and the comment itself is read -/
def peek (f : Flags) (t : Text) : Option Char :=
  if f.freeSpacing then
    match t.dropWhile isWhiteSpace with
    | '#' :: rest => (rest.dropWhile isWhiteSpace).head? <|> t.head?
    | c :: _ => some c
    | [] => t.head?
  else t.head?

/-- a character, a class or a range -/
def item? [UnicodeClasses] (f : Flags) (t : Text) : Option (CharSet × Text) :=
  match atom? f t with
  | none => none
  | some (first, t) =>
    let single : CharSet := match first with
      | .char c => .char c
      | .set s => s
    match skip f t with
    | [] => none
    | '-' :: rest =>
      if peek f rest == some ']' || peek f rest == some '-' then some (single, '-' :: rest)
      else
        match skip f rest with
        | [] => none
        | rest =>
          match first, atom? f rest with
          | .char a, some (.char b, rest) => if a ≤ b then some (.range a b, rest) else none
          | _, _ => none
    | t => some (single, t)

/-- read on inside a bracket: `stack` is what is open, `parts` the union being read. The last closing bracket gives the
set. `fuel` is at least the length of the text -/
def read? [UnicodeClasses] (f : Flags) : Nat → List Open → List (Sized CharSet) → Text → Option (Sized CharSet × Text)
  | 0, _, _, _ => none
  | fuel + 1, stack, parts, t =>
    let operator (op : Op) (t : Text) :=
      let (left, stack) := applyOp f (close parts) stack
      read? f fuel (.op op left :: stack) [] t
    let item (t : Text) :=
      match item? f t with
      | none => none
      | some (s, t) => read? f fuel stack (⟨s, 0⟩ :: parts) t
    match skip f t with
    | [] => none
    | '[' :: t =>
      match named? t with
      | some (s, negated, t) =>
        match negate? f negated (fold f s) with
        | none => none
        | some s => read? f fuel stack (⟨s, 0⟩ :: parts) t
      | none =>
        match readStart? f t with
        | none => none
        | some (negated, inner, t) => read? f fuel (.bracket negated parts :: stack) inner t
    | ']' :: t =>
      match applyOp f (close parts) stack with
      | (inner, .bracket negated outer :: stack) =>
        match negate? f negated (fold f inner.value) with
        | none => none
        | some s =>
          let whole : Sized CharSet := ⟨s, 1 + inner.height⟩
          if stack.isEmpty then some (whole, t) else read? f fuel stack (whole :: outer) t
      | _ => none
    | '&' :: '&' :: t => operator .inter t
    | '-' :: '-' :: t => operator .diff t
    | '~' :: '~' :: t => operator .symmDiff t
    | t => item t

/-- a whole bracket expression, behind its `[` -/
def set? [UnicodeClasses] (f : Flags) (t : Text) : Option (Sized CharSet × Text) :=
  match readStart? f t with
  | none => none
  | some (negated, parts, t) => read? f (t.length + 1) [.bracket negated []] parts t

end Bracket

end CodeEditor.Pattern
