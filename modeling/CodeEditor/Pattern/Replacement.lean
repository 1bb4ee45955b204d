import CodeEditor.Pattern.Regex
/-!
Replacement texts with references to groups.

`$name` stands for a group, where the name is the longest run of ASCII letters, digits and underscores; in braces it is
everything up to the closing one. A name of digits is a group number. `$$` is a dollar sign, and a dollar sign in front
of anything else stands for itself. A group that does not exist, or took no part in the match, stands for nothing.
-/

namespace CodeEditor

/-- one part of a replacement text -/
inductive ReplacementPart where
  | char (c : Char)
  | group (name : Text)
  deriving DecidableEq, Repr

namespace ReplacementPart

/-- the number that a name is: digits, a plus sign allowed in front, below 2^64 -/
def number? (name : Text) : Option Nat :=
  let digits := match name with
    | '+' :: digits => digits
    | digits => digits
  if digits.isEmpty || !digits.all Char.isDigit then none else Text.toWord? digits

/-- the parts of a replacement text -/
def ofText : Text → List ReplacementPart
  | [] => []
  | '$' :: '$' :: t => char '$' :: ofText t
  | '$' :: '{' :: t =>
    match _h : t.dropWhile (· != '}') with
    | _ :: rest => group (t.takeWhile (· != '}')) :: ofText rest
    | [] => char '$' :: ofText ('{' :: t)
  | '$' :: t =>
    match t.takeWhile isIdentifierChar with
    | [] => char '$' :: ofText t
    | name => group name :: ofText (t.dropWhile isIdentifierChar)
  | c :: t => char c :: ofText t
termination_by t => t.length
decreasing_by
  · simp only [List.length_cons]; omega
  · have := (List.dropWhile_suffix (· != '}') (l := t)).length_le
    rw [_h] at this
    simp only [List.length_cons] at this ⊢
    omega
  · simp only [List.length_cons]; omega
  · simp only [List.length_cons]; omega
  · have := (List.dropWhile_suffix isIdentifierChar (l := t)).length_le
    simp only [List.length_cons]
    omega
  · simp only [List.length_cons]; omega

/-- what a part stands for, given a match in a text -/
def expand (r : Regex) (t : Text) (m : Match) : ReplacementPart → Text
  | char c => [c]
  | group name =>
    let index := match number? name with
      | some n => some n
      | none => r.names.lookup name
    match index.bind m.group? with
    | some (start, stop) => t.slice start stop
    | none => []

end ReplacementPart

namespace Regex

/-- a replacement text with its groups filled in from a match -/
def expand (r : Regex) (t : Text) (m : Match) (replacement : Text) : Text :=
  (ReplacementPart.ofText replacement).flatMap (ReplacementPart.expand r t m)

end Regex

end CodeEditor
