import CodeEditor.Text.CharClass
import CodeEditor.Text.Basic
/-!
Flags of a written pattern.

A directive such as `(?i-s)` sets flags from there to the end of the group it stands in, a group such as `(?i:...)` for
itself only. In the free-spacing mode (`x`) white space and comments do not count.
-/

namespace CodeEditor.Pattern

/-- how the written form is read -/
structure Flags where
  /-- `i`: case does not matter -/
  anyCase : Bool
  /-- `m`: the line anchors hold at every line -/
  multiLine : Bool
  /-- `s`: a dot matches LF too -/
  dotAll : Bool
  /-- `U`: lazy and greedy change places -/
  swapGreed : Bool
  /-- `R`: CR ends a line too -/
  crlf : Bool
  /-- `u`: classes are those of Unicode -/
  unicode : Bool
  /-- `x`: free spacing -/
  freeSpacing : Bool
  deriving DecidableEq, Repr

namespace Flags

/-- the flags in effect without any directive -/
def default : Flags :=
  ⟨false, false, false, false, false, true, false⟩

/-- set one flag by its letter; no other letter is a flag -/
def set? (f : Flags) (letter : Char) (on : Bool) : Option Flags :=
  match letter with
  | 'i' => some { f with anyCase := on }
  | 'm' => some { f with multiLine := on }
  | 's' => some { f with dotAll := on }
  | 'U' => some { f with swapGreed := on }
  | 'R' => some { f with crlf := on }
  | 'u' => some { f with unicode := on }
  | 'x' => some { f with freeSpacing := on }
  | _ => none

/-- what ends a list of flags -/
inductive Ending where
  /-- a parenthesis: the flags hold for the rest of the group around -/
  | directive
  /-- a colon: the flags hold for the group that starts here -/
  | group
  deriving DecidableEq, Repr

/-- read flags up to and with their ending. `seen` are the letters so far, none of which may come twice; `negated` is
set behind the one minus sign there may be, which may not come last -/
def read? (f : Flags) (seen : List Char) (negated : Bool) : Text → Option (Flags × List Char × Ending × Text)
  | [] => none
  | ')' :: t => if negated && seen.head? == some '-' then none else some (f, seen, .directive, t)
  | ':' :: t => if negated && seen.head? == some '-' then none else some (f, seen, .group, t)
  | c :: t =>
    if seen.contains c then none
    else if c = '-' then read? f (c :: seen) true t
    else match f.set? c (!negated) with
      | none => none
      | some f => read? f (c :: seen) negated t

end Flags

/-- the text without the white space and the comments at its start; `inComment` if it starts inside a comment -/
def skipFree (inComment : Bool) : Text → Text
  | [] => []
  | c :: t =>
    if inComment then skipFree (c != '\n') t
    else if isWhiteSpace c then skipFree false t
    else if c = '#' then skipFree true t
    else c :: t

theorem length_skipFree_le (inComment : Bool) (t : Text) : (skipFree inComment t).length ≤ t.length := by
  fun_induction skipFree inComment t <;> simp_all <;> omega

/-- the text without what free spacing leaves out at its start -/
def skip (f : Flags) (t : Text) : Text :=
  if f.freeSpacing then skipFree false t else t

theorem length_skip_le (f : Flags) (t : Text) : (skip f t).length ≤ t.length := by
  unfold skip
  split
  · exact length_skipFree_le false t
  · exact Nat.le_refl _

theorem length_skip_lt (f : Flags) (c : Char) (t : Text) : (skip f t).length < (c :: t).length :=
  Nat.lt_succ_of_le (length_skip_le f t)

end CodeEditor.Pattern
