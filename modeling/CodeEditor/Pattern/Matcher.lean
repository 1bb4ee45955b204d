import CodeEditor.Pattern.Basic
import CodeEditor.Text.Basic
import Std.Data.HashSet
/-!
Matching.

At a given start, a pattern prefers some matches to others: an earlier alternative to a later one, more repetitions to
fewer when greedy, fewer to more when lazy. The match found is the most preferred one (`Pattern.matchAt?`), and a search
takes the leftmost start that has a match.

Alternatives are tried in order of preference, each with the rest of the pattern as a continuation. A choice that was
entered at a position is marked and not entered there again: if the first visit failed, so would the second, and if it
is still going on, a loop has come back without reading anything. So matching ends, and takes time proportional to the
number of choices times the length of the text. The numbers of choices are offsets: each sub-pattern has `choices` of
them in a row, and each copy of a repeated pattern its own.
-/

namespace CodeEditor

/-- a position in a text, with what lies around it and the groups passed so far, the latest first -/
structure Point where
  pos : Nat
  before : Option Char
  rest : Text
  /-- number, start and end of each group passed -/
  captures : List (Nat × Nat × Nat)
  deriving DecidableEq, Repr

/-- an end of a match and its groups -/
structure Found where
  stop : Nat
  captures : List (Nat × Nat × Nat)
  deriving DecidableEq, Repr

/-- choices already entered, each with the position -/
abbrev Visited := Std.HashSet (Nat × Nat)

namespace Matching

/-- one line of tries: the match it ends in, if any, and the marks it leaves -/
abbrev Attempt := Visited → Option Found × Visited

/-- how a pattern goes on from a point, given what follows it -/
abbrev Matcher := Point → (Point → Attempt) → Attempt

/-- no match -/
def fail : Attempt :=
  fun marks => (none, marks)

/-- the second line is tried if the first one fails -/
def orElse (first second : Attempt) : Attempt := fun marks =>
  match first marks with
  | (some found, marks) => (some found, marks)
  | (none, marks) => second marks

/-- enter a choice at a position, unless it was entered there before -/
def once (choice pos : Nat) (go : Attempt) : Attempt := fun marks =>
  if marks.contains (choice, pos) then (none, marks) else go (marks.insert (choice, pos))

/-- a choice of going on or leaving: greedy patterns prefer the first, lazy ones the second -/
def branch (greedy : Bool) (choice pos : Nat) (more leave : Attempt) : Attempt :=
  once choice pos (if greedy then orElse more leave else orElse leave more)

/-- nothing to match -/
def pass : Matcher :=
  fun pt k => k pt

/-- one matcher after another -/
def andThen (first second : Matcher) : Matcher :=
  fun pt k => first pt fun pt => second pt k

/-- one character of a set -/
def char (s : CharSet) : Matcher := fun pt k =>
  match pt.rest with
  | [] => fail
  | c :: rest => if s.contains c then k { pt with pos := pt.pos + 1, before := some c, rest } else fail

/-- a condition on the position -/
def check (a : Anchor) : Matcher := fun pt k =>
  if a.holds pt.before pt.rest.head? then k pt else fail

/-- note where a group starts and ends -/
def capture (index : Nat) (body : Matcher) : Matcher := fun pt k =>
  body pt fun pt' => k { pt' with captures := (index, pt.pos, pt'.pos) :: pt'.captures }

/-- a fixed number of copies, each with choices of its own -/
def copies (body : Nat → Matcher) (size : Nat) : Nat → Nat → Matcher
  | 0, _ => pass
  | count + 1, choice => andThen (body choice) (copies body size count (choice + size))

/-- up to a number of copies, each one inside the one before -/
def upTo (greedy : Bool) (body : Nat → Matcher) (size : Nat) : Nat → Nat → Matcher
  | 0, _ => pass
  | count + 1, choice => fun pt k =>
    branch greedy choice pt.pos
      (body (choice + 1) pt fun pt => upTo greedy body size count (choice + 1 + size) pt k)
      (k pt)

/-- any number of times; a round that reads nothing comes back to a choice already entered -/
def loop (greedy : Bool) (choice : Nat) (body : Matcher) (pt : Point) (k : Point → Attempt) : Attempt :=
  branch greedy choice pt.pos
    (body pt fun pt' => if pt'.rest.length < pt.rest.length then loop greedy choice body pt' k else fail)
    (k pt)
termination_by pt.rest.length

end Matching

namespace Pattern

open Matching

/-- number of choices, copies of repeated patterns counted one by one -/
def choices : Pattern → Nat
  | empty | set _ | anchor _ => 0
  | seq p q => p.choices + q.choices
  | alt p q => 1 + p.choices + q.choices
  | times low (some high) _ p => low * p.choices + (high - low) * (1 + p.choices)
  | times 0 none _ p => (if p.isNullable then 2 else 1) + p.choices
  | times (low + 1) none _ p => 1 + (low + 1) * p.choices
  | group _ p => p.choices

/-- the matcher of a pattern whose choices are numbered from `choice` on -/
def matcher : Pattern → Nat → Matcher
  | empty, _ => pass
  | set s, _ => Matching.char s
  | anchor a, _ => check a
  | seq p q, choice => andThen (p.matcher choice) (q.matcher (choice + p.choices))
  | alt p q, choice => fun pt k =>
    once choice pt.pos
      (orElse (p.matcher (choice + 1) pt k) (q.matcher (choice + 1 + p.choices) pt k))
  | times low (some high) greedy p, choice =>
    andThen (copies p.matcher p.choices low choice)
      (upTo greedy p.matcher p.choices (high - low) (choice + low * p.choices))
  | times 0 none greedy p, choice =>
    if p.isNullable then fun pt k =>
      branch greedy choice pt.pos
        (andThen (p.matcher (choice + 2)) (loop greedy (choice + 1) (p.matcher (choice + 2))) pt k)
        (k pt)
    else loop greedy choice (p.matcher (choice + 1))
  | times (low + 1) none greedy p, choice =>
    let last := p.matcher (choice + 1 + low * p.choices)
    andThen (copies p.matcher p.choices low (choice + 1)) (andThen last (loop greedy choice last))
  | group index p, choice => capture index (p.matcher choice)

/-- the preferred match that starts at a point -/
def matchAt? (p : Pattern) (pt : Point) : Option Found :=
  (p.matcher 0 pt (fun pt marks => (some ⟨pt.pos, pt.captures⟩, marks)) ∅).1

end Pattern

end CodeEditor
