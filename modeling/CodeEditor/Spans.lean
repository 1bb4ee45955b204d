/-!
Comment and string spans.

A span table lists the stretches of a text that lie in a comment or a string, in order and without overlap. It is built
from ranges in any order (`Spans.ofRanges`): empty ranges are dropped, the rest is sorted by start (ranges of one start
keep their order), and a range that starts inside the span before it is merged into it and loses its own kind.
-/

namespace CodeEditor

/-- what a span covers -/
inductive SpanKind where
  | comment
  | string
  deriving DecidableEq, Repr

/-- the offsets from `start` up to but not including `stop` -/
structure Span where
  start : Nat
  stop : Nat
  kind : SpanKind
  deriving DecidableEq, Repr

namespace Span

/-- the offset lies in the span -/
def contains (s : Span) (offset : Nat) : Bool :=
  s.start ≤ offset && offset < s.stop

/-- the span with its end moved to cover another one -/
def absorb (s other : Span) : Span :=
  { s with stop := max s.stop other.stop }

end Span

/-- a table of spans in order -/
structure Spans where
  toList : List Span
  deriving DecidableEq, Repr

namespace Spans

/-- no comments and no strings -/
def empty : Spans :=
  ⟨[]⟩

/-- walk over ranges sorted by start: `current` is the span being built -/
def mergeFrom (current : Span) : List Span → List Span
  | [] => [current]
  | next :: rest =>
    if next.start < current.stop then mergeFrom (current.absorb next) rest
    else current :: mergeFrom next rest

/-- merge ranges sorted by start -/
def merge : List Span → List Span
  | [] => []
  | first :: rest => mergeFrom first rest

/-- a table from ranges in any order -/
def ofRanges (ranges : List Span) : Spans :=
  ⟨merge ((ranges.filter fun s => s.start < s.stop).mergeSort fun s t => s.start ≤ t.start)⟩

/-- what kind of span covers an offset -/
def kindAt (spans : Spans) (offset : Nat) : Option SpanKind :=
  match spans.toList.find? (fun s => offset < s.stop) with
  | some s => if s.contains offset then some s.kind else none
  | none => none

/-- some span covers the offset -/
def covers (spans : Spans) (offset : Nat) : Bool :=
  (spans.kindAt offset).isSome

end Spans

end CodeEditor
