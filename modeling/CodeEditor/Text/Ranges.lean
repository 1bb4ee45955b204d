/-!
Sets of characters as sorted ranges of code points, the form in which the tables of the Unicode Standard (version 16)
are kept, and the operations on such sets.

There are no characters from U+D800 to U+DFFF, so no range reaches into these code points (`Ranges.characters`).
-/

namespace CodeEditor

/-- first and last code point of each range, in increasing order and without overlap -/
abbrev Ranges := List (Nat × Nat)

namespace Ranges

/-- the code point lies in one of the ranges; the search stops at the first range past it -/
def has : Ranges → Nat → Bool
  | [], _ => false
  | (first, last) :: rest, n => if n < first then false else if n ≤ last then true else has rest n

/-- the characters from `start` up to but not including `stop` -/
def characters (start stop : Nat) : Ranges :=
  (if start < min stop 0xd800 then [(start, min stop 0xd800 - 1)] else []) ++
    (if max start 0xe000 < stop then [(max start 0xe000, stop - 1)] else [])

/-- `current` and the ranges behind it, where those that overlap or touch become one -/
def uniteFrom (current : Nat × Nat) : Ranges → Ranges
  | [] => [current]
  | next :: rest =>
    if next.1 ≤ current.2 + 1 then uniteFrom (current.1, max current.2 next.2) rest
    else current :: uniteFrom next rest

/-- ranges sorted by their first code points, where those that overlap or touch become one -/
def unite : Ranges → Ranges
  | [] => []
  | first :: rest => uniteFrom first rest

/-- the range that starts first comes first -/
def startsFirst (r s : Nat × Nat) : Bool :=
  r.1 ≤ s.1

/-- the characters with these code points, in any order -/
def ofCodes (codes : List Nat) : Ranges :=
  unite ((codes.map fun n => (n, n)).mergeSort startsFirst)

/-- the characters in one of two sets -/
def union (r s : Ranges) : Ranges :=
  unite (List.merge r s startsFirst)

/-- the characters from `start` on that are in none of the ranges -/
def outsideFrom (start : Nat) : Ranges → Ranges
  | [] => characters start 0x110000
  | (first, last) :: rest => characters start first ++ outsideFrom (last + 1) rest

/-- the characters outside a set -/
def compl (r : Ranges) : Ranges :=
  outsideFrom 0 r

/-- the characters in a set and not in another -/
def diff (r s : Ranges) : Ranges :=
  compl (union (compl r) s)

/-- the characters in both of two sets -/
def inter (r s : Ranges) : Ranges :=
  diff r (compl s)

/-- the characters in just one of two sets -/
def symmDiff (r s : Ranges) : Ranges :=
  union (diff r s) (diff s r)

end Ranges

end CodeEditor
