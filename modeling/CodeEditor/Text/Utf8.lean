import CodeEditor.Text.Ranges
/-!
Sets of characters as UTF-8.

A character takes one to four bytes: a leading byte, which tells how many there are, and continuation bytes of six bits
each. A set of characters is a list of sequences of byte ranges (`Ranges.byteSequences`): a sequence stands for all
characters whose bytes lie in its ranges one by one. The sequences are in the order of the characters, and each is as
wide as it can be without reaching past the set.
-/

namespace CodeEditor

/-- first and last of a range of bytes -/
abbrev ByteRange := Nat × Nat

/-- byte ranges one after another -/
abbrev ByteSequence := List ByteRange

namespace ByteSequence

/-- any continuation byte -/
def anyContinuation : ByteRange :=
  (0x80, 0xbf)

/-- how many values `count` continuation bytes have -/
def blockSize (count : Nat) : Nat :=
  1 <<< (6 * count)

/-- the values from `first` to `last`, written as one byte on top of `mark` and `count` continuation bytes.

Values with the same first byte are left to the bytes behind it. Of the others, those of a first byte that is used in
full make one sequence together; the first bytes at either end may be used in part. -/
def ofValues (mark : Nat) : Nat → Nat → Nat → List ByteSequence
  | 0, first, last => [[(mark + first, mark + last)]]
  | count + 1, first, last =>
    let size := blockSize (count + 1)
    let behind (byte : Nat) (rest : List ByteSequence) := rest.map ((mark + byte, mark + byte) :: ·)
    if first / size = last / size then
      behind (first / size) (ofValues 0x80 count (first % size) (last % size))
    else
      let startsFull := first % size = 0
      let endsFull := last % size = size - 1
      let start := if startsFull then first / size else first / size + 1
      let stop := if endsFull then last / size + 1 else last / size
      (if startsFull then [] else behind (first / size) (ofValues 0x80 count (first % size) (size - 1))) ++
        (if start < stop then
          [(mark + start, mark + (stop - 1)) :: List.replicate (count + 1) anyContinuation] else []) ++
        (if endsFull then [] else behind (last / size) (ofValues 0x80 count 0 (last % size)))

/-- the characters of one length: the leading byte of the first value, the number of continuation bytes, and the
first and last code point -/
structure Form where
  mark : Nat
  continuations : Nat
  first : Nat
  last : Nat

/-- the four lengths -/
def forms : List Form :=
  [⟨0x00, 0, 0x0, 0x7f⟩, ⟨0xc0, 1, 0x80, 0x7ff⟩, ⟨0xe0, 2, 0x800, 0xffff⟩, ⟨0xf0, 3, 0x10000, 0x10ffff⟩]

/-- the sequences of the characters from `first` to `last` -/
def ofRange (first last : Nat) : List ByteSequence :=
  forms.flatMap fun form =>
    let first := max first form.first
    let last := min last form.last
    if first ≤ last then ofValues form.mark form.continuations first last else []

end ByteSequence

/-- the sequences of a set of characters -/
def Ranges.byteSequences (r : Ranges) : List ByteSequence :=
  r.flatMap fun (first, last) => ByteSequence.ofRange first last

end CodeEditor
