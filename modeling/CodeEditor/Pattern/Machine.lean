import CodeEditor.Text.Utf8
import Std.Data.HashMap
/-!
Machines that patterns are compiled to, as far as their size goes.

A machine is a list of states, built from left to right for a search forward and from right to left for a search
backward. Every state takes `stateSize` bytes; a state that chooses among byte ranges and a state that chooses among
other states take more for each of their ways on. A machine that outgrows `maxSize` is not built.

What matters of a machine while it is built is how many states it has, and the bytes beside them (`Machine`). A set of
characters beyond ASCII is read byte by byte, by states that are shared where possible. Which ones are shared is told by
a table with one place for each value of a hash (`place`): an entry is lost when another one comes to its place, and
then the same state is built again.
-/

namespace CodeEditor

/-- a machine under construction -/
structure Machine where
  states : Nat
  /-- bytes beside those of the states -/
  extra : Nat
  deriving DecidableEq, Repr

/-- the direction of a search -/
inductive Direction where
  | forward
  | backward
  deriving DecidableEq, Repr

namespace Machine

/-- bytes of a state -/
def stateSize : Nat := 32

/-- bytes of a way on by a byte range -/
def transitionSize : Nat := 8

/-- bytes of a way on of a choice -/
def choiceSize : Nat := 4

/-- the largest machine -/
def maxSize : Nat := 10 * 1024 * 1024

/-- nothing built yet -/
def empty : Machine :=
  ⟨0, 0⟩

/-- bytes of the whole machine -/
def size (m : Machine) : Nat :=
  m.states * stateSize + m.extra

/-- the machine, if it is not too large -/
def checked? (m : Machine) : Option Machine :=
  if m.size ≤ maxSize then some m else none

/-- more states, with bytes beside them -/
def add (m : Machine) (states extra : Nat) : Machine :=
  ⟨m.states + states, m.extra + extra⟩

/-! ## Sharing states -/

/-- the place of some numbers in a table: their hash of Fowler, Noll and Vo, reduced to the number of places -/
def place (places : UInt64) (numbers : List Nat) : UInt64 :=
  numbers.foldl (fun h n => (h ^^^ n.toUInt64) * 1099511628211) 14695981039346656037 % places

/-- on a byte of a range, go on to a state -/
structure Transition where
  bytes : ByteRange
  target : Nat
  deriving DecidableEq, Repr

/-- states under construction, and a table of keys with the state that each one stands for -/
structure Shared (Key : Type) where
  machine : Machine
  table : Std.HashMap UInt64 (Key × Nat)

/-- a new state for a key, with bytes beside it; the table forgets what was at the place -/
def Shared.add {Key : Type} (b : Shared Key) (slot : UInt64) (key : Key) (extra : Nat) : Nat × Shared Key :=
  let state := b.machine.states
  (state, ⟨b.machine.add 1 extra, b.table.insert slot (key, state)⟩)

/-- the state of a key: that of the table, or else a new one with bytes beside it. `numbers` is
the key as it is hashed -/
def Shared.state {Key : Type} [DecidableEq Key] (b : Shared Key) (places : UInt64) (numbers : List Nat) (key : Key)
    (extra : Nat) : Nat × Shared Key :=
  let slot := place places numbers
  match b.table[slot]? with
  | some (known, state) => if known = key then (state, b) else b.add slot key extra
  | none => b.add slot key extra

/-! ## Reading bytes forward

Sequences come in the order of their characters, so two that follow one another have a common start. The states on
the way of the last sequence are kept as drafts; where a new sequence leaves that way, the drafts behind are
finished, the last one first.
-/

/-- a state not finished yet: its transitions, the latest first, and the bytes of the one whose
target is still a draft -/
structure Draft where
  finished : List Transition
  pending : Option ByteRange

/-- places of the table of states -/
def statePlaces : UInt64 := 10000

/-- the state with these transitions -/
def stateOf (b : Shared (List Transition)) (ts : List Transition) : Nat × Shared (List Transition) :=
  b.state statePlaces (ts.flatMap fun t => [t.bytes.1, t.bytes.2, t.target]) ts (ts.length * transitionSize)

/-- the transitions of a draft whose pending one goes to `target` -/
def Draft.close (d : Draft) (target : Nat) : List Transition :=
  match d.pending with
  | none => d.finished
  | some bytes => ⟨bytes, target⟩ :: d.finished

/-- finish drafts; the last one goes to `target` -/
def finish (target : Nat) (b : Shared (List Transition)) : List Draft → Nat × Shared (List Transition)
  | [] => (target, b)
  | d :: ds =>
    let (next, b) := finish target b ds
    stateOf b (d.close next).reverse

/-- lead the drafts along a sequence -/
def follow (target : Nat) (b : Shared (List Transition)) :
    List Draft → ByteSequence → List Draft × Shared (List Transition)
  | d :: ds, bytes :: rest =>
    if d.pending == some bytes then
      let (ds, b) := follow target b ds rest
      (d :: ds, b)
    else
      let (next, b) := finish target b ds
      (⟨d.close next, some bytes⟩ :: rest.map (⟨[], some ·⟩), b)
  | ds, _ => (ds, b)

/-- read a character of a set, forward -/
def addForward (m : Machine) (sequences : List ByteSequence) : Machine :=
  let target := m.states
  let (drafts, b) := sequences.foldl (fun (ds, b) s => follow target b ds s) ([⟨[], none⟩], ⟨m.add 1 0, ∅⟩)
  (finish target b drafts).2.machine

/-! ## Reading bytes backward

A choice leads to the last byte of each sequence, and all sequences end in one state. Ways to that end are shared.
-/

/-- places of the table of ways to the end -/
def wayPlaces : UInt64 := 1000

/-- the state that reads a byte sequence from its end, and then goes on to `target` -/
def wayOf (b : Shared (Nat × ByteRange)) (target : Nat) : ByteSequence → Nat × Shared (Nat × ByteRange)
  | [] => (target, b)
  | bytes :: rest =>
    let (state, b) := b.state wayPlaces [target, bytes.1, bytes.2] (target, bytes) 0
    wayOf b state rest

/-- read a character of a set, backward -/
def addBackward (m : Machine) (sequences : List ByteSequence) : Machine :=
  let m := m.add 2 (sequences.length * choiceSize)
  (sequences.foldl (fun b s => (wayOf b (m.states - 1) s).2) (⟨m, ∅⟩ : Shared (Nat × ByteRange))).machine

/-- read a character of a set; a set within ASCII takes one state to choose by and one to go on to -/
def addSet (m : Machine) (direction : Direction) (ranges : Ranges) (sequences : List ByteSequence) : Machine :=
  if ranges.all fun r => r.2 < 0x80 then m.add 2 (ranges.length * transitionSize)
  else match direction with
    | .forward => m.addForward sequences
    | .backward => m.addBackward sequences

end Machine

end CodeEditor
