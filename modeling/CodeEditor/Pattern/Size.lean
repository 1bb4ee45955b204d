import CodeEditor.Pattern.Machine
import CodeEditor.Pattern.Normal
/-!
How large a pattern is once compiled.

A pattern is compiled to two machines, one for each direction of a search, and is refused if one of them is too large
(`Pattern.fits`). What a machine is built of is laid down first (`Blueprint`): copies of a repeated part are built one
by one, and the texts of a choice among texts share their states (`Trie`).
-/

namespace CodeEditor

/-! ## Tries -/

namespace Trie

/-- texts without those that are empty: the stretches before, between and behind the empty ones. Of empty texts that
come first only one counts -/
def stretches : List (List UInt8) → List (List (List UInt8))
  | [] => [[]]
  | text :: texts =>
    match stretches texts with
    | [] => [[]]
    | stretch :: rest =>
      if !text.isEmpty then (text :: stretch) :: rest
      else if stretch.isEmpty && !rest.isEmpty then [] :: rest
      else [] :: stretch :: rest

/-- texts by their first bytes, each group without that byte -/
def byFirst (texts : List (List UInt8)) : List (List (List UInt8)) :=
  (texts.filterMap List.head?).eraseDups.map fun byte =>
    (texts.filter (·.head? == some byte)).map List.tail

/-- the states for texts that are read from one place on, without the place that they end in. Each stretch has a state
to tell the first bytes apart, and a choice holds the stretches together. `fuel` is more than the length of the texts -/
def below : Nat → List (List UInt8) → Machine
  | 0, _ => .empty
  | fuel + 1, texts =>
    if texts.all List.isEmpty then .empty
    else
      let parts := stretches texts
      let first (texts : List (List UInt8)) (m : Machine) : Machine :=
        let groups := byFirst texts
        groups.foldl (fun m group => let n := below fuel group; m.add n.states n.extra)
          (m.add 1 (if groups.length = 1 then 0 else groups.length * Machine.transitionSize))
      let filled := parts.filter (!·.isEmpty)
      filled.foldl (fun m texts => first texts m)
        (Machine.empty.add 1 ((filled.length + (parts.length - 1)) * Machine.choiceSize))

/-- the states for a choice among texts -/
def machine (texts : List (List UInt8)) : Machine :=
  (below (texts.foldl (fun n text => max n text.length) 0 + 1) texts).add 1 0

end Trie

/-! ## Blueprints -/

/-- what a machine is built of, in the order of building -/
inductive Blueprint where
  /-- states with bytes beside them -/
  | part (states extra : Nat)
  /-- states that read one character of a set -/
  | set (ranges : Ranges) (sequences : List ByteSequence)
  | both (first second : Blueprint)
  | copies (count : Nat) (p : Blueprint)
  deriving DecidableEq, Repr

namespace Blueprint

/-- states with nothing beside them -/
def plain (count : Nat) : Blueprint :=
  part count 0

/-- one after another -/
def inOrder (ps : List Blueprint) : Blueprint :=
  ps.foldr both (plain 0)

/-- states with a choice between two -/
def fork (count : Nat) : Blueprint :=
  part count (count * (2 * Machine.choiceSize))

/-- a choice; the states of the choice itself come behind its second alternative -/
def choice (ps : List Blueprint) : Blueprint :=
  match ps with
  | [] => plain 0
  | [p] => p
  | p :: q :: rest => inOrder (p :: q :: part 2 (ps.length * Machine.choiceSize) :: rest)

/-- a repetition. What can be repeated without reading anything needs a choice of its own to be left out -/
def times (low : Nat) (high : Option Nat) (isNullable : Bool) (p : Blueprint) : Blueprint :=
  match low, high with
  | 0, none => if isNullable then inOrder [p, fork 2, plain 1] else inOrder [fork 1, p]
  | low, none => inOrder [copies low p, fork 1]
  | 0, some 1 => inOrder [fork 1, p, plain 1]
  | low, some high =>
    if low = high then copies low p
    else inOrder [if low = 0 then plain 1 else copies low p, plain 1, copies (high - low) (both (fork 1) p)]

/-- build a part again and again -/
def buildCopies? (build? : Machine → Option Machine) : Nat → Machine → Option Machine
  | 0, m => some m
  | count + 1, m =>
    match build? m with
    | none => none
    | some m => buildCopies? build? count m

/-- add to a machine, unless it gets too large -/
def build? (direction : Direction) : Blueprint → Machine → Option Machine
  | part states extra, m => (m.add states extra).checked?
  | set ranges sequences, m => (m.addSet direction ranges sequences).checked?
  | both p q, m => (p.build? direction m).bind (q.build? direction)
  | copies count p, m => buildCopies? (p.build? direction) count m

end Blueprint

namespace Pattern

/-! ## Patterns -/

/-- the bytes of a text, if the pattern is one -/
def bytes? : Pattern → Option (List UInt8)
  | set (.char c) => some (String.utf8EncodeChar c)
  | seq p q => p.bytes?.bind fun first => q.bytes?.map (first ++ ·)
  | _ => none

/-- the texts of a choice among texts -/
def texts? : Pattern → Option (List (List UInt8))
  | alt p q => (alt p q).alternatives.mapM bytes?
  | _ => none

/-- the blueprint of a pattern from those of its alternatives; a choice among texts becomes a trie -/
def assemble (direction : Direction) (p : Pattern) (parts : List Blueprint) : Blueprint :=
  match p.texts?, direction with
  | none, _ => .choice parts
  | some texts, .forward => let m := Trie.machine texts; .part m.states m.extra
  | some texts, .backward => let m := Trie.machine (texts.map List.reverse); .part m.states m.extra

/-- the blueprints of the alternatives of a pattern; groups are noted by a search forward only -/
def blueprints (direction : Direction) : Pattern → List Blueprint
  | empty | anchor _ => [.plain 1]
  | set (.char c) => [.plain c.utf8Size]
  | set s => [.set s.ranges s.ranges.byteSequences]
  | seq p q =>
    let p := assemble direction p (p.blueprints direction)
    let q := assemble direction q (q.blueprints direction)
    [match direction with
      | .forward => .both p q
      | .backward => .both q p]
  | alt p q => p.blueprints direction ++ q.blueprints direction
  | times low high _ p => [.times low high p.isNullable (assemble direction p (p.blueprints direction))]
  | group _ p =>
    let p := assemble direction p (p.blueprints direction)
    [match direction with
      | .forward => .inOrder [.plain 1, p, .plain 1]
      | .backward => p]

/-- every match starts where the anchor holds, as far as the form tells -/
def startsAt (a : Anchor) : Pattern → Bool
  | empty | set _ => false
  | anchor b => a == b
  | seq p q => p.startsAt a || (p.isZeroWidth && q.startsAt a)
  | alt p q => p.startsAt a && q.startsAt a
  | times low _ _ p => 0 < low && p.startsAt a
  | group _ p => p.startsAt a

/-- every match ends where the anchor holds, as far as the form tells -/
def endsAt (a : Anchor) : Pattern → Bool
  | empty | set _ => false
  | anchor b => a == b
  | seq p q => q.endsAt a || (q.isZeroWidth && p.endsAt a)
  | alt p q => p.endsAt a && q.endsAt a
  | times low _ _ p => 0 < low && p.endsAt a
  | group _ p => p.endsAt a

/-- how a machine starts: unless it is bound to one end of the text, it can leave out any bytes before a match -/
def lead (isBound : Bool) : Blueprint :=
  if isBound then .plain 1 else .part 3 (2 * Machine.choiceSize + Machine.transitionSize)

/-- the blueprint of the machine of a pattern; the whole match counts as a group -/
def blueprint (direction : Direction) (p : Pattern) : Blueprint :=
  let body := assemble direction p (p.blueprints direction)
  match direction with
  | .forward => .inOrder [lead (p.startsAt .textStart), .plain 1, body, .plain 2]
  | .backward => .inOrder [lead (p.endsAt .textEnd), body, .plain 1]

/-- neither machine of a pattern is too large -/
def fits (p : Pattern) : Bool :=
  ((p.blueprint .forward).build? .forward .empty).isSome && ((p.blueprint .backward).build? .backward .empty).isSome

end Pattern

end CodeEditor
