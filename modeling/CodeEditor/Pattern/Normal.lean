import CodeEditor.Pattern.Basic
/-!
Patterns in normal form.

Written patterns are put together by the functions of this module, and no match is changed by what they do:

- a concatenation leaves out empty parts and holds no concatenation (`inOrder`);
- a choice holds no choice; a choice of characters, or of sets, is one set; and what all alternatives start with is
  taken out in front of it (`oneOf`);
- repeating the empty text more than once adds nothing, and no repetition at all is the empty pattern, whose groups are
  gone (`repeated`);
- a set of one character is that character (`ofSet`).

The normal form is what the size of a pattern is taken of.
-/

namespace CodeEditor.Pattern

/-! ## Sets -/

/-- the pattern of a set; sets with one member or none have one form only -/
def ofSet (s : CharSet) : Pattern :=
  match s.ranges with
  | [] => set .none
  | [(first, last)] => if first = last then set (.char (Char.ofNat first)) else set s
  | _ => set s

/-- the set of a pattern that reads one character -/
def set? : Pattern → Option CharSet
  | set s => some s
  | _ => none

/-- a single character -/
def isChar : Pattern → Bool
  | set (.char _) => true
  | _ => false

/-- a set that is not a single character -/
def isClass : Pattern → Bool
  | set (.char _) => false
  | set _ => true
  | _ => false

/-- the same pattern; sets are the same if they have the same members -/
def same : Pattern → Pattern → Bool
  | empty, empty => true
  | set s, set t => s == t || s.ranges == t.ranges
  | anchor a, anchor b => a == b
  | seq p q, seq p' q' => p.same p' && q.same q'
  | alt p q, alt p' q' => p.same p' && q.same q'
  | times low high greedy p, times low' high' greedy' p' =>
    low == low' && high == high' && greedy == greedy' && p.same p'
  | group index p, group index' p' => index == index' && p.same p'
  | _, _ => false

/-! ## Concatenations -/

/-- the parts of a concatenation -/
def factors : Pattern → List Pattern
  | empty => []
  | seq p q => p.factors ++ q.factors
  | p => [p]

/-- one after another -/
def ofFactors : List Pattern → Pattern
  | [] => empty
  | [p] => p
  | p :: ps => seq p (ofFactors ps)

/-- a concatenation in normal form -/
def inOrder (ps : List Pattern) : Pattern :=
  ofFactors (ps.flatMap factors)

/-- parts of a concatenation, where characters that follow one another count as one part -/
def chunks : List Pattern → List (List Pattern)
  | [] => []
  | p :: ps =>
    match chunks ps with
    | (q :: qs) :: rest => if p.isChar && q.isChar then (p :: q :: qs) :: rest else [p] :: (q :: qs) :: rest
    | rest => [p] :: rest

/-- the same parts -/
def sameChunk (ps qs : List Pattern) : Bool :=
  ps.length == qs.length && (ps.zip qs).all fun (p, q) => p.same q

/-- how many parts two concatenations have in common at their start -/
def sharedStart (first other : List (List Pattern)) : Nat :=
  ((first.zip other).takeWhile fun (ps, qs) => sameChunk ps qs).length

/-! ## Choices -/

/-- the alternatives of a choice -/
def alternatives : Pattern → List Pattern
  | alt p q => p.alternatives ++ q.alternatives
  | p => [p]

/-- one of several, the first preferred -/
def ofAlternatives : List Pattern → Pattern
  | [] => set .none
  | [p] => p
  | p :: ps => alt p (ofAlternatives ps)

/-- number of parts, those inside of others too -/
def weight : Pattern → Nat
  | empty | set _ | anchor _ => 1
  | seq p q | alt p q => 1 + p.weight + q.weight
  | times _ _ _ p | group _ p => 1 + p.weight

/-- a choice in normal form. `fuel` is more than the weight of the alternatives, which gets less when a
common start is taken out -/
def oneOfFrom : Nat → List Pattern → Pattern
  | 0, ps => ofAlternatives ps
  | fuel + 1, ps =>
    let ps := ps.flatMap alternatives
    if ps.length ≤ 1 then ofAlternatives ps
    else if ps.all isChar || ps.all isClass then ofSet (.unionAll (ps.filterMap set?))
    else
      let branches := ps.map fun p => chunks p.factors
      let first := branches.headD []
      let shared := if branches.all (2 ≤ ·.length)
        then branches.foldl (fun n b => min n (sharedStart first b)) first.length else 0
      if shared = 0 then ofAlternatives ps
      else
        inOrder ((first.take shared).flatten ++
          [oneOfFrom fuel (branches.map fun b => ofFactors (b.drop shared).flatten)])

/-- a choice in normal form -/
def oneOf (ps : List Pattern) : Pattern :=
  oneOfFrom (ps.foldl (fun n p => n + p.weight) 1) ps

/-! ## Repetitions -/

/-- a repetition in normal form -/
def repeated (low : Nat) (high : Option Nat) (greedy : Bool) (p : Pattern) : Pattern :=
  let (low, high) := if p.isZeroWidth then (min low 1, some ((high.map (min · 1)).getD 1)) else (low, high)
  if low = 0 && high == some 0 then empty
  else if low = 1 && high == some 1 then p
  else times low high greedy p

end CodeEditor.Pattern
