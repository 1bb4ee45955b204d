import CodeEditor.Pattern.Regex
import CodeEditor.Proofs.Pattern.Matcher
/-!
Quoted texts as patterns.

A quoted text is read as one literal for each of its characters (`run?_quote`), and is always a pattern: these
literals one after the other (`parse?_quote`). Each of them reads a character, so the pattern of a text that is not
empty has no empty match.
-/

namespace CodeEditor.Pattern

/-- characters with a meaning of their own at the start of a part -/
def metaCharacters : List Char :=
  ['\\', '.', '+', '*', '?', '(', ')', '|', '[', ']', '{', '}', '^', '$', '#', '&', '-', '~']

theorem quote_cons (c : Char) (t : Text) :
    Escape.quote (c :: t) = (if metaCharacters.contains c then ['\\', c] else [c]) ++ Escape.quote t :=
  List.flatMap_cons

namespace Reader

/-- a character without a meaning of its own is a literal -/
theorem step?_plain [UnicodeClasses] (r : Reader) {c : Char} (h : metaCharacters.contains c = false) (t : Text) :
    r.step? c t = some (r.push (literal r.flags c) 0, t) := by
  simp only [metaCharacters, List.contains_eq_mem, List.mem_cons, decide_eq_false_iff_not, not_or] at h
  unfold step?
  split <;> simp_all

/-- behind a backslash, the other characters are literals, too -/
theorem step?_escaped [UnicodeClasses] (r : Reader) {c : Char} (h : metaCharacters.contains c = true) (t : Text) :
    r.step? '\\' (c :: t) = some (r.push (literal r.flags c) 0, t) := by
  have hread : Escape.read? r.flags (c :: t) = some (.literal c false, t) := by
    simp only [metaCharacters, List.contains_eq_mem, List.mem_cons, List.not_mem_nil, or_false, decide_eq_true_eq] at h
    rcases h with rfl | rfl | rfl | rfl | rfl | rfl | rfl | rfl | rfl | rfl | rfl | rfl | rfl | rfl | rfl | rfl | rfl |
      rfl <;> rfl
  simp [step?, hread, escape?]

/-- **A quoted text is read as its characters.** -/
theorem run?_quote [UnicodeClasses] (r : Reader) (hfree : r.flags.freeSpacing = false) (t : Text) :
    r.run? (Escape.quote t) =
      some { r with items := (t.map fun c => .node ⟨literal r.flags c, 0⟩).reverse ++ r.items } := by
  induction t generalizing r with
  | nil =>
    rw [Escape.quote, List.flatMap_nil, run?]
    simp [skip, hfree]
  | cons c t ih =>
    have hpush := ih (r.push (literal r.flags c) 0) hfree
    rw [quote_cons]
    cases hmeta : metaCharacters.contains c with
    | true =>
      rw [run?]
      simp only [skip, hfree, Bool.false_eq_true, if_false, if_true, List.cons_append, List.nil_append,
        r.step?_escaped hmeta]
      rw [if_pos (by simp only [List.length_cons]; omega), hpush]
      simp [push]
    | false =>
      rw [run?]
      simp only [skip, hfree, Bool.false_eq_true, if_false, List.cons_append, List.nil_append, r.step?_plain hmeta]
      rw [if_pos (by simp only [List.length_cons]; omega), hpush]
      simp [push]

end Reader

/-- the pattern reads one character of a set -/
def IsSet (p : Pattern) : Prop :=
  ∃ s, p = .set s

theorem isSet_literal (f : Flags) (c : Char) : (Reader.literal f c).IsSet := by
  unfold Reader.literal
  split_ifs <;> exact ⟨_, rfl⟩

theorem isSet_of_mem_literals (f : Flags) (t : Text) : ∀ p ∈ t.map (Reader.literal f), p.IsSet := by
  intro p hp
  obtain ⟨c, -, rfl⟩ := List.mem_map.1 hp
  exact isSet_literal f c

open Matching in
/-- a concatenation of sets reads a character for the first of them -/
theorem reads_ofFactors {ps : List Pattern} (hne : ps ≠ []) (hsets : ∀ p ∈ ps, p.IsSet) (choice : Nat) :
    Reads 1 ((ofFactors ps).matcher choice) := by
  cases ps with
  | nil => exact absurd rfl hne
  | cons p ps =>
    obtain ⟨s, rfl⟩ := hsets p List.mem_cons_self
    cases ps with
    | nil => exact reads_char s
    | cons q ps => exact reads_andThen (reads_char s) (reads_matcher _ _)

/-- a list of sets is its own list of factors -/
theorem factors_of_sets {ps : List Pattern} (hsets : ∀ p ∈ ps, p.IsSet) : ps.flatMap factors = ps := by
  induction ps with
  | nil => rfl
  | cons p ps ih =>
    obtain ⟨s, rfl⟩ := hsets p List.mem_cons_self
    rw [List.flatMap_cons, ih fun q hq => hsets q (List.mem_cons_of_mem _ hq)]
    rfl

/-- a finished concatenation of sets, the latest first -/
theorem concat_of_sets {items : List Item} (hsets : ∀ p ∈ items.reverse.map fun item => item.sized.value, p.IsSet) :
    (Reader.concat items).value = ofFactors (items.reverse.map fun item => item.sized.value) := by
  unfold Reader.concat
  split
  · rfl
  · rfl
  · dsimp only
    rw [List.map_map]
    exact congrArg ofFactors (factors_of_sets hsets)

/-- a finished concatenation of leaves is one level high at most -/
theorem height_concat_le {items : List Item} (h : ∀ item ∈ items, item.sized.height = 0) :
    (Reader.concat items).height ≤ 1 := by
  have hzero (n : Nat) : (List.replicate n 0).foldl max 0 = 0 := by
    induction n with
    | zero => rfl
    | succ n ih => rw [List.replicate_succ, List.foldl_cons, Nat.max_self, ih]
  unfold Reader.concat
  split
  · exact Nat.zero_le _
  · rw [h _ (List.mem_singleton_self _)]
    exact Nat.zero_le _
  · have hheights : (items.reverse.map Item.sized).map Sized.height = List.replicate items.length 0 := by
      rw [List.map_map, List.eq_replicate_iff, List.length_map, List.length_reverse]
      refine ⟨rfl, fun n hn => ?_⟩
      obtain ⟨item, hitem, rfl⟩ := List.mem_map.1 hn
      exact h item (List.mem_reverse.1 hitem)
    dsimp only
    rw [heightOver, hheights, hzero]

/-- **A quoted text is a pattern**: one literal for each character. -/
theorem parse?_quote [UnicodeClasses] {f : Flags} (hfree : f.freeSpacing = false) (t : Text) :
    parse? f (Escape.quote t) = some (ofFactors (t.map (Reader.literal f)), []) := by
  set items := (t.map fun c => Item.node ⟨Reader.literal f c, 0⟩).reverse with hitems
  have hrun : (Reader.initial f).run? (Escape.quote t) = some { Reader.initial f with items } := by
    rw [Reader.run?_quote _ hfree, hitems]
    simp [Reader.initial]
  have hvalues : items.reverse.map (fun item : Item => item.sized.value) = t.map (Reader.literal f) := by
    rw [hitems, List.reverse_reverse, List.map_map]
    rfl
  have hvalue : (Reader.concat items).value = ofFactors (t.map (Reader.literal f)) := by
    rw [concat_of_sets (hvalues ▸ isSet_of_mem_literals f t), hvalues]
  have hheight : (Reader.concat items).height ≤ maxHeight := by
    refine (height_concat_le fun item hitem => ?_).trans (by decide)
    obtain ⟨c, -, rfl⟩ := List.mem_map.1 (List.mem_reverse.1 hitem)
    rfl
  rw [parse?, hrun, Option.bind_some, ← hvalue]
  exact if_pos (decide_eq_true hheight)

end CodeEditor.Pattern
