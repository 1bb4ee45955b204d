import CodeEditor.Proofs.Pattern.Matcher
import CodeEditor.Proofs.Pattern.Regroup
/-!
Matching a pattern that stands inside of another one.

The same pattern inside of another one has other numbers: those of its groups, and those of its choices, by which the
places already visited are marked. Matching goes on in step with the pattern alone, as long as the marks for its own
choices are the same (`Agree`), and it leaves all other marks as they are (`Frames`). This is kept by every way of
putting tries together (`InStep`), so by the matcher of every pattern (`inStep_matcher`).

In a choice among groups each alternative has marks of its own. So the first pattern that matches alone decides the
match (`matchAt?_ofAlternatives`).
-/

namespace CodeEditor

/-- captures with `k` added to the number of each group -/
def regroupCaptures (k : Nat) (captures : List (Nat × Nat × Nat)) : List (Nat × Nat × Nat) :=
  captures.map fun capture => (k + capture.1, capture.2)

/-- the point with `k` added to the number of each group passed -/
def Point.regroup (k : Nat) (pt : Point) : Point :=
  { pt with captures := regroupCaptures k pt.captures }

namespace Matching

/-- marks that are the same for the choices of a pattern with `size` choices, which are numbered
from `base` on in `inner` -/
def Agree (base size : Nat) (alone inner : Visited) : Prop :=
  ∀ choice pos, choice < size → inner.contains (base + choice, pos) = alone.contains (choice, pos)

/-- marks that are the same for all other choices -/
def Frames (base size : Nat) (before after : Visited) : Prop :=
  ∀ choice pos, ¬(base ≤ choice ∧ choice < base + size) → after.contains (choice, pos) = before.contains (choice, pos)

/-- tries that find the same, up to `f`, and leave the same marks -/
def InStep (base size : Nat) (f : Found → Found) (alone inner : Attempt) : Prop :=
  ∀ marks marks', Agree base size marks marks' →
    (inner marks').1 = (alone marks).1.map f ∧ Agree base size (alone marks).2 (inner marks').2 ∧
      Frames base size marks' (inner marks').2

section

variable {base size k : Nat} {f : Found → Found}

theorem Frames.refl (marks : Visited) : Frames base size marks marks :=
  fun _ _ _ => rfl

theorem Frames.trans {a b c : Visited} (h : Frames base size a b) (h' : Frames base size b c) :
    Frames base size a c := by
  intro choice pos hout
  exact (h' choice pos hout).trans (h choice pos hout)

/-- a mark for the same choice -/
theorem Agree.insert {alone inner : Visited} (h : Agree base size alone inner) (choice pos : Nat) :
    Agree base size (alone.insert (choice, pos)) (inner.insert (base + choice, pos)) := by
  intro choice' pos' hlt
  have hsame : ((base + choice, pos) == (base + choice', pos')) = ((choice, pos) == (choice', pos')) := by
    simp [beq_eq_decide]
  rw [Std.HashSet.contains_insert, Std.HashSet.contains_insert, hsame, h choice' pos' hlt]

theorem frames_insert (marks : Visited) {choice : Nat} (hchoice : choice < size) (pos : Nat) :
    Frames base size marks (marks.insert (base + choice, pos)) := by
  intro choice' pos' hout
  have hother : ((base + choice, pos) == (choice', pos')) = false := by
    rw [beq_eq_false_iff_ne]
    intro heq
    obtain ⟨rfl, -⟩ := Prod.mk.inj heq
    exact hout ⟨Nat.le_add_right base choice, by omega⟩
  rw [Std.HashSet.contains_insert, hother, Bool.false_or]

theorem inStep_fail : InStep base size f fail fail :=
  fun _ marks' h => ⟨rfl, h, .refl marks'⟩

theorem inStep_orElse {a b a' b' : Attempt} (ha : InStep base size f a a') (hb : InStep base size f b b') :
    InStep base size f (orElse a b) (orElse a' b') := by
  intro marks marks' h
  obtain ⟨hfound, hagree, hframes⟩ := ha marks marks' h
  unfold orElse
  rcases hfirst : a marks with ⟨_ | found, after⟩ <;> rcases hfirst' : a' marks' with ⟨_ | found', after'⟩ <;>
    simp only [hfirst, hfirst'] at hfound hagree hframes
  · obtain ⟨hfound', hagree', hframes'⟩ := hb after after' hagree
    exact ⟨hfound', hagree', hframes.trans hframes'⟩
  · cases hfound
  · cases hfound
  · exact ⟨hfound, hagree, hframes⟩

theorem inStep_once {a a' : Attempt} {choice : Nat} (hchoice : choice < size) (pos : Nat)
    (ha : InStep base size f a a') :
    InStep base size f (once choice pos a) (once (base + choice) pos a') := by
  intro marks marks' h
  unfold once
  rw [h choice pos hchoice]
  split_ifs
  · exact ⟨rfl, h, .refl marks'⟩
  · obtain ⟨hfound, hagree, hframes⟩ := ha _ _ (h.insert choice pos)
    exact ⟨hfound, hagree, (frames_insert marks' hchoice pos).trans hframes⟩

theorem inStep_branch {more leave more' leave' : Attempt} (greedy : Bool) {choice : Nat} (hchoice : choice < size)
    (pos : Nat) (hmore : InStep base size f more more') (hleave : InStep base size f leave leave') :
    InStep base size f (branch greedy choice pos more leave) (branch greedy (base + choice) pos more' leave') := by
  refine inStep_once hchoice pos ?_
  split_ifs
  · exact inStep_orElse hmore hleave
  · exact inStep_orElse hleave hmore

/-! ## Matchers -/

/-- matchers that go on in step, if what follows them does -/
def MatchInStep (base size k : Nat) (f : Found → Found) (alone inner : Matcher) : Prop :=
  ∀ pt go go', (∀ pt', InStep base size f (go pt') (go' (pt'.regroup k))) →
    InStep base size f (alone pt go) (inner (pt.regroup k) go')

theorem inStep_pass : MatchInStep base size k f pass pass :=
  fun pt _ _ hgo => hgo pt

theorem inStep_andThen {a b a' b' : Matcher} (ha : MatchInStep base size k f a a')
    (hb : MatchInStep base size k f b b') :
    MatchInStep base size k f (andThen a b) (andThen a' b') :=
  fun pt _ _ hgo => ha pt _ _ fun pt' => hb pt' _ _ hgo

theorem inStep_char (s : CharSet) : MatchInStep base size k f (Matching.char s) (Matching.char s) := by
  intro pt go go' hgo
  unfold Matching.char
  rcases pt with ⟨pos, before, _ | ⟨c, rest⟩, captures⟩
  · exact inStep_fail
  · dsimp only [Point.regroup]
    split_ifs
    · exact hgo ⟨pos + 1, some c, rest, captures⟩
    · exact inStep_fail

theorem inStep_check (a : Anchor) : MatchInStep base size k f (check a) (check a) := by
  intro pt go go' hgo
  change InStep base size f (if _ then _ else _) (if a.holds pt.before pt.rest.head? then _ else _)
  split_ifs
  · exact hgo pt
  · exact inStep_fail

theorem inStep_capture (index : Nat) {a a' : Matcher} (ha : MatchInStep base size k f a a') :
    MatchInStep base size k f (capture index a) (capture (k + index) a') := by
  intro pt go go' hgo
  exact ha pt _ _ fun pt' => hgo { pt' with captures := (index, pt.pos, pt'.pos) :: pt'.captures }

/-- copies are numbered in a row in both places -/
theorem inStep_copies {body body' : Nat → Matcher} {each : Nat}
    (hbody : ∀ choice, choice + each ≤ size → MatchInStep base size k f (body choice) (body' (base + choice)))
    (count choice : Nat) (hfits : choice + count * each ≤ size) :
    MatchInStep base size k f (copies body each count choice) (copies body' each count (base + choice)) := by
  induction count generalizing choice with
  | zero => exact inStep_pass
  | succ count ih =>
    rw [Nat.succ_mul] at hfits
    have hrest := ih (choice + each) (by omega)
    rw [← Nat.add_assoc] at hrest
    exact inStep_andThen (hbody choice (by omega)) hrest

theorem inStep_upTo {body body' : Nat → Matcher} {each : Nat} (greedy : Bool)
    (hbody : ∀ choice, choice + each ≤ size → MatchInStep base size k f (body choice) (body' (base + choice)))
    (count choice : Nat) (hfits : choice + count * (1 + each) ≤ size) :
    MatchInStep base size k f (upTo greedy body each count choice) (upTo greedy body' each count (base + choice)) := by
  induction count generalizing choice with
  | zero => exact inStep_pass
  | succ count ih =>
    rw [Nat.succ_mul] at hfits
    have hrest := ih (choice + 1 + each) (by omega)
    rw [← Nat.add_assoc, ← Nat.add_assoc] at hrest
    have hfirst := hbody (choice + 1) (by omega)
    rw [← Nat.add_assoc] at hfirst
    intro pt go go' hgo
    exact inStep_branch greedy (by omega) pt.pos (hfirst pt _ _ fun pt' => hrest pt' _ _ hgo) (hgo pt)

/-- by induction on what is left of the text -/
theorem inStep_loop {a a' : Matcher} (greedy : Bool) {choice : Nat} (hchoice : choice < size)
    (ha : MatchInStep base size k f a a') :
    MatchInStep base size k f (loop greedy choice a) (loop greedy (base + choice) a') := by
  intro pt go go' hgo
  induction hlen : pt.rest.length using Nat.strong_induction_on generalizing pt with
  | _ len ih =>
    rw [loop, loop]
    refine inStep_branch greedy hchoice pt.pos (ha pt _ _ fun pt' => ?_) (hgo pt)
    change InStep base size f _ (if pt'.rest.length < pt.rest.length then _ else fail)
    split_ifs with hshorter
    · exact ih _ (hlen ▸ hshorter) pt' rfl
    · exact inStep_fail

end

end Matching

namespace Pattern

open Matching

theorem choices_regroup (k : Nat) (p : Pattern) : (p.regroup k).choices = p.choices := by
  induction p with
  | empty | set | anchor => rfl
  | seq p q hp hq | alt p q hp hq => simp only [regroup, choices, hp, hq]
  | times low high greedy p hp =>
    cases high <;> cases low <;> simp only [regroup, choices, hp, isNullable_regroup]
  | group index p hp => simp only [regroup, choices, hp]

/-- **A pattern inside of another one is matched in step with the pattern alone.** -/
theorem inStep_matcher {base size k : Nat} {f : Found → Found} (p : Pattern) (choice : Nat)
    (hfits : choice + p.choices ≤ size) :
    MatchInStep base size k f (p.matcher choice) ((p.regroup k).matcher (base + choice)) := by
  induction p generalizing choice with
  | empty => exact inStep_pass
  | set s => exact inStep_char s
  | anchor a => exact inStep_check a
  | seq p q hp hq =>
    rw [choices] at hfits
    rw [regroup, matcher, matcher, choices_regroup, Nat.add_assoc]
    exact inStep_andThen (hp choice (by omega)) (hq (choice + p.choices) (by omega))
  | alt p q hp hq =>
    rw [choices] at hfits
    rw [regroup, matcher, matcher, choices_regroup]
    have hp' := hp (choice + 1) (by omega)
    have hq' := hq (choice + 1 + p.choices) (by omega)
    rw [← Nat.add_assoc] at hp'
    rw [← Nat.add_assoc, ← Nat.add_assoc] at hq'
    intro pt go go' hgo
    exact inStep_once (by omega) pt.pos (inStep_orElse (hp' pt go go' hgo) (hq' pt go go' hgo))
  | times low high greedy p hp =>
    cases high with
    | some high =>
      rw [choices] at hfits
      rw [regroup, matcher, matcher, choices_regroup, Nat.add_assoc]
      exact inStep_andThen (inStep_copies hp low choice (by omega)) (inStep_upTo greedy hp (high - low) _ (by omega))
    | none =>
      cases low with
      | zero =>
        rw [choices] at hfits
        rw [regroup, matcher, matcher, isNullable_regroup]
        split_ifs at hfits ⊢ with hnullable
        · have hbody := hp (choice + 2) (by omega)
          have hloop := inStep_loop greedy (show choice + 1 < size by omega) hbody
          rw [← Nat.add_assoc] at hbody hloop
          intro pt go go' hgo
          exact inStep_branch greedy (by omega) pt.pos (inStep_andThen hbody hloop pt go go' hgo) (hgo pt)
        · have hbody := hp (choice + 1) (by omega)
          rw [← Nat.add_assoc] at hbody
          exact inStep_loop greedy (by omega) hbody
      | succ low =>
        rw [choices, Nat.succ_mul] at hfits
        rw [regroup, matcher, matcher, choices_regroup]
        have hlast := hp (choice + 1 + low * p.choices) (by omega)
        have hcopies := inStep_copies hp low (choice + 1) (by omega)
        rw [← Nat.add_assoc, ← Nat.add_assoc] at hlast
        rw [← Nat.add_assoc] at hcopies
        exact inStep_andThen hcopies (inStep_andThen hlast (inStep_loop greedy (by omega) hlast))
  | group index p hp =>
    exact inStep_capture index (hp choice hfits)

/-! ## A choice among groups -/

/-- no choice from `base` on was visited yet -/
def Fresh (base : Nat) (marks : Visited) : Prop :=
  ∀ choice pos, base ≤ choice → marks.contains (choice, pos) = false

theorem Fresh.agree {base : Nat} {marks : Visited} (h : Fresh base marks) (size : Nat) : Agree base size ∅ marks := by
  intro choice pos _
  rw [h _ _ (Nat.le_add_right base choice), Std.HashSet.contains_empty]

theorem Fresh.of_frames {base size : Nat} {marks after : Visited} (h : Fresh base marks)
    (hframes : Frames base size marks after) :
    Fresh (base + size) after := by
  intro choice pos hle
  rw [hframes choice pos (by omega), h choice pos (by omega)]

theorem Fresh.insert {base : Nat} {marks : Visited} (h : Fresh base marks) (pos : Nat) :
    Fresh (base + 1) (marks.insert (base, pos)) := by
  intro choice pos' hle
  rw [Std.HashSet.contains_insert, h choice pos' (by omega), Bool.or_false, beq_eq_false_iff_ne]
  intro heq
  have := (Prod.mk.inj heq).1
  omega

/-- the end of a match -/
def arrive (pt : Point) : Attempt :=
  fun marks => (some ⟨pt.pos, pt.captures⟩, marks)

/-- what is found by a pattern that starts at `start` in the group of the number `index` -/
def inGroup (index start : Nat) (found : Found) : Found :=
  ⟨found.stop, (index, start, found.stop) :: regroupCaptures index found.captures⟩

/-- a group finds what its pattern finds alone, and leaves no marks outside of its own choices -/
theorem matcher_group {base : Nat} {marks : Visited} (h : Fresh base marks) (index : Nat) (p : Pattern) {pt : Point}
    (hpt : pt.captures = []) :
    (((group index (p.regroup index)).matcher base) pt arrive marks).1 = (p.matchAt? pt).map (inGroup index pt.pos) ∧
      Fresh (base + p.choices) (((group index (p.regroup index)).matcher base) pt arrive marks).2 := by
  have hend : ∀ pt' : Point, InStep base p.choices (inGroup index pt.pos) (arrive pt')
      (arrive { pt'.regroup index with captures := (index, pt.pos, pt'.pos) :: (pt'.regroup index).captures }) :=
    fun pt' marks marks' hagree => ⟨rfl, hagree, .refl marks'⟩
  have hself : pt.regroup index = pt := by
    obtain ⟨pos, before, rest, captures⟩ := pt
    obtain rfl : captures = [] := hpt
    rfl
  have hmatcher : MatchInStep base p.choices index (inGroup index pt.pos) (p.matcher 0)
    ((p.regroup index).matcher (base + 0)) :=
    inStep_matcher p 0 (Nat.zero_add p.choices).le
  have hstep := hmatcher pt arrive
    (fun pt' => arrive { pt' with captures := (index, pt.pos, pt'.pos) :: pt'.captures }) hend
  rw [hself, Nat.add_zero] at hstep
  obtain ⟨hfound, -, hframes⟩ := hstep ∅ marks (h.agree p.choices)
  exact ⟨hfound, h.of_frames hframes⟩

/-- by induction on the alternatives: what the first one marks are its own choices, so the
others find theirs unmarked -/
theorem matcher_ofAlternatives {parts : List (Nat × Pattern)} (hne : parts ≠ []) {base : Nat} {marks : Visited}
    (h : Fresh base marks) {pt : Point} (hpt : pt.captures = []) :
    ((ofAlternatives (parts.map fun part => group part.1 (part.2.regroup part.1))).matcher base pt arrive marks).1 =
      parts.findSome? fun part => (part.2.matchAt? pt).map (inGroup part.1 pt.pos) := by
  induction parts generalizing base marks with
  | nil => exact absurd rfl hne
  | cons part parts ih =>
    cases parts with
    | nil =>
      rw [List.findSome?_singleton]
      exact (matcher_group h part.1 part.2 hpt).1
    | cons next parts =>
      have hunvisited : marks.contains (base, pt.pos) = false := h base pt.pos le_rfl
      obtain ⟨hfirst, hfresh⟩ := matcher_group (h.insert pt.pos) part.1 part.2 hpt
      have hrest := ih (List.cons_ne_nil next parts) hfresh
      rw [List.findSome?_cons, ← hfirst, ← hrest]
      change (once base pt.pos (orElse _ _) marks).1 = _
      rw [once, hunvisited, if_neg Bool.false_ne_true, orElse, choices, choices_regroup]
      dsimp only
      rcases (group part.1 (regroup part.1 part.2)).matcher (base + 1) pt arrive (marks.insert (base, pt.pos)) with
        ⟨_ | found, after⟩
      · rfl
      · rfl

/-- **The first pattern that matches alone decides a choice among groups.** -/
theorem matchAt?_ofAlternatives {parts : List (Nat × Pattern)} (hne : parts ≠ []) {pt : Point}
    (hpt : pt.captures = []) :
    (ofAlternatives (parts.map fun part => group part.1 (part.2.regroup part.1))).matchAt? pt =
      parts.findSome? fun part => (part.2.matchAt? pt).map (inGroup part.1 pt.pos) :=
  matcher_ofAlternatives hne (show Fresh 0 ∅ from fun _ _ _ => Std.HashSet.contains_empty) hpt

end Pattern

end CodeEditor
