import CodeEditor.Proofs.Pattern.Renumber
/-!
Following the tries of a matcher.

A try may find a choice marked, and then fails there. The marks that matter are those that lie ahead: at the position
itself of choices not entered yet, and of all choices behind it. As long as none of these is marked (`Clear`), what a
try comes to depends on the text only. The lemmas follow it through each way of putting tries together: it ends in a
match (`EndsIn`), or gives up and leaves the marks clear for the choices that come next (`GivesUp`).
-/

namespace CodeEditor

/-- the point behind some characters that are next -/
def Point.behind (pt : Point) : Text → Point
  | [] => pt
  | c :: t => Point.behind ⟨pt.pos + 1, some c, pt.rest.tail, pt.captures⟩ t

namespace Point

theorem pos_behind (pt : Point) (t : Text) : (pt.behind t).pos = pt.pos + t.length := by
  induction t generalizing pt with
  | nil => rfl
  | cons c t ih => rw [behind, ih, List.length_cons, Nat.add_right_comm, ← Nat.add_assoc]

theorem rest_behind (pt : Point) (t : Text) : (pt.behind t).rest = pt.rest.drop t.length := by
  induction t generalizing pt with
  | nil => rfl
  | cons c t ih => rw [behind, ih, List.length_cons, List.drop_tail]

theorem captures_behind (pt : Point) (t : Text) : (pt.behind t).captures = pt.captures := by
  induction t generalizing pt with
  | nil => rfl
  | cons c t ih => rw [behind, ih]

end Point

namespace Matching

variable {base base' n pos pos' choice : Nat} {marks : Visited} {a b : Attempt} {found : Found} {pt : Point}
  {k : Point → Attempt}

/-- no choice is marked behind a position, and from `base` on none at the position itself -/
def Clear (base pos : Nat) (marks : Visited) : Prop :=
  ∀ choice pos', pos < pos' ∨ pos = pos' ∧ base ≤ choice → marks.contains (choice, pos') = false

theorem clear_empty : Clear base pos ∅ :=
  fun _ _ _ => Std.HashSet.contains_empty

theorem Clear.mono (h : Clear base pos marks) (hle : base ≤ base') : Clear base' pos marks := by
  intro choice pos' hahead
  refine h choice pos' (hahead.imp_right fun hhere => ?_)
  exact ⟨hhere.1, hle.trans hhere.2⟩

/-- behind a position all choices are clear -/
theorem Clear.ahead (h : Clear base pos marks) (hlt : pos < pos') : Clear base' pos' marks := by
  intro choice pos'' hahead
  refine h choice pos'' (Or.inl ?_)
  rcases hahead with hbehind | ⟨rfl, -⟩
  · exact hlt.trans hbehind
  · exact hlt

theorem Clear.insert (h : Clear base pos marks) : Clear (base + 1) pos (marks.insert (base, pos)) := by
  intro choice pos' hahead
  rw [Std.HashSet.contains_insert, h.mono (Nat.le_succ base) choice pos' hahead, Bool.or_false, beq_eq_false_iff_ne]
  intro heq
  obtain ⟨rfl, rfl⟩ := Prod.mk.inj heq
  rcases hahead with hlt | ⟨-, hle⟩
  · exact lt_irrefl _ hlt
  · exact absurd hle (Nat.not_succ_le_self _)

/-- from clear marks, the tries end in a match -/
def EndsIn (base pos : Nat) (a : Attempt) (found : Found) : Prop :=
  ∀ marks, Clear base pos marks → (a marks).1 = some found

/-- from clear marks, the tries come to nothing, and no choice from `n` on gets marked -/
def GivesUp (base n pos : Nat) (a : Attempt) : Prop :=
  ∀ marks, Clear base pos marks → (a marks).1 = none ∧ Clear n pos (a marks).2

theorem EndsIn.mono (h : EndsIn base' pos a found) (hle : base ≤ base') : EndsIn base pos a found :=
  fun marks hclear => h marks (hclear.mono hle)

theorem EndsIn.ahead (h : EndsIn base' pos' a found) (hlt : pos < pos') : EndsIn base pos a found :=
  fun marks hclear => h marks (hclear.ahead hlt)

theorem endsIn_arrive : EndsIn base pos (Pattern.arrive pt) ⟨pt.pos, pt.captures⟩ :=
  fun _ _ => rfl

theorem givesUp_fail : GivesUp base base pos fail :=
  fun _ hclear => ⟨rfl, hclear⟩

/-- a choice that is clear is entered, and gets its mark -/
theorem once_of_clear (hclear : Clear base pos marks) (a : Attempt) :
    once base pos a marks = a (marks.insert (base, pos)) := by
  have hunmarked := hclear base pos (Or.inr ⟨rfl, le_rfl⟩)
  rw [once, hunmarked, if_neg Bool.false_ne_true]

/-- what is tried second begins with the marks that the first try has left -/
theorem orElse_of_none (hnone : (a marks).1 = none) (b : Attempt) : orElse a b marks = b (a marks).2 := by
  unfold orElse
  rcases hfirst : a marks with ⟨found?, after⟩
  rw [hfirst] at hnone
  obtain rfl : found? = none := hnone
  rfl

theorem EndsIn.once (h : EndsIn (base + 1) pos a found) : EndsIn base pos (once base pos a) found := by
  intro marks hclear
  rw [once_of_clear hclear]
  exact h _ hclear.insert

theorem GivesUp.once (h : GivesUp (base + 1) n pos a) : GivesUp base n pos (once base pos a) := by
  intro marks hclear
  rw [once_of_clear hclear]
  exact h _ hclear.insert

theorem EndsIn.orElse (h : EndsIn base pos a found) (b : Attempt) : EndsIn base pos (orElse a b) found := by
  intro marks hclear
  have hfound := h marks hclear
  unfold Matching.orElse
  rcases hfirst : a marks with ⟨_ | found', after⟩ <;> rw [hfirst] at hfound
  · cases hfound
  · exact hfound

theorem GivesUp.orElse_endsIn (h : GivesUp base n pos a) (h' : EndsIn n pos b found) :
    EndsIn base pos (orElse a b) found := by
  intro marks hclear
  obtain ⟨hnone, hafter⟩ := h marks hclear
  rw [orElse_of_none hnone]
  exact h' _ hafter

theorem GivesUp.orElse (h : GivesUp base n pos a) (h' : GivesUp n base' pos b) :
    GivesUp base base' pos (orElse a b) := by
  intro marks hclear
  obtain ⟨hnone, hafter⟩ := h marks hclear
  rw [orElse_of_none hnone]
  exact h' _ hafter

/-- a greedy choice goes on if that comes to a match -/
theorem EndsIn.branch_more (h : EndsIn (base + 1) pos a found) (b : Attempt) :
    EndsIn base pos (branch true base pos a b) found :=
  (h.orElse b).once

/-- else it is left -/
theorem GivesUp.branch_leave (h : GivesUp (base + 1) n pos a) (h' : EndsIn n pos b found) :
    EndsIn base pos (branch true base pos a b) found :=
  (h.orElse_endsIn h').once

/-- a lazy choice is left if that comes to a match -/
theorem EndsIn.branch_leave (h : EndsIn (base + 1) pos b found) (a : Attempt) :
    EndsIn base pos (branch false base pos a b) found :=
  (h.orElse a).once

/-- else it goes on -/
theorem GivesUp.branch_more (h : GivesUp (base + 1) n pos b) (h' : EndsIn n pos a found) :
    EndsIn base pos (branch false base pos a b) found :=
  (h.orElse_endsIn h').once

/-! ## Matchers -/

theorem char_cons {s : CharSet} {c : Char} {t : Text} (hrest : pt.rest = c :: t) :
    char s pt k = if s.contains c then k ⟨pt.pos + 1, some c, t, pt.captures⟩ else fail := by
  rw [char, hrest]

theorem char_nil {s : CharSet} (hrest : pt.rest = []) : char s pt k = fail := by
  rw [char, hrest]

/-- a greedy loop goes on as long as its body comes to a match -/
theorem EndsIn.loop_more {body : Matcher}
    (h : EndsIn (base + 1) pt.pos (body pt fun pt' =>
      if pt'.rest.length < pt.rest.length then loop true base body pt' k else fail) found) :
    EndsIn base pt.pos (loop true base body pt k) found := by
  rw [loop]
  exact h.branch_more _

/-- a greedy loop is left where its body gives up -/
theorem GivesUp.loop_leave {body : Matcher}
    (h : GivesUp (base + 1) n pt.pos (body pt fun pt' =>
      if pt'.rest.length < pt.rest.length then loop true base body pt' k else fail))
    (hleave : EndsIn n pt.pos (k pt) found) : EndsIn base pt.pos (loop true base body pt k) found := by
  rw [loop]
  exact h.branch_leave hleave

/-- a lazy loop is left where what follows comes to a match -/
theorem EndsIn.loop_leave {body : Matcher} (h : EndsIn (base + 1) pt.pos (k pt) found) :
    EndsIn base pt.pos (loop false base body pt k) found := by
  rw [loop]
  exact h.branch_leave _

/-- a lazy loop goes on where what follows gives up -/
theorem GivesUp.loop_more {body : Matcher} (h : GivesUp (base + 1) n pt.pos (k pt))
    (hmore : EndsIn n pt.pos (body pt fun pt' =>
      if pt'.rest.length < pt.rest.length then loop false base body pt' k else fail) found) :
    EndsIn base pt.pos (loop false base body pt k) found := by
  rw [loop]
  exact h.branch_more hmore

/-- **A greedy run of a set** takes all characters of the set that are next. By induction on the text -/
theorem endsIn_run (s : CharSet) (pt : Point) :
    EndsIn base pt.pos (loop true base (char s) pt Pattern.arrive)
      ⟨pt.pos + (pt.rest.takeWhile s.contains).length, pt.captures⟩ := by
  obtain ⟨pos, before, rest, captures⟩ := pt
  induction rest generalizing pos before with
  | nil =>
    refine GivesUp.loop_leave (n := base + 1) ?_ endsIn_arrive
    rw [char_nil rfl]
    exact givesUp_fail
  | cons c t ih =>
    by_cases hc : s.contains c = true
    · have hmore : EndsIn (base + 1) pos _ _ := (ih (pos + 1) (some c)).ahead (Nat.lt_succ_self pos)
      rw [Nat.add_assoc, Nat.add_comm 1] at hmore
      refine EndsIn.loop_more ?_
      rw [char_cons rfl, if_pos hc, List.takeWhile_cons_of_pos hc, List.length_cons]
      dsimp only
      rwa [if_pos (Nat.lt_succ_self t.length)]
    · rw [List.takeWhile_cons_of_neg hc]
      refine GivesUp.loop_leave (n := base + 1) ?_ endsIn_arrive
      rw [char_cons rfl, if_neg hc]
      exact givesUp_fail

end Matching

namespace Pattern

open Matching

variable {p : Pattern} {pt : Point} {found : Found}

theorem matchAt?_of_endsIn (h : EndsIn 0 pt.pos (p.matcher 0 pt arrive) found) : p.matchAt? pt = some found :=
  h ∅ clear_empty

/-- something optional is taken or left -/
theorem matcher_optional (greedy : Bool) (p : Pattern) (choice : Nat) (pt : Point) (k : Point → Attempt) :
    (times 0 (some 1) greedy p).matcher choice pt k = branch greedy choice pt.pos (p.matcher (choice + 1) pt k)
    (k pt) := by
  rw [matcher, Nat.zero_mul]
  rfl

/-- some characters, and then a pattern -/
def startingWith (mark : Text) (p : Pattern) : Pattern :=
  mark.foldr (fun c p => seq (set (.char c)) p) p

/-- the pattern is tried behind the characters, if these are next -/
theorem matcher_startingWith (mark : Text) (p : Pattern) (choice : Nat) (pt : Point) (k : Point → Attempt) :
    (startingWith mark p).matcher choice pt k = if mark.isPrefixOf pt.rest then p.matcher choice (pt.behind mark) k
      else fail := by
  induction mark generalizing pt with
  | nil => rfl
  | cons c mark ih =>
    change char (.char c) pt (fun pt' => (startingWith mark p).matcher choice pt' k) = _
    obtain ⟨pos, before, rest, captures⟩ := pt
    cases rest with
    | nil => rfl
    | cons d t =>
      rw [char_cons rfl, List.isPrefixOf_cons_cons, CharSet.contains]
      by_cases hcd : c = d
      · subst hcd
        rw [beq_self_eq_true, if_pos rfl, ih, Bool.true_and]
        rfl
      · rw [beq_false_of_ne hcd, if_neg Bool.false_ne_true, Bool.false_and, if_neg Bool.false_ne_true]

/-- a match of the whole is one of the pattern behind the characters -/
theorem matchAt?_startingWith (mark : Text) (p : Pattern) (pt : Point) :
    (startingWith mark p).matchAt? pt = if mark.isPrefixOf pt.rest then p.matchAt? (pt.behind mark) else none := by
  change ((startingWith mark p).matcher 0 pt arrive ∅).1 = _
  rw [matcher_startingWith]
  split_ifs
  · rfl
  · rfl

end Pattern

end CodeEditor
