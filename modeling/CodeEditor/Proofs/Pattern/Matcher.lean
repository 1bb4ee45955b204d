import CodeEditor.Pattern.Matcher
import Mathlib.Tactic
/-!
How far a match reaches.

A line of tries ends in a match only by calling its continuation, at a point that lies ahead of the one it started from
in the same text (`Leads`). Each way of putting tries together keeps this, so every matcher of a pattern has it
(`reads_matcher`), and a match lies within the text it is searched in (`matchAt?_within`). A pattern whose matcher reads
a character at least has no empty match.
-/

namespace CodeEditor

/-- `n` characters or more ahead, in the same text -/
def Point.Ahead (n : Nat) (pt pt' : Point) : Prop :=
  pt.pos + n ≤ pt'.pos ∧ pt'.pos + pt'.rest.length = pt.pos + pt.rest.length

theorem Point.Ahead.trans {m n : Nat} {pt pt' pt'' : Point} (h : pt.Ahead m pt') (h' : pt'.Ahead n pt'') :
    pt.Ahead (m + n) pt'' := by
  obtain ⟨hle, hlen⟩ := h
  obtain ⟨hle', hlen'⟩ := h'
  exact ⟨by omega, by omega⟩

namespace Matching

variable {n : Nat} {pt : Point} {k : Point → Attempt}

/-- the tries end in a match only through `k`, ahead of `pt` -/
def Leads (n : Nat) (pt : Point) (k : Point → Attempt) (a : Attempt) : Prop :=
  ∀ marks found, (a marks).1 = some found → ∃ pt', pt.Ahead n pt' ∧ ∃ marks', (k pt' marks').1 = some found

/-- the matcher reads `n` characters or more -/
def Reads (n : Nat) (m : Matcher) : Prop :=
  ∀ pt k, Leads n pt k (m pt k)

theorem leads_fail : Leads n pt k fail :=
  fun _ _ h => by cases h

theorem leads_self : Leads 0 pt k (k pt) :=
  fun marks _ h => ⟨pt, ⟨le_rfl, rfl⟩, marks, h⟩

theorem leads_orElse {a b : Attempt} (ha : Leads n pt k a) (hb : Leads n pt k b) : Leads n pt k (orElse a b) := by
  intro marks found h
  unfold orElse at h
  cases hfirst : a marks with
  | mk result marks' =>
    cases result with
    | some found' =>
      simp only [hfirst] at h
      exact ha marks found (by rw [hfirst]; exact h)
    | none =>
      simp only [hfirst] at h
      exact hb marks' found h

theorem leads_once {a : Attempt} (choice pos : Nat) (ha : Leads n pt k a) : Leads n pt k (once choice pos a) := by
  intro marks found h
  unfold once at h
  split_ifs at h with hvisited
  exact ha _ found h

theorem leads_branch {more leave : Attempt} (greedy : Bool) (choice pos : Nat) (hmore : Leads n pt k more)
    (hleave : Leads n pt k leave) : Leads n pt k (branch greedy choice pos more leave) := by
  refine leads_once _ _ ?_
  split_ifs
  · exact leads_orElse hmore hleave
  · exact leads_orElse hleave hmore

/-- a continuation may itself go on reading -/
theorem Leads.trans {m : Nat} {k' : Point → Attempt} {a : Attempt} (ha : Leads m pt k' a)
    (hk : ∀ pt', pt.Ahead m pt' → Leads n pt' k (k' pt')) : Leads (m + n) pt k a := by
  intro marks found h
  obtain ⟨pt', hahead, marks', h'⟩ := ha marks found h
  obtain ⟨pt'', hahead', hfound⟩ := hk pt' hahead marks' found h'
  exact ⟨pt'', hahead.trans hahead', hfound⟩

theorem Leads.mono {m : Nat} {a : Attempt} (h : m ≤ n) (ha : Leads n pt k a) : Leads m pt k a := by
  intro marks found hfound
  obtain ⟨pt', ⟨hle, hlen⟩, hk⟩ := ha marks found hfound
  exact ⟨pt', ⟨by omega, hlen⟩, hk⟩

/-! ## Matchers -/

theorem Reads.mono {m : Nat} {matcher : Matcher} (h : m ≤ n) (hm : Reads n matcher) : Reads m matcher :=
  fun pt k => (hm pt k).mono h

theorem reads_pass : Reads 0 pass :=
  fun _ _ => leads_self

theorem reads_andThen {m : Nat} {first second : Matcher} (hfirst : Reads m first) (hsecond : Reads n second) :
    Reads (m + n) (andThen first second) :=
  fun pt k => (hfirst pt _).trans fun pt' _ => hsecond pt' k

theorem reads_char (s : CharSet) : Reads 1 (char s) := by
  intro pt k
  unfold char
  split
  · exact leads_fail
  · rename_i c rest hrest
    split_ifs
    · refine fun marks found h => ⟨_, ⟨le_rfl, ?_⟩, marks, h⟩
      simp only [hrest, List.length_cons]
      omega
    · exact leads_fail

theorem reads_check (a : Anchor) : Reads 0 (check a) := by
  intro pt k
  unfold check
  split_ifs
  · exact leads_self
  · exact leads_fail

theorem reads_capture (index : Nat) {body : Matcher} (hbody : Reads n body) : Reads n (capture index body) := by
  intro pt k
  refine (hbody pt _).trans (n := 0) fun pt' _ marks found h => ?_
  exact ⟨{ pt' with captures := (index, pt.pos, pt'.pos) :: pt'.captures }, ⟨le_rfl, rfl⟩, marks, h⟩

theorem reads_copies {body : Nat → Matcher} (hbody : ∀ choice, Reads 0 (body choice)) (size count choice : Nat) :
    Reads 0 (copies body size count choice) := by
  induction count generalizing choice with
  | zero => exact reads_pass
  | succ count ih => exact reads_andThen (hbody choice) (ih _)

theorem reads_upTo {body : Nat → Matcher} (hbody : ∀ choice, Reads 0 (body choice)) (greedy : Bool)
    (size count choice : Nat) :
    Reads 0 (upTo greedy body size count choice) := by
  induction count generalizing choice with
  | zero => exact reads_pass
  | succ count ih =>
    intro pt k
    exact leads_branch _ _ _ ((hbody _ pt _).trans (n := 0) fun pt' _ => ih _ pt' k) leads_self

/-- by induction on what is left of the text: a round that reads nothing fails -/
theorem reads_loop {body : Matcher} (hbody : Reads 0 body) (greedy : Bool) (choice : Nat) :
    Reads 0 (loop greedy choice body) := by
  intro pt k
  induction hlen : pt.rest.length using Nat.strong_induction_on generalizing pt with
  | _ len ih =>
    rw [loop]
    refine leads_branch _ _ _ ((hbody pt _).trans (n := 0) fun pt' _ => ?_) leads_self
    split_ifs with hshorter
    · exact ih _ (hlen ▸ hshorter) pt' rfl
    · exact leads_fail

end Matching

namespace Pattern

open Matching

/-- **A matcher never goes back**: it ends in a match only through what follows it, at its start or ahead of it. -/
theorem reads_matcher (p : Pattern) (choice : Nat) : Reads 0 (p.matcher choice) := by
  induction p generalizing choice with
  | empty => exact reads_pass
  | set s => exact (reads_char s).mono (Nat.zero_le 1)
  | anchor a => exact reads_check a
  | seq p q hp hq => exact reads_andThen (hp _) (hq _)
  | alt p q hp hq =>
    intro pt k
    exact leads_once _ _ (leads_orElse (hp _ pt k) (hq _ pt k))
  | times low high greedy p hp =>
    cases high with
    | some high =>
      exact reads_andThen (reads_copies hp _ _ _) (reads_upTo hp _ _ _ _)
    | none =>
      cases low with
      | zero =>
        rw [matcher]
        split_ifs
        · intro pt k
          exact leads_branch _ _ _ (reads_andThen (hp _) (reads_loop (hp _) _ _) pt k) leads_self
        · exact reads_loop (hp _) _ _
      | succ low =>
        rw [matcher]
        exact reads_andThen (reads_copies hp _ _ _) (reads_andThen (hp _) (reads_loop (hp _) _ _))
  | group index p hp => exact reads_capture index (hp _)

/-- **A match lies in its text**, and is as long as its matcher reads at least. -/
theorem matchAt?_within {p : Pattern} {n : Nat} (hreads : Reads n (p.matcher 0)) {pt : Point} {found : Found}
    (h : p.matchAt? pt = some found) : pt.pos + n ≤ found.stop ∧ found.stop ≤ pt.pos + pt.rest.length := by
  obtain ⟨pt', ⟨hle, hlen⟩, marks, hfound⟩ := hreads pt _ ∅ found h
  obtain rfl := Option.some.inj hfound
  exact ⟨hle, by simp only; omega⟩

end Pattern

end CodeEditor
