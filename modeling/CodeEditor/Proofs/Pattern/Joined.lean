import CodeEditor.Proofs.Pattern.Within
import CodeEditor.Pattern.Regex
/-!
Patterns joined to one.

Patterns that are valid alone are joined by bars, each in a group of its own. The joined pattern is read group by group:
each group holds its pattern as it is alone, with other numbers for its groups (`run?_joined`). It is a choice among
these groups, in their order (`parse?_joined`). Two patterns that name a group alike cannot be joined.
-/

namespace CodeEditor.Pattern

open Reader

/-- a pattern that is read to its end alone, and also in front of a closing parenthesis -/
structure Whole [UnicodeClasses] (t : Text) (r : Reader) : Prop where
  path : Path (initial .default) t r
  closed : r.stack = []

/-- a repetition mark repeats nothing at the start of a pattern -/
theorem add?_mark_initial (f : Flags) (low : Nat) (high : Option Nat) (t : Text) :
    (initial f).add? (Part.mark low high t).1 = none := by
  unfold Part.mark
  split <;> rfl

/-- no pattern starts with a question mark -/
theorem Whole.ne_question [UnicodeClasses] {t : Text} {r : Reader} (h : Whole t r) (u : Text) : t ≠ '?' :: u := by
  rintro rfl
  cases h.path with
  | stop hskip => cases (List.cons.inj (hskip [])).1
  | step hskip hread hlt hadd hpath =>
    obtain ⟨rfl, hu⟩ := List.cons.inj (hskip [])
    obtain ⟨rfl, -⟩ := Prod.mk.inj (Option.some.inj (hread []))
    cases hadd.symm.trans (add?_mark_initial _ _ _ _)

/-- without a question mark, a parenthesis opens a group with a number -/
theorem Part.start?_of_ne (f : Flags) {t : Text} (ht : ∀ u, t ≠ '?' :: u) : Part.start? f t = some (.group, t) := by
  rcases t with _ | ⟨c, t⟩
  · rfl
  have hc : ('?' == c) = false := beq_false_of_ne fun hc => ht t (by rw [hc])
  have hmark : ∀ mark : Text, mark.head? = some '?' → mark.isPrefixOf (c :: t) = false := by
    intro mark hhead
    obtain ⟨mark, rfl⟩ := List.head?_eq_some_iff.1 hhead
    rw [List.isPrefixOf_cons_cons, hc, Bool.false_and]
  have hlook : isLookAround (c :: t) = false := by
    simp only [isLookAround, List.any_cons, List.any_nil, Bool.or_false, Bool.or_eq_false_iff]
    exact ⟨hmark _ rfl, hmark _ rfl, hmark _ rfl, hmark _ rfl⟩
  have hafter : ∀ mark : Text, mark.head? = some '?' → Text.after? mark (c :: t) = none := by
    intro mark hhead
    exact if_neg (by rw [hmark mark hhead]; exact Bool.false_ne_true)
  rw [Part.start?, hlook, if_neg Bool.false_ne_true, hafter _ rfl, hafter _ rfl]
  dsimp only [Option.or]
  exact ht

namespace Reader

/-- the reader behind a group that holds what `r` has read -/
def afterGroup (outer r : Reader) : Reader where
  flags := outer.flags
  items := .node ⟨.group (outer.groups + 1) (r.alternatives.value.regroup (outer.groups + 1)),
    1 + r.alternatives.height⟩ :: outer.items
  branches := outer.branches
  stack := outer.stack
  groups := outer.groups + 1 + r.groups
  names := r.names.map (fun name => (name.1, outer.groups + 1 + name.2)) ++ outer.names

variable {outer r : Reader} {t : Text}

theorem closeGroup?_within (hclosed : r.stack = []) : (outer.within r).closeGroup? = some (outer.afterGroup r) := by
  have hstack : (outer.within r).stack =
    ⟨outer.items, outer.branches, outer.flags, some (outer.groups + 1)⟩ :: outer.stack := by
    rw [within, hclosed]
    rfl
  rw [closeGroup?_of_stack hstack, alternatives_within]
  rfl

/-- the parenthesis in front of a pattern opens a group that has a number -/
theorem run?_open [UnicodeClasses] (hflags : outer.flags = .default) (h : Whole t r) (s : Text) :
    outer.run? ('(' :: t ++ ')' :: s) = (outer.within (initial outer.flags)).run? (t ++ ')' :: s) := by
  have hread : Part.read? outer.flags '(' (t ++ ')' :: s) = some (.group, t ++ ')' :: s) := by
    rw [hflags]
    refine Part.start?_of_ne .default fun u hu => ?_
    rcases t with _ | ⟨c, t⟩
    · cases (List.cons.inj hu).1
    · exact h.ne_question t (by rw [(List.cons.inj hu).1])
  refine run?_of_part ?_ hread rfl ?_
  · rw [hflags]
    rfl
  · simp

/-- the names that were given to groups -/
def given (r : Reader) : List Text :=
  r.names.map Prod.fst

theorem isSome_lookup_iff (r : Reader) (name : Text) : (r.names.lookup name).isSome = true ↔ name ∈ r.given := by
  rw [List.lookup_isSome_iff, given, List.mem_map]
  constructor
  · rintro ⟨entry, hentry, hname⟩
    exact ⟨entry, hentry, (beq_iff_eq.1 hname).symm⟩
  · rintro ⟨entry, hentry, rfl⟩
    exact ⟨entry, hentry, beq_self_eq_true _⟩

theorem given_afterGroup (outer r : Reader) : (outer.afterGroup r).given = r.given ++ outer.given := by
  rw [given, afterGroup, List.map_append, List.map_map]
  rfl

/-- **A pattern in a group is read as it is alone**, if the names of its groups are new. -/
theorem run?_group [UnicodeClasses] (hflags : outer.flags = .default) (h : Whole t r)
    (hnew : r.given.Disjoint outer.given) (s : Text) :
    outer.run? ('(' :: t ++ ')' :: s) = (outer.afterGroup r).run? s := by
  have hpath : Path (initial outer.flags) t r := hflags ▸ h.path
  rw [run?_open hflags h, hpath.run?_within, closeGroup?_within h.closed, Option.bind_some]
  intro name hname
  rw [← Bool.not_eq_true, isSome_lookup_iff]
  exact hnew (List.mem_map_of_mem hname)

theorem run?_group_of_known [UnicodeClasses] (hflags : outer.flags = .default) (h : Whole t r)
    (hknown : ¬r.given.Disjoint outer.given) (s : Text) :
    outer.run? ('(' :: t ++ ')' :: s) = none := by
  have hpath : Path (initial outer.flags) t r := hflags ▸ h.path
  rw [run?_open hflags h, hpath.run?_within_of_known (List.append_nil _).symm]
  rw [List.disjoint_left] at hknown
  push Not at hknown
  obtain ⟨name, hname, hused⟩ := hknown
  obtain ⟨entry, hentry, rfl⟩ := List.mem_map.1 hname
  exact ⟨entry, hentry, (isSome_lookup_iff outer entry.1).2 hused⟩

/-- a group is read only if its names are new -/
theorem new_of_run?_group [UnicodeClasses] (hflags : outer.flags = .default) (h : Whole t r) {s : Text} {last : Reader}
    (hrun : outer.run? ('(' :: t ++ ')' :: s) = some last) : r.given.Disjoint outer.given := by
  by_contra hknown
  rw [run?_group_of_known hflags h hknown] at hrun
  cases hrun

theorem finish?_eq_some_iff {p : Pattern} {names : List (Text × Nat)} :
    r.finish? = some (p, names) ↔
      r.stack = [] ∧ r.alternatives.height ≤ maxHeight ∧ p = r.alternatives.value ∧ names = r.names := by
  simp only [finish?, Bool.and_eq_true, List.isEmpty_iff, decide_eq_true_eq, Option.ite_none_right_eq_some,
    Option.some.injEq, Prod.mk.injEq, and_assoc]
  rw [eq_comm (a := r.alternatives.value), eq_comm (a := r.names)]

/-- a bar starts the next alternative -/
def afterBar (r : Reader) : Reader :=
  { r with items := [], branches := concat r.items :: r.branches }

theorem run?_bar [UnicodeClasses] {r : Reader} (hflags : r.flags = .default) (s : Text) :
    r.run? ('|' :: s) = r.afterBar.run? s :=
  run?_of_part (by rw [hflags]; rfl) rfl rfl (by simp)

/-! ## Joined patterns -/

/-- the reader behind a list of groups, with bars between them -/
def afterGroups (outer : Reader) : List Reader → Reader
  | [] => outer
  | [r] => outer.afterGroup r
  | r :: rs => (outer.afterGroup r).afterBar.afterGroups rs

end Reader

/-- patterns joined by bars, each in a group -/
def joined (ts : List Text) : Text :=
  ['|'].intercalate (ts.map fun t => '(' :: t ++ [')'])

theorem joined_singleton (t : Text) : joined [t] = '(' :: t ++ [')'] :=
  List.append_nil _

theorem joined_cons_cons (t u : Text) (ts : List Text) :
    joined (t :: u :: ts) = '(' :: t ++ ')' :: '|' :: joined (u :: ts) := by
  rw [joined, List.map_cons, List.map_cons, List.intercalate_cons_cons,
    ← List.map_cons (f := fun t => '(' :: t ++ [')']), ← joined]
  simp

/-- **Joined patterns are read one after the other**, as they are alone, if no two of them give the same name. -/
theorem run?_joined [UnicodeClasses] {ts : List Text} {rs : List Reader} (h : List.Forall₂ Whole ts rs) (hne : rs ≠ [])
    (outer : Reader) (hflags : outer.flags = .default) (hnew : ∀ r ∈ rs, r.given.Disjoint outer.given)
    (hapart : (rs.map Reader.given).Pairwise List.Disjoint) : outer.run? (joined ts) = some (outer.afterGroups rs) := by
  induction h generalizing outer with
  | nil => exact absurd rfl hne
  | @cons t r ts rs hr hrs ih =>
    have hfirst := hnew r List.mem_cons_self
    obtain ⟨hothers, hapart⟩ := List.pairwise_cons.1 hapart
    cases hrs with
    | nil =>
      rw [joined_singleton, Reader.run?_group hflags hr hfirst]
      refine Reader.run?_of_skip_nil ?_
      rw [Reader.afterGroup, hflags]
      rfl
    | @cons u r' ts rs hr' hrs' =>
      rw [joined_cons_cons, Reader.run?_group hflags hr hfirst, Reader.run?_bar (r := outer.afterGroup r) hflags]
      refine ih (List.cons_ne_nil r' rs) _ hflags (fun q hq => ?_) hapart
      change q.given.Disjoint (outer.afterGroup r).given
      rw [Reader.given_afterGroup, List.disjoint_append_right]
      exact ⟨(hothers q.given (List.mem_map_of_mem hq)).symm, hnew q (List.mem_cons_of_mem r hq)⟩

/-- joined patterns that are read give different names -/
theorem apart_of_run?_joined [UnicodeClasses] {ts : List Text} {rs : List Reader} (h : List.Forall₂ Whole ts rs)
    (outer : Reader) {last : Reader} (hflags : outer.flags = .default) (hrun : outer.run? (joined ts) = some last) :
    (∀ r ∈ rs, r.given.Disjoint outer.given) ∧ (rs.map Reader.given).Pairwise List.Disjoint := by
  induction h generalizing outer with
  | nil => simp
  | @cons t r ts rs hr hrs ih =>
    cases hrs with
    | nil =>
      rw [joined_singleton] at hrun
      simpa using Reader.new_of_run?_group hflags hr hrun
    | @cons u r' ts rs hr' hrs' =>
      rw [joined_cons_cons] at hrun
      have hfirst := Reader.new_of_run?_group hflags hr hrun
      rw [Reader.run?_group hflags hr hfirst, Reader.run?_bar (r := outer.afterGroup r) hflags] at hrun
      obtain ⟨hnew, hapart⟩ := ih (outer.afterGroup r).afterBar hflags hrun
      have hnew : ∀ q ∈ r' :: rs, q.given.Disjoint r.given ∧ q.given.Disjoint outer.given := by
        intro q hq
        have hboth : q.given.Disjoint (outer.afterGroup r).given := hnew q hq
        rwa [Reader.given_afterGroup, List.disjoint_append_right] at hboth
      refine ⟨?_, List.pairwise_cons.2 ⟨?_, hapart⟩⟩
      · intro q hq
        rcases List.mem_cons.1 hq with rfl | hq
        · exact hfirst
        · exact (hnew q hq).2
      · intro names hnames
        obtain ⟨q, hq, rfl⟩ := List.mem_map.1 hnames
        exact (hnew q hq).1.symm

/-! ## The choice among groups -/

/-- the groups that patterns stand in, numbered behind `k` -/
def groupsBehind (k : Nat) : List Reader → List (Sized Pattern)
  | [] => []
  | r :: rs =>
    ⟨.group (k + 1) (r.alternatives.value.regroup (k + 1)), 1 + r.alternatives.height⟩ :: groupsBehind
      (k + 1 + r.groups) rs

theorem length_groupsBehind (k : Nat) (rs : List Reader) : (groupsBehind k rs).length = rs.length := by
  induction rs generalizing k with
  | nil => rfl
  | cons r rs ih => rw [groupsBehind, List.length_cons, List.length_cons, ih]

theorem isGroup_of_mem_groupsBehind {k : Nat} {rs : List Reader} {part : Sized Pattern} (h : part ∈ groupsBehind k rs) :
    ∃ index p, part.value = .group index p := by
  induction rs generalizing k with
  | nil => cases h
  | cons r rs ih =>
    rcases List.mem_cons.1 h with rfl | h
    · exact ⟨_, _, rfl⟩
    · exact ih h

theorem le_foldl_weight (n : Nat) (ps : List Pattern) : n ≤ ps.foldl (fun n p => n + p.weight) n := by
  induction ps generalizing n with
  | nil => exact le_rfl
  | cons p ps ih => exact (Nat.le_add_right n p.weight).trans (ih _)

/-- a choice among groups is in normal form: it has no choices and no sets in it, and its
alternatives have no common start -/
theorem oneOf_groups {ps : List Pattern} (hgroups : ∀ p ∈ ps, ∃ index q, p = .group index q) (hlen : 2 ≤ ps.length) :
    oneOf ps = ofAlternatives ps := by
  obtain ⟨fuel, hfuel⟩ : ∃ fuel, ps.foldl (fun n p => n + p.weight) 1 = fuel + 1 :=
    ⟨_, (Nat.sub_add_cancel (le_foldl_weight 1 ps)).symm⟩
  have halternatives : ps.flatMap alternatives = ps := by
    have hself : ∀ p ∈ ps, alternatives p = [p] := by
      intro p hp
      obtain ⟨index, q, rfl⟩ := hgroups p hp
      rfl
    rw [List.flatMap_congr hself, List.flatMap_singleton']
  cases ps with
  | nil => cases hlen
  | cons p ps =>
    obtain ⟨index, q, rfl⟩ := hgroups p List.mem_cons_self
    rw [oneOf, hfuel, oneOfFrom, halternatives, if_neg (by omega)]
    rfl

theorem parts_afterGroups {rs : List Reader} (hne : rs ≠ []) (outer : Reader) (hitems : outer.items = []) :
    (Reader.concat (outer.afterGroups rs).items :: (outer.afterGroups rs).branches).reverse =
      outer.branches.reverse ++ groupsBehind outer.groups rs := by
  induction rs generalizing outer with
  | nil => exact absurd rfl hne
  | cons r rs ih =>
    cases rs with
    | nil =>
      rw [Reader.afterGroups, Reader.afterGroup, hitems, List.reverse_cons]
      rfl
    | cons r' rs =>
      have hrest := ih (List.cons_ne_nil r' rs) (outer.afterGroup r).afterBar rfl
      have hcons : outer.afterGroups (r :: r' :: rs) = (outer.afterGroup r).afterBar.afterGroups (r' :: rs) := rfl
      rw [hcons, hrest, Reader.afterBar, List.reverse_cons, List.append_assoc, Reader.afterGroup, hitems]
      rfl

theorem stack_afterGroups (outer : Reader) (rs : List Reader) : (outer.afterGroups rs).stack = outer.stack := by
  fun_induction Reader.afterGroups outer rs with
  | case1 => rfl
  | case2 => rfl
  | case3 outer r rs hrs ih => exact ih

/-- the tree of one alternative -/
theorem alternatives_of_part {r : Reader} {part : Sized Pattern}
    (h : (Reader.concat r.items :: r.branches).reverse = [part]) :
    r.alternatives = part := by
  obtain ⟨hlast, hbranches⟩ := List.cons.inj (List.reverse_eq_iff.1 h)
  rw [Reader.alternatives, hbranches]
  exact hlast

/-- the tree of several alternatives -/
theorem alternatives_of_parts {r : Reader} {parts : List (Sized Pattern)}
    (h : (Reader.concat r.items :: r.branches).reverse = parts) (hlen : 2 ≤ parts.length) :
    r.alternatives = ⟨oneOf (parts.map Sized.value), heightOver parts⟩ := by
  subst h
  cases hbranches : r.branches with
  | nil =>
    rw [hbranches] at hlen
    simp at hlen
  | cons branch branches =>
    rw [Reader.alternatives, hbranches]

/-- the pattern that patterns are joined to -/
def joinedPattern (rs : List Reader) : Pattern :=
  ofAlternatives ((groupsBehind 0 rs).map Sized.value)

/-- the height of its tree: one more for each group, and one more for a choice -/
def JoinedHeightFits (rs : List Reader) : Prop :=
  ∀ r ∈ rs, r.alternatives.height + min rs.length 2 ≤ maxHeight

instance (rs : List Reader) : Decidable (JoinedHeightFits rs) :=
  inferInstanceAs (Decidable (∀ r ∈ rs, _))

theorem foldl_max_le_iff (first : Nat) (heights : List Nat) (n : Nat) :
    heights.foldl max first ≤ n ↔ first ≤ n ∧ ∀ height ∈ heights, height ≤ n := by
  induction heights generalizing first with
  | nil => simp
  | cons height heights ih => rw [List.foldl_cons, ih, max_le_iff, and_assoc, List.forall_mem_cons]

theorem heightOver_le_iff (parts : List (Sized Pattern)) (n : Nat) :
    heightOver parts ≤ n + 1 ↔ ∀ part ∈ parts, part.height ≤ n := by
  rw [heightOver, Nat.add_comm, Nat.add_le_add_iff_right, foldl_max_le_iff, List.forall_mem_map]
  exact and_iff_right (Nat.zero_le n)

theorem forall_mem_groupsBehind_iff (k : Nat) (rs : List Reader) (n : Nat) :
    (∀ part ∈ groupsBehind k rs, part.height ≤ n) ↔ ∀ r ∈ rs, 1 + r.alternatives.height ≤ n := by
  induction rs generalizing k with
  | nil => simp [groupsBehind]
  | cons r rs ih => rw [groupsBehind, List.forall_mem_cons, List.forall_mem_cons, ih]

theorem value_alternatives_joined {rs : List Reader} (hne : rs ≠ []) (f : Flags) :
    ((initial f).afterGroups rs).alternatives.value = joinedPattern rs := by
  have hparts := parts_afterGroups hne (initial f) rfl
  rcases rs with _ | ⟨r, _ | ⟨r', rs⟩⟩
  · exact absurd rfl hne
  · rw [alternatives_of_part hparts]
    rfl
  · have hlen : 2 ≤ (groupsBehind 0 (r :: r' :: rs)).length := by
      rw [length_groupsBehind]
      exact Nat.le_add_left 2 rs.length
    rw [alternatives_of_parts hparts hlen]
    refine oneOf_groups (fun p hp => ?_) (by rw [List.length_map]; exact hlen)
    obtain ⟨part, hpart, rfl⟩ := List.mem_map.1 hp
    exact isGroup_of_mem_groupsBehind hpart

theorem height_alternatives_joined_le_iff {rs : List Reader} (hne : rs ≠ []) (f : Flags) :
    ((initial f).afterGroups rs).alternatives.height ≤ maxHeight ↔ JoinedHeightFits rs := by
  have hparts := parts_afterGroups hne (initial f) rfl
  unfold JoinedHeightFits
  rcases rs with _ | ⟨r, _ | ⟨r', rs⟩⟩
  · exact absurd rfl hne
  · rw [alternatives_of_part hparts, List.forall_mem_singleton, Nat.add_comm r.alternatives.height]
    rfl
  · have hlen : 2 ≤ (groupsBehind 0 (r :: r' :: rs)).length := by
      rw [length_groupsBehind]
      exact Nat.le_add_left 2 rs.length
    have htwo : min (r :: r' :: rs).length 2 = 2 := Nat.min_eq_right (Nat.le_add_left 2 rs.length)
    rw [alternatives_of_parts hparts hlen, htwo]
    have hheight := heightOver_le_iff (groupsBehind 0 (r :: r' :: rs)) 249
    rw [forall_mem_groupsBehind_iff] at hheight
    refine hheight.trans (forall₂_congr fun q hq => ?_)
    rw [maxHeight]
    omega

/-- **Joined patterns are a choice among groups**, each of which holds a pattern as it is alone, in their order. They
are a pattern exactly if no two of them name a group alike and the choice is not too high. -/
theorem parse?_joined_eq_some_iff [UnicodeClasses] {ts : List Text} {rs : List Reader} (h : List.Forall₂ Whole ts rs)
    (hne : rs ≠ []) (p : Pattern) :
    (∃ names, parse? .default (joined ts) = some (p, names)) ↔
      p = joinedPattern rs ∧ (rs.map Reader.given).Pairwise List.Disjoint ∧ JoinedHeightFits rs := by
  constructor
  · rintro ⟨names, hparse⟩
    obtain ⟨last, hrun, hlast⟩ := Option.bind_eq_some_iff.1 hparse
    obtain ⟨-, hapart⟩ := apart_of_run?_joined h (initial .default) rfl hrun
    have hread := run?_joined h hne (initial .default) rfl (fun r hr => List.disjoint_nil_right _) hapart
    obtain rfl := Option.some.inj (hread.symm.trans hrun)
    obtain ⟨-, hheight, rfl, -⟩ := Reader.finish?_eq_some_iff.1 hlast
    exact ⟨value_alternatives_joined hne _, hapart, (height_alternatives_joined_le_iff hne _).1 hheight⟩
  · rintro ⟨rfl, hapart, hheight⟩
    have hread := run?_joined h hne (initial .default) rfl (fun r hr => List.disjoint_nil_right _) hapart
    refine ⟨_, (congrArg (Option.bind · finish?) hread).trans (Reader.finish?_eq_some_iff.2 ⟨?_, ?_, ?_, rfl⟩)⟩
    · exact stack_afterGroups _ rs
    · exact (height_alternatives_joined_le_iff hne _).2 hheight
    · exact (value_alternatives_joined hne _).symm

end CodeEditor.Pattern
