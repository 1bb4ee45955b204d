import Mathlib.Tactic
import CodeEditor.Proofs.Classifier.Scan
import CodeEditor.Proofs.Pattern.Joined
import CodeEditor.Proofs.Pattern.Renumber
/-!
The meaning of joined rules.

A classifier joins the patterns of its rules to one. Each rule keeps its meaning in there, as far as nothing of its
pattern reaches out of its group: a pattern that ends in a comment swallows the closing parenthesis, and two patterns
that give a name alike cannot be joined. The joined pattern has to be within the limits for one pattern. And the rules
are told apart by the numbers of their groups, which the classifier counts: it counts the groups that a pattern has
kept, while the joined pattern numbers all that were opened, also those that no repetition is left of. Under these
conditions classification is the scan of the rules (`rules_keep_their_meaning`), whatever tables of named characters
the patterns are read with.
-/

namespace CodeEditor

open Pattern

theorem Regex.compile?_eq_some_iff [UnicodeClasses] {f : Flags} {t : Text} {r : Regex} :
    Regex.compile? f t = some r ↔ parse? f t = some (r.pattern, r.names) ∧ r.pattern.fits = true := by
  unfold Regex.compile?
  constructor
  · intro h
    split at h
    · cases h
    · rename_i pattern names hparse
      split_ifs at h with hfits
      obtain rfl := Option.some.inj h
      exact ⟨hparse, hfits⟩
  · rintro ⟨hparse, hfits⟩
    rw [hparse]
    exact if_pos hfits

namespace Rule

/-- the reader at the end of a rule's pattern -/
def reader? [UnicodeClasses] (rule : Rule) : Option Reader :=
  (Reader.initial .default).run? rule.pattern

/-- the names that a rule's pattern gives to groups -/
def names [UnicodeClasses] (rule : Rule) : List Text :=
  (rule.reader?.map Reader.given).getD []

/-- number of groups that a rule's pattern opens -/
def opened [UnicodeClasses] (rule : Rule) : Nat :=
  (rule.reader?.map Reader.groups).getD 0

/-- number of groups that are left of them -/
def kept [UnicodeClasses] (rule : Rule) : Nat :=
  ((parse? .default rule.pattern).map fun parsed => parsed.1.groups).getD 0

/-- the rule is accepted -/
def Accepted [UnicodeClasses] (rule : Rule) : Prop :=
  make rule.pattern rule.kind = .ok rule

/-- a parenthesis behind the pattern is not lost in a comment: no group is open there, so it
makes the pattern invalid -/
def ShowsParenthesis [UnicodeClasses] (rule : Rule) : Prop :=
  make (rule.pattern ++ [')']) rule.kind = .error .invalidRule

instance [UnicodeClasses] (rule : Rule) : Decidable rule.Accepted :=
  inferInstanceAs (Decidable (make _ _ = _))

instance [UnicodeClasses] (rule : Rule) : Decidable rule.ShowsParenthesis :=
  inferInstanceAs (Decidable (make _ _ = _))

theorem accepted_iff [UnicodeClasses] {rule : Rule} :
    rule.Accepted ↔ ∃ regex, Regex.compile? .default rule.pattern = some regex := by
  unfold Accepted make
  cases Regex.compile? .default rule.pattern <;> simp

/-- what is read of a pattern that compiles -/
theorem reader?_of_compile? [UnicodeClasses] {rule : Rule} {regex : Regex}
    (h : Regex.compile? .default rule.pattern = some regex) :
    ∃ r, rule.reader? = some r ∧ r.finish? = some (regex.pattern, regex.names) ∧ regex.pattern.fits = true := by
  obtain ⟨hparse, hfits⟩ := Regex.compile?_eq_some_iff.1 h
  obtain ⟨r, hrun, hfinish⟩ := Option.bind_eq_some_iff.1 hparse
  exact ⟨r, hrun, hfinish, hfits⟩

theorem Accepted.exists_reader? [UnicodeClasses] {rule : Rule} (h : rule.Accepted) : ∃ r, rule.reader? = some r := by
  obtain ⟨regex, hregex⟩ := accepted_iff.1 h
  obtain ⟨r, hread, -⟩ := reader?_of_compile? hregex
  exact ⟨r, hread⟩

/-- a pattern that compiles and shows a parenthesis behind it can be put into a group -/
theorem whole_of_compile? [UnicodeClasses] {rule : Rule} {regex : Regex}
    (h : Regex.compile? .default rule.pattern = some regex) (hshows : rule.ShowsParenthesis) :
    ∃ r, rule.reader? = some r ∧ Whole rule.pattern r ∧ regex.pattern = r.alternatives.value := by
  obtain ⟨r, hrun, hfinish, hfits⟩ := reader?_of_compile? h
  obtain ⟨hclosed, -, hpattern, -⟩ := Reader.finish?_eq_some_iff.1 hfinish
  refine ⟨r, hrun, ⟨?_, hclosed⟩, hpattern⟩
  rcases Reader.run?_cases hrun with hpath | hcomment
  · exact hpath
  · have hlost : Regex.compile? .default (rule.pattern ++ [')']) = some regex :=
      Regex.compile?_eq_some_iff.2 ⟨(congrArg (Option.bind · Reader.finish?) hcomment).trans hfinish, hfits⟩
    unfold ShowsParenthesis make at hshows
    rw [hlost] at hshows
    cases hshows

end Rule

namespace Classifier

/-- the readers at the ends of some rules' patterns -/
def readers [UnicodeClasses] (rules : List Rule) : List Reader :=
  rules.filterMap Rule.reader?

/-- the joined pattern is within the limits for one pattern: those for the height of its tree and for
the size of its machines -/
def WithinLimits [UnicodeClasses] (rules : List Rule) : Prop :=
  JoinedHeightFits (readers rules) ∧ (joinedPattern (readers rules)).fits = true

/-- every rule but the last has kept the groups it opens -/
def KeepGroups [UnicodeClasses] (rules : List Rule) : Prop :=
  ∀ rule ∈ rules.dropLast, rule.kept = rule.opened

instance [UnicodeClasses] (rules : List Rule) : Decidable (KeepGroups rules) :=
  inferInstanceAs (Decidable (∀ rule ∈ rules.dropLast, _))

/-- the numbers that a classifier gives to the groups of its rules -/
def numbersFrom [UnicodeClasses] (next : Nat) : List Rule → List (Nat × SpanKind)
  | [] => []
  | rule :: rules => (next, rule.kind) :: numbersFrom (next + 1 + rule.kept) rules

theorem groupsFrom_eq [UnicodeClasses] {rules : List Rule} (h : ∀ rule ∈ rules, rule.Accepted) (next : Nat) :
    groupsFrom next rules = .ok (numbersFrom next rules) := by
  induction rules generalizing next with
  | nil => rfl
  | cons rule rules ih =>
    obtain ⟨regex, hregex⟩ := Rule.accepted_iff.1 (h rule List.mem_cons_self)
    have hrest := ih (fun rule hrule => h rule (List.mem_cons_of_mem _ hrule)) (next + 1 + rule.kept)
    have hkept : rule.kept = regex.pattern.groups := by
      rw [Rule.kept, (Regex.compile?_eq_some_iff.1 hregex).1]
      rfl
    rw [hkept] at hrest
    simp only [groupsFrom, hregex, hrest, numbersFrom, hkept]

/-- rules are put together if their joined pattern compiles -/
theorem make_eq_ok_iff [UnicodeClasses] {rules : List Rule} (h : ∀ rule ∈ rules, rule.Accepted) (hne : rules ≠ [])
    (c : Classifier) :
    make rules = .ok c ↔ ∃ r, Regex.compile? .default (join rules) = some r ∧ c = ⟨some r, numbersFrom 1 rules⟩ := by
  have hempty : rules.isEmpty = false := List.isEmpty_eq_false_iff.2 hne
  unfold make
  rw [hempty, if_neg Bool.false_ne_true, groupsFrom_eq h]
  dsimp only
  cases Regex.compile? .default (join rules) with
  | none => simp
  | some r => simp [eq_comm]

theorem join_eq_joined (rules : List Rule) : join rules = joined (rules.map Rule.pattern) := by
  rw [join, joined, List.map_map]
  rfl

theorem forall₂_whole [UnicodeClasses] {rules : List Rule} (haccepted : ∀ rule ∈ rules, rule.Accepted)
    (hshows : ∀ rule ∈ rules, rule.ShowsParenthesis) :
    List.Forall₂ Whole (rules.map Rule.pattern) (readers rules) := by
  induction rules with
  | nil => exact .nil
  | cons rule rules ih =>
    obtain ⟨regex, hregex⟩ := Rule.accepted_iff.1 (haccepted rule List.mem_cons_self)
    obtain ⟨r, hread, hwhole, -⟩ := Rule.whole_of_compile? hregex (hshows rule List.mem_cons_self)
    have hrest := ih (fun rule hrule => haccepted rule (List.mem_cons_of_mem _ hrule)) fun rule hrule =>
      hshows rule (List.mem_cons_of_mem _ hrule)
    rw [readers, List.filterMap_cons_some hread]
    exact .cons hwhole hrest

theorem readers_ne_nil [UnicodeClasses] {rules : List Rule} (haccepted : ∀ rule ∈ rules, rule.Accepted)
    (hne : rules ≠ []) : readers rules ≠ [] := by
  obtain ⟨rule, rest, rfl⟩ := List.exists_cons_of_ne_nil hne
  obtain ⟨r, hread⟩ := (haccepted rule List.mem_cons_self).exists_reader?
  rw [readers, List.filterMap_cons_some hread]
  exact List.cons_ne_nil _ _

theorem map_given_readers [UnicodeClasses] {rules : List Rule} (haccepted : ∀ rule ∈ rules, rule.Accepted) :
    (readers rules).map Reader.given = rules.map Rule.names := by
  induction rules with
  | nil => rfl
  | cons rule rules ih =>
    obtain ⟨r, hread⟩ := (haccepted rule List.mem_cons_self).exists_reader?
    have hnames : rule.names = r.given := by
      rw [Rule.names, hread]
      rfl
    rw [readers, List.filterMap_cons_some hread, List.map_cons, List.map_cons, hnames, ← readers,
      ih fun rule hrule => haccepted rule (List.mem_cons_of_mem _ hrule)]

/-- **Rules that are accepted are put together** exactly if no two of them name a group alike and their joined pattern
is within the limits. -/
theorem exists_make_iff [UnicodeClasses] {rules : List Rule} (haccepted : ∀ rule ∈ rules, rule.Accepted)
    (hshows : ∀ rule ∈ rules, rule.ShowsParenthesis) :
    (∃ c, make rules = .ok c) ↔ (rules.map Rule.names).Pairwise List.Disjoint ∧ WithinLimits rules := by
  by_cases hne : rules = []
  · subst hne
    refine iff_of_true ⟨_, rfl⟩ ⟨List.Pairwise.nil, List.forall_mem_nil _, ?_⟩
    cbv
  have hwhole := forall₂_whole haccepted hshows
  have hreaders := readers_ne_nil haccepted hne
  have hparse := parse?_joined_eq_some_iff hwhole hreaders
  rw [map_given_readers haccepted, ← join_eq_joined] at hparse
  constructor
  · rintro ⟨c, hc⟩
    obtain ⟨r, hr, -⟩ := (make_eq_ok_iff haccepted hne c).1 hc
    obtain ⟨hjoined, hfits⟩ := Regex.compile?_eq_some_iff.1 hr
    obtain ⟨hpattern, hapart, hheight⟩ := (hparse r.pattern).1 ⟨r.names, hjoined⟩
    exact ⟨hapart, hheight, hpattern ▸ hfits⟩
  · rintro ⟨hapart, hheight, hfits⟩
    obtain ⟨names, hjoined⟩ := (hparse _).2 ⟨rfl, hapart, hheight⟩
    exact ⟨_, (make_eq_ok_iff haccepted hne _).2
      ⟨⟨_, names⟩, Regex.compile?_eq_some_iff.2 ⟨hjoined, hfits⟩, rfl⟩⟩

/-! ## The kind of a match -/

/-- the patterns of some readers, numbered as their groups are in the joined pattern -/
def partsBehind (k : Nat) : List Reader → List (Nat × Pattern)
  | [] => []
  | r :: rs => (k + 1, r.alternatives.value) :: partsBehind (k + 1 + r.groups) rs

theorem value_groupsBehind (k : Nat) (rs : List Reader) :
    (groupsBehind k rs).map Sized.value = (partsBehind k rs).map fun part => .group part.1 (part.2.regroup part.1) := by
  induction rs generalizing k with
  | nil => rfl
  | cons r rs ih => rw [groupsBehind, partsBehind, List.map_cons, List.map_cons, ih]

/-- the groups passed inside of a group have no smaller numbers -/
theorem lookup_captures_of_lt {n index : Nat} (h : n < index) (start : Nat) (found : Found) :
    (inGroup index start found).captures.lookup n = none := by
  rw [List.lookup_eq_none_iff]
  intro capture hcapture
  rw [bne_iff_ne]
  rcases List.mem_cons.1 hcapture with rfl | hinner
  · exact h.ne
  · obtain ⟨capture', -, rfl⟩ := List.mem_map.1 hinner
    dsimp only
    omega

/-- the first group of a match tells its kind: the groups of the rules before it have smaller numbers -/
theorem kindOf?_inGroup {c : Classifier} {before after : List (Nat × SpanKind)} {index : Nat} {kind : SpanKind}
    (hgroups : c.groups = before ++ (index, kind) :: after) (hindex : 0 < index)
    (hbefore : ∀ group ∈ before, 0 < group.1 ∧ group.1 < index) (start : Nat) (found : Found) :
    c.kindOf? ⟨start, found.stop, (inGroup index start found).captures⟩ = some kind := by
  have hnone :
      before.find? (fun group =>
        (Match.group? ⟨start, found.stop, (inGroup index start found).captures⟩ group.1).isSome) = none := by
    rw [List.find?_eq_none]
    intro group hgroup
    obtain ⟨hpos, hlt⟩ := hbefore group hgroup
    rw [Match.group?, if_neg hpos.ne', lookup_captures_of_lt hlt]
    exact Bool.false_ne_true
  have hself : (Match.group? ⟨start, found.stop, (inGroup index start found).captures⟩ index).isSome = true := by
    rw [Match.group?, if_neg hindex.ne', inGroup, List.lookup_cons, beq_self_eq_true]
    rfl
  rw [kindOf?, hgroups, List.find?_append, hnone, Option.none_or, List.find?_cons, hself]
  rfl

/-- what the first of the patterns finds that finds anything at an offset, in the group of that pattern -/
def foundIn? (parts : List (Nat × Pattern)) (t : Text) (offset : Nat) : Option Found :=
  parts.findSome? fun part => (part.2.matchAt? ⟨offset, Regex.before? t offset, t.drop offset, []⟩).map
    (inGroup part.1 offset)

/-- the match of what is found at an offset -/
def matchOf (offset : Nat) (found : Found) : Match :=
  ⟨offset, found.stop, found.captures⟩

section

variable [UnicodeClasses] {rules : List Rule} {c : Classifier} {r : Regex}

/-- the pattern of the first rule is tried first -/
theorem foundIn?_cons {rule : Rule} {first : Reader} (haccepted : rule.Accepted)
    (hread : rule.reader? = some first) (k : Nat) (rules : List Rule) (t : Text) (offset : Nat) :
    (foundIn? (partsBehind k (readers (rule :: rules))) t offset =
      foundIn? (partsBehind (k + 1 + first.groups) (readers rules)) t offset ∧
        firstSpan? (rule :: rules) t offset = firstSpan? rules t offset) ∨
      ∃ found, foundIn? (partsBehind k (readers (rule :: rules))) t offset = some (inGroup (k + 1) offset found) ∧
        firstSpan? (rule :: rules) t offset = some ⟨offset, found.stop, rule.kind⟩ := by
  obtain ⟨regex, hregex⟩ := Rule.accepted_iff.1 haccepted
  obtain ⟨first', hread', hfinish, -⟩ := Rule.reader?_of_compile? hregex
  obtain rfl := Option.some.inj (hread.symm.trans hread')
  obtain ⟨-, -, hpattern, -⟩ := Reader.finish?_eq_some_iff.1 hfinish
  have hspan : rule.spanAt? t offset =
      (first.alternatives.value.matchAt? ⟨offset, Regex.before? t offset, t.drop offset, []⟩).map fun found =>
        ⟨offset, found.stop, rule.kind⟩ := by
    rw [Rule.spanAt?, hregex, Option.bind_some, Regex.matchIn?, Regex.matchAt?, hpattern, Option.map_map]
    rfl
  rw [readers, List.filterMap_cons_some hread, ← readers, partsBehind, foundIn?, firstSpan?, List.findSome?_cons,
    List.findSome?_cons, hspan]
  dsimp only
  cases first.alternatives.value.matchAt? ⟨offset, Regex.before? t offset, t.drop offset, []⟩ with
  | none => exact .inl ⟨rfl, rfl⟩
  | some found => exact .inr ⟨found, rfl, rfl⟩

/-- the first pattern that matches is as long as the first rule that does -/
theorem place_foundIn? (haccepted : ∀ rule ∈ rules, rule.Accepted) (k : Nat) (t : Text) (offset : Nat) :
    (foundIn? (partsBehind k (readers rules)) t offset).map (fun found => (matchOf offset found).place) =
      (firstSpan? rules t offset).map Span.place := by
  induction rules generalizing k with
  | nil => rfl
  | cons rule rules ih =>
    have hfirst := haccepted rule List.mem_cons_self
    obtain ⟨first, hread⟩ := hfirst.exists_reader?
    rcases foundIn?_cons hfirst hread k rules t offset with ⟨hfound, hspan⟩ | ⟨found, hfound, hspan⟩
    · rw [hfound, hspan, ih fun rule hrule => haccepted rule (List.mem_cons_of_mem _ hrule)]
    · rw [hfound, hspan]
      rfl

/-- the groups tell the kind of the first rule that matches. By induction on the rules; those that are done, and find
nothing, have been given smaller numbers -/
theorem spanOf?_foundIn? {done : List (Nat × SpanKind)} {k : Nat} (haccepted : ∀ rule ∈ rules, rule.Accepted)
    (hkeep : KeepGroups rules) (hgroups : c.groups = done ++ numbersFrom (k + 1) rules)
    (hdone : ∀ group ∈ done, 0 < group.1 ∧ group.1 < k + 1) (t : Text) (offset : Nat) :
    (foundIn? (partsBehind k (readers rules)) t offset).map (fun found => c.spanOf? (matchOf offset found)) =
      (firstSpan? rules t offset).map some := by
  induction rules generalizing done k with
  | nil => rfl
  | cons rule rules ih =>
    have hfirst := haccepted rule List.mem_cons_self
    obtain ⟨first, hread⟩ := hfirst.exists_reader?
    rcases foundIn?_cons hfirst hread k rules t offset with ⟨hfound, hspan⟩ | ⟨found, hfound, hspan⟩
    · rw [hfound, hspan]
      cases rules with
      | nil => rfl
      | cons next rest =>
        have hkept : rule.kept = first.groups := by
          rw [hkeep rule (by simp), Rule.opened, hread]
          rfl
        have hbehind : c.groups =
            (done ++ [(k + 1, rule.kind)]) ++ numbersFrom (k + 1 + first.groups + 1) (next :: rest) := by
          rw [hgroups, numbersFrom, hkept, List.append_assoc, List.singleton_append]
          congr 3
          omega
        refine ih ?_ ?_ hbehind ?_
        · exact fun rule hrule => haccepted rule (List.mem_cons_of_mem _ hrule)
        · exact fun rule hrule => hkeep rule (by simp [hrule])
        · intro group hgroup
          rcases List.mem_append.1 hgroup with hearlier | hlast
          · obtain ⟨hpos, hlt⟩ := hdone group hearlier
            exact ⟨hpos, by omega⟩
          · obtain rfl := List.mem_singleton.1 hlast
            exact ⟨Nat.succ_pos k, by omega⟩
    · rw [hfound, hspan]
      have hkind := kindOf?_inGroup hgroups (Nat.succ_pos k) hdone offset found
      exact congrArg some (congrArg (Option.map _) hkind)

/-- **The joined pattern finds what the first pattern finds**, in the group of that pattern. -/
theorem matchIn?_joined (haccepted : ∀ rule ∈ rules, rule.Accepted) (hshows : ∀ rule ∈ rules, rule.ShowsParenthesis)
    (hne : rules ≠ []) (hr : Regex.compile? .default (join rules) = some r) (t : Text) (offset : Nat) :
    r.matchIn? t offset = (foundIn? (partsBehind 0 (readers rules)) t offset).map (matchOf offset) := by
  obtain ⟨hjoined, -⟩ := Regex.compile?_eq_some_iff.1 hr
  rw [join_eq_joined] at hjoined
  have hreaders := readers_ne_nil haccepted hne
  obtain ⟨hpattern, -, -⟩ := (parse?_joined_eq_some_iff (forall₂_whole haccepted hshows) hreaders _).1 ⟨_, hjoined⟩
  have hparts : partsBehind 0 (readers rules) ≠ [] := by
    obtain ⟨first, rest, hlist⟩ := List.exists_cons_of_ne_nil hreaders
    rw [hlist]
    exact List.cons_ne_nil _ _
  rw [Regex.matchIn?, Regex.matchAt?, hpattern, joinedPattern, value_groupsBehind, matchAt?_ofAlternatives hparts rfl]
  rfl

theorem coversRules_of_compile? (haccepted : ∀ rule ∈ rules, rule.Accepted)
    (hshows : ∀ rule ∈ rules, rule.ShowsParenthesis) (hne : rules ≠ [])
    (hr : Regex.compile? .default (join rules) = some r) : CoversRules r rules := by
  intro t offset _
  rw [matchIn?_joined haccepted hshows hne hr, Option.map_map]
  exact place_foundIn? haccepted 0 t offset

theorem joins_of_compile? (haccepted : ∀ rule ∈ rules, rule.Accepted) (hshows : ∀ rule ∈ rules, rule.ShowsParenthesis)
    (hkeep : KeepGroups rules) (hne : rules ≠ []) (hr : Regex.compile? .default (join rules) = some r) :
    Joins ⟨some r, numbersFrom 1 rules⟩ r rules := by
  intro t offset _
  rw [matchIn?_joined haccepted hshows hne hr, Option.map_map]
  have hgroups : (⟨some r, numbersFrom 1 rules⟩ : Classifier).groups = [] ++ numbersFrom (0 + 1) rules := rfl
  exact spanOf?_foundIn? haccepted hkeep hgroups (List.forall_mem_nil _) t offset

/-- without rules nothing is found -/
theorem scan_nil (t : Text) (offset : Nat) : scan [] t offset = [] := by
  induction hleft : t.length + 1 - offset using Nat.strong_induction_on generalizing offset with
  | _ left ih =>
    rw [scan]
    split_ifs
    · exact ih _ (by omega) (offset + 1) rfl
    · rfl

/-- the spans of joined rules are those of the scan, if the rules keep their groups -/
theorem classify_of_make (haccepted : ∀ rule ∈ rules, rule.Accepted) (hshows : ∀ rule ∈ rules, rule.ShowsParenthesis)
    (hkeep : KeepGroups rules) (hmake : make rules = .ok c) (t : Text) : c.classify t = ⟨scan rules t 0⟩ := by
  by_cases hne : rules = []
  · subst hne
    cases hmake
    rw [scan_nil]
    rfl
  · obtain ⟨r, hr, rfl⟩ := (make_eq_ok_iff haccepted hne c).1 hmake
    exact classify_eq_scan rfl (joins_of_compile? haccepted hshows hkeep hne hr) t

/-- the spans of joined rules cover nothing but what the scan does -/
theorem place_classify_of_make (haccepted : ∀ rule ∈ rules, rule.Accepted)
    (hshows : ∀ rule ∈ rules, rule.ShowsParenthesis) (hmake : make rules = .ok c) (t : Text) :
    ((c.classify t).toList.map Span.place).Sublist ((scan rules t 0).map Span.place) := by
  by_cases hne : rules = []
  · subst hne
    cases hmake
    exact List.nil_sublist _
  · obtain ⟨r, hr, rfl⟩ := (make_eq_ok_iff haccepted hne c).1 hmake
    exact map_place_classify rfl (coversRules_of_compile? haccepted hshows hne hr) t

/-- **Joined rules keep their meaning.** Rules that are accepted, and whose patterns do not end in a comment, are put
together exactly if no two of them name a group alike and the joined pattern is within the limits. The spans of a text
take up places of the scan by the single rules, and they are just the spans of that scan if every rule but the last
keeps the groups it opens. -/
theorem rules_keep_their_meaning (haccepted : ∀ rule ∈ rules, rule.Accepted)
    (hshows : ∀ rule ∈ rules, rule.ShowsParenthesis) :
    ((∃ c, make rules = .ok c) ↔ (rules.map Rule.names).Pairwise List.Disjoint ∧ WithinLimits rules) ∧
      ∀ c, make rules = .ok c → ∀ t,
        ((c.classify t).toList.map Span.place).Sublist ((scan rules t 0).map Span.place) ∧
          (KeepGroups rules → c.classify t = ⟨scan rules t 0⟩) := by
  refine ⟨exists_make_iff haccepted hshows, fun c hmake t =>
    ⟨place_classify_of_make haccepted hshows hmake t, fun hkeep => ?_⟩⟩
  exact classify_of_make haccepted hshows hkeep hmake t

end

/-- the groups inside of the first pattern are counted, so the second rule is known by its own -/
theorem inner_groups_keep_their_meaning :
    let rules : List Rule := [⟨"(<)a(>)".toList, .comment⟩, ⟨"'b'".toList, .string⟩]
    ((∀ rule ∈ rules, rule.Accepted) ∧ (∀ rule ∈ rules, rule.ShowsParenthesis) ∧ KeepGroups rules) ∧
      ∃ c, make rules = .ok c ∧ ∀ t, c.classify t = ⟨scan rules t 0⟩ := by
  intro rules
  have haccepted : ∀ rule ∈ rules, rule.Accepted := by decide +kernel
  have hshows : ∀ rule ∈ rules, rule.ShowsParenthesis := by decide +kernel
  have hkeep : KeepGroups rules := by decide +kernel
  have hlimits : WithinLimits rules := ⟨by decide +kernel, by decide +kernel⟩
  have hnames : rules.map Rule.names = [[], []] := by decide +kernel
  obtain ⟨hmake, hclassify⟩ := rules_keep_their_meaning haccepted hshows
  obtain ⟨c, hc⟩ := hmake.2 ⟨by simp [hnames], hlimits⟩
  exact ⟨⟨haccepted, hshows, hkeep⟩, c, hc, fun t => (hclassify c hc t).2 hkeep⟩

/-- two rules that name a group alike are not put together -/
example : make [⟨"(?P<n>a)".toList, .comment⟩, ⟨"(?P<n>b)".toList, .string⟩] = .error .invalidRule := by decide +kernel

/-- a pattern that ends in a comment swallows the end of its group -/
example : make [⟨"(?x)a # a".toList, .comment⟩, ⟨"b".toList, .string⟩] = .error .invalidRule := by decide +kernel

/-- **A group that no repetition is left of** is numbered in the joined pattern, but the classifier does not count it.
It looks for the second rule in the group of the first one, and its match gives no span. -/
theorem lost_group_hides_a_rule :
    let rules : List Rule := [⟨"(a)\x7b0\x7db".toList, .comment⟩, ⟨"c".toList, .string⟩]
    (∀ rule ∈ rules, rule.Accepted) ∧ scan rules ['c'] 0 = [⟨0, 1, .string⟩] ∧ ∃ c, make rules = .ok c ∧
    c.classify ['c'] = ⟨[]⟩ := by
  intro rules
  -- the second rule has the third group, and is looked for in the second one
  let r : Regex := ⟨.alt (.group 1 (.set (.char 'b'))) (.group 3 (.set (.char 'c'))), []⟩
  have hmake : make rules = .ok ⟨some r, [(1, .comment), (2, .string)]⟩ := by decide +kernel
  have hmatches : r.allMatches ['c'] = [⟨0, 1, [(3, 0, 1)]⟩] := by cbv
  refine ⟨by decide +kernel, by decide +kernel, _, hmake, ?_⟩
  have hkind : kindOf? ⟨some r, [(1, .comment), (2, .string)]⟩ ⟨0, 1, [(3, 0, 1)]⟩ = none := by decide
  simp [classify, hmatches, hkind, Spans.ofRanges, Spans.merge]

end Classifier

end CodeEditor
