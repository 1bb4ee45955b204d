import CodeEditor.Proofs.Pattern.Parts
import CodeEditor.Proofs.Pattern.Regroup
/-!
A pattern inside of a group of another one.

A pattern that is read to its end alone is read in the same parts with a closing parenthesis behind it (`Path`), unless
it ends in a comment, which swallows the parenthesis (`run?_cases`). A reader that has opened a group and reads on from
there goes through the same steps as one that starts anew, with larger numbers for the groups (`Reader.within`). So the
group holds the pattern as it is alone, but for the numbers (`Path.run?_within`); only a name that was given to a group
before is an error there.
-/

namespace CodeEditor.Pattern

namespace Reader

/-! ## Paths -/

/-- from `r`, the text is read part by part to `r'`, whatever stands behind a closing parenthesis behind it -/
inductive Path [UnicodeClasses] : Reader → Text → Reader → Prop where
  | stop {r : Reader} {t : Text} (hskip : ∀ s, skip r.flags (t ++ ')' :: s) = ')' :: s) : Path r t r
  | step {r r₁ r' : Reader} {t u v : Text} {c : Char} {part : Part}
      (hskip : ∀ s, skip r.flags (t ++ ')' :: s) = c :: (u ++ ')' :: s))
      (hread : ∀ s, Part.read? r.flags c (u ++ ')' :: s) = some (part, v ++ ')' :: s))
      (hlt : v.length < t.length) (hadd : r.add? part = some r₁) (hpath : Path r₁ v r') : Path r t r'

theorem run?_of_skip_nil [UnicodeClasses] {r : Reader} {t : Text} (h : skip r.flags t = []) : r.run? t = some r := by
  rw [run?, h]

theorem run?_of_part [UnicodeClasses] {r r₁ : Reader} {t u v : Text} {c : Char} {part : Part}
    (hskip : skip r.flags t = c :: u) (hread : Part.read? r.flags c u = some (part, v)) (hadd : r.add? part = some r₁)
    (hlt : v.length < t.length) :
    r.run? t = r₁.run? v := by
  have hstep : r.step? c u = some (r₁, v) := by rw [step?_eq, goOn?, hread, Option.bind_some, hadd, Option.map_some]
  rw [run?, hskip]
  simp only [hstep, if_pos hlt]

theorem run?_of_no_part [UnicodeClasses] {r : Reader} {t u v : Text} {c : Char} {part : Part}
    (hskip : skip r.flags t = c :: u) (hread : Part.read? r.flags c u = some (part, v)) (hadd : r.add? part = none) :
    r.run? t = none := by
  have hstep : r.step? c u = none := by rw [step?_eq, goOn?, hread, Option.bind_some, hadd, Option.map_none]
  rw [run?, hskip]
  simp only [hstep]

theorem run?_of_close [UnicodeClasses] {r : Reader} {t s : Text} (hskip : skip r.flags t = ')' :: s)
    (hlt : s.length < t.length) :
    r.run? t = r.closeGroup?.bind (·.run? s) := by
  cases hclose : r.closeGroup? with
  | none => exact run?_of_no_part hskip rfl hclose
  | some r₁ => exact run?_of_part hskip rfl hclose hlt

/-- **A pattern that is read to its end is read with a parenthesis behind it**, or ends in a comment. -/
theorem run?_cases [UnicodeClasses] {r r' : Reader} {t : Text} (h : r.run? t = some r') :
    Path r t r' ∨ r.run? (t ++ [')']) = some r' := by
  induction hlen : t.length using Nat.strong_induction_on generalizing r t with
  | _ len ih =>
    have hskip := (steady_skip r.flags t).2
    rw [run?] at h
    cases hu : skip r.flags t with
    | nil =>
      simp only [hu] at h hskip
      obtain rfl := Option.some.inj h
      rcases hskip with hfirm | ⟨-, hlost⟩
      · exact Or.inl (.stop hfirm)
      · exact Or.inr (run?_of_skip_nil hlost)
    | cons c u =>
      simp only [hu, step?_eq, goOn?] at h
      have hskip := skip_append hu
      split at h
      · cases h
      · rename_i r₁ v hstep
        obtain ⟨⟨part, w⟩, hread, hsome⟩ := Option.bind_eq_some_iff.1 hstep
        obtain ⟨r₂, hadd, heq⟩ := Option.map_eq_some_iff.1 hsome
        obtain ⟨rfl, rfl⟩ := Prod.mk.inj heq
        split_ifs at h with hlt
        rcases (Part.steady_read? hread).2 with hfirm | ⟨rfl, hlost⟩
        · rcases ih _ (hlen ▸ hlt) h rfl with hpath | hcomment
          · exact Or.inl (.step hskip hfirm hlt hadd hpath)
          · refine Or.inr ?_
            rw [run?_of_part (hskip []) (hfirm []) hadd (by simpa using hlt)]
            exact hcomment
        · refine Or.inr ?_
          rw [run?_of_part (hskip []) hlost hadd (by simp)]
          exact h

end Reader

/-! ## Groups in parts -/

namespace Part

/-- the part is a leaf with groups in it -/
def HasGroups (part : Part) : Prop :=
  ∃ p height k, part = leaf p height ∧ p.regroup k ≠ p

theorem not_hasGroups_mark (low : Nat) (high : Option Nat) (t : Text) : ¬(mark low high t).1.HasGroups := by
  rintro ⟨p, height, k, heq, -⟩
  unfold mark at heq
  split at heq <;> cases heq

theorem not_hasGroups_start? {f : Flags} {part : Part} {t rest : Text} (h : start? f t = some (part, rest)) :
    ¬part.HasGroups := by
  rintro ⟨p, height, k, rfl, -⟩
  unfold start? at h
  split_ifs at h
  split at h
  · obtain ⟨found, -, heq⟩ := Option.map_eq_some_iff.1 h
    cases heq
  · split at h
    · obtain ⟨⟨flags, seen, ending, v⟩, -, heq⟩ := Option.bind_eq_some_iff.1 h
      unfold ofFlags? at heq
      split at heq <;> cases heq
    · cases h

theorem not_hasGroups_counts? {f : Flags} {part : Part} {t rest : Text} (h : counts? f t = some (part, rest)) :
    ¬part.HasGroups := by
  unfold counts? at h
  split at h
  · obtain ⟨rfl, -⟩ := Prod.mk.inj (Option.some.inj h)
    exact not_hasGroups_mark _ _ _
  · unfold upTo? at h
    split at h
    · obtain ⟨rfl, -⟩ := Prod.mk.inj (Option.some.inj h)
      exact not_hasGroups_mark _ _ _
    · split at h
      · split_ifs at h
        obtain ⟨rfl, -⟩ := Prod.mk.inj (Option.some.inj h)
        exact not_hasGroups_mark _ _ _
      · cases h
  · cases h

theorem not_hasGroups_leaf {p : Pattern} (hp : ∀ k, p.regroup k = p) (height : Nat) : ¬(leaf p height).HasGroups := by
  rintro ⟨p', height', k, heq, hne⟩
  cases heq
  exact hne (hp k)

theorem regroup_literal (f : Flags) (c : Char) (k : Nat) : (Reader.literal f c).regroup k = Reader.literal f c := by
  unfold Reader.literal
  split_ifs <;> rfl

theorem regroup_dot? {f : Flags} {p : Pattern} (h : Reader.dot? f = some p) (k : Nat) : p.regroup k = p := by
  unfold Reader.dot? at h
  split_ifs at h
  all_goals
    obtain rfl := Option.some.inj h
    rfl

theorem regroup_escape? [UnicodeClasses] {f : Flags} {e : Escape} {p : Pattern} (h : Reader.escape? f e = some p)
    (k : Nat) : p.regroup k = p := by
  unfold Reader.escape? at h
  split at h
  · split_ifs at h
    obtain rfl := Option.some.inj h
    exact regroup_literal f _ k
  · split_ifs at h
    all_goals
      obtain rfl := Option.some.inj h
      rfl
  · obtain ⟨set, -, rfl⟩ := Option.map_eq_some_iff.1 h
    exact ofSet_regroup set
  all_goals
    obtain rfl := Option.some.inj h
    rfl

/-- no part that is read has groups in it -/
theorem not_hasGroups_read? [UnicodeClasses] {f : Flags} {c : Char} {part : Part} {t rest : Text}
    (h : read? f c t = some (part, rest)) :
    ¬part.HasGroups := by
  unfold read? at h
  split at h
  · exact not_hasGroups_start? h
  · obtain ⟨rfl, -⟩ := Prod.mk.inj (Option.some.inj h)
    rintro ⟨p, height, k, heq, -⟩
    cases heq
  · obtain ⟨rfl, -⟩ := Prod.mk.inj (Option.some.inj h)
    rintro ⟨p, height, k, heq, -⟩
    cases heq
  · obtain ⟨⟨set, u⟩, -, heq⟩ := Option.map_eq_some_iff.1 h
    obtain ⟨rfl, -⟩ := Prod.mk.inj heq
    exact not_hasGroups_leaf (fun k => ofSet_regroup set.value) _
  · obtain ⟨rfl, -⟩ := Prod.mk.inj (Option.some.inj h)
    exact not_hasGroups_mark _ _ _
  · obtain ⟨rfl, -⟩ := Prod.mk.inj (Option.some.inj h)
    exact not_hasGroups_mark _ _ _
  · obtain ⟨rfl, -⟩ := Prod.mk.inj (Option.some.inj h)
    exact not_hasGroups_mark _ _ _
  · exact not_hasGroups_counts? h
  · obtain ⟨⟨e, u⟩, -, h⟩ := Option.bind_eq_some_iff.1 h
    obtain ⟨p, hp, heq⟩ := Option.map_eq_some_iff.1 h
    obtain ⟨rfl, -⟩ := Prod.mk.inj heq
    exact not_hasGroups_leaf (regroup_escape? hp) _
  · obtain ⟨p, hp, heq⟩ := Option.map_eq_some_iff.1 h
    obtain ⟨rfl, -⟩ := Prod.mk.inj heq
    exact not_hasGroups_leaf (regroup_dot? hp) _
  · obtain ⟨rfl, -⟩ := Prod.mk.inj (Option.some.inj h)
    exact not_hasGroups_leaf (fun k => rfl) _
  · obtain ⟨rfl, -⟩ := Prod.mk.inj (Option.some.inj h)
    exact not_hasGroups_leaf (fun k => rfl) _
  · obtain ⟨rfl, -⟩ := Prod.mk.inj (Option.some.inj h)
    exact not_hasGroups_leaf (regroup_literal f c) _

end Part

/-! ## Other group numbers -/

variable {k : Nat}

/-- the tree with `k` added to the number of each group -/
def Sized.regroup (k : Nat) (p : Sized Pattern) : Sized Pattern :=
  ⟨p.value.regroup k, p.height⟩

/-- the part with `k` added to the number of each group -/
def Item.regroup (k : Nat) : Item → Item
  | directive => directive
  | node n => node (n.regroup k)

/-- the open group with `k` added to its number and to those before it -/
def OpenGroup.regroup (k : Nat) (g : OpenGroup) : OpenGroup :=
  ⟨g.items.map (Item.regroup k), g.branches.map (Sized.regroup k), g.flags, g.index.map (k + ·)⟩

theorem Item.sized_regroup (item : Item) : (item.regroup k).sized = item.sized.regroup k := by
  cases item <;> rfl

/-- a tree put together from parts, by a way of putting patterns together that does not mind the numbers of groups -/
theorem Sized.regroup_parts {combine : List Pattern → Pattern}
    (hcombine : ∀ ps, combine (ps.map (Pattern.regroup k)) = (combine ps).regroup k) (parts : List (Sized Pattern)) :
    Sized.mk (combine ((parts.map (Sized.regroup k)).map Sized.value)) (heightOver (parts.map (Sized.regroup k))) =
      Sized.regroup k ⟨combine (parts.map Sized.value), heightOver parts⟩ := by
  have hvalues : (parts.map (Sized.regroup k)).map Sized.value = (parts.map Sized.value).map (Pattern.regroup k) := by
    simp only [List.map_map]
    rfl
  have hheight : heightOver (parts.map (Sized.regroup k)) = heightOver parts := by
    rw [heightOver, List.map_map]
    rfl
  rw [hvalues, hheight, hcombine]
  rfl

/-- the tree of a group that is closed around its body -/
def OpenGroup.whole (g : OpenGroup) (body : Sized Pattern) : Sized Pattern :=
  ⟨match g.index with
    | some index => .group index body.value
    | none => body.value, 1 + body.height⟩

theorem OpenGroup.whole_regroup (g : OpenGroup) (body : Sized Pattern) :
    (g.regroup k).whole (body.regroup k) = (g.whole body).regroup k := by
  obtain ⟨items, branches, flags, _ | index⟩ := g <;> rfl

/-- the part gives a group one of these names -/
def Part.isKnown (names : List (Text × Nat)) : Part → Bool
  | named name => (names.lookup name).isSome
  | _ => false

namespace Reader

theorem concat_regroup (items : List Item) : concat (items.map (Item.regroup k)) = (concat items).regroup k := by
  rcases items with _ | ⟨item, _ | ⟨next, items⟩⟩
  · rfl
  · exact item.sized_regroup
  · have hparts : ((item :: next :: items).map (Item.regroup k)).reverse.map Item.sized =
        ((item :: next :: items).reverse.map Item.sized).map (Sized.regroup k) := by
      rw [← List.map_reverse, List.map_map, List.map_map]
      exact List.map_congr_left fun i _ => i.sized_regroup
    calc concat ((item :: next :: items).map (Item.regroup k))
        = ⟨inOrder ((((item :: next :: items).map (Item.regroup k)).reverse.map Item.sized).map Sized.value),
            heightOver (((item :: next :: items).map (Item.regroup k)).reverse.map Item.sized)⟩ := rfl
      _ = (concat (item :: next :: items)).regroup k := by
          rw [hparts]
          exact Sized.regroup_parts inOrder_regroup _

/-- the reader `r` as it goes on inside a group that has just been opened in `outer` -/
def within (outer r : Reader) : Reader where
  flags := r.flags
  items := r.items.map (Item.regroup (outer.groups + 1))
  branches := r.branches.map (Sized.regroup (outer.groups + 1))
  stack := r.stack.map (OpenGroup.regroup (outer.groups + 1)) ++
    ⟨outer.items, outer.branches, outer.flags, some (outer.groups + 1)⟩ :: outer.stack
  groups := outer.groups + 1 + r.groups
  names := r.names.map (fun name => (name.1, outer.groups + 1 + name.2)) ++ outer.names

theorem alternatives_within (outer r : Reader) :
    (outer.within r).alternatives = r.alternatives.regroup (outer.groups + 1) := by
  unfold alternatives within
  dsimp only
  rw [concat_regroup]
  rcases r.branches with _ | ⟨branch, branches⟩
  · rfl
  · have hparts : (Sized.regroup (outer.groups + 1) (concat r.items) ::
        (branch :: branches).map (Sized.regroup (outer.groups + 1))).reverse =
        ((concat r.items :: branch :: branches).reverse).map (Sized.regroup (outer.groups + 1)) := by
      rw [← List.map_cons, List.map_reverse]
    have hwhole := Sized.regroup_parts (oneOf_regroup (k := outer.groups + 1))
      (concat r.items :: branch :: branches).reverse
    rw [← hparts] at hwhole
    exact hwhole

/-- closing a group -/
theorem closeGroup?_of_stack {r : Reader} {g : OpenGroup} {stack : List OpenGroup} (h : r.stack = g :: stack) :
    r.closeGroup? =
      some { r with
        items := .node (g.whole r.alternatives) :: g.items, branches := g.branches, flags := g.flags, stack } := by
  rw [closeGroup?, h]
  rfl

/-- the names in use are those given inside the group and those given before -/
theorem lookup_within (outer r : Reader) (name : Text) :
    ((outer.within r).names.lookup name).isSome =
      ((r.names.lookup name).isSome || (outer.names.lookup name).isSome) := by
  unfold within
  dsimp only
  induction r.names with
  | nil => rfl
  | cons entry names ih =>
    rw [List.map_cons, List.cons_append, List.lookup_cons, List.lookup_cons]
    cases name == entry.1
    · exact ih
    · rfl

/-- **A part is added inside a group as it is alone**, unless it is a name that was given before. -/
theorem add?_within {outer r r₁ : Reader} {part : Part} (h : r.add? part = some r₁)
    (hgroups : ¬part.HasGroups) (hnew : part.isKnown outer.names = false) :
    (outer.within r).add? part = some (outer.within r₁) := by
  cases part with
  | group =>
    obtain rfl := Option.some.inj h
    rfl
  | named name =>
    unfold add? at h ⊢
    dsimp only at h ⊢
    split_ifs at h with hknown
    obtain rfl := Option.some.inj h
    rw [if_neg]
    · rfl
    · rw [Part.isKnown] at hnew
      rw [lookup_within, hnew, Bool.or_false]
      exact hknown
  | flagged flags =>
    obtain rfl := Option.some.inj h
    rfl
  | directive flags =>
    obtain rfl := Option.some.inj h
    rfl
  | close =>
    cases hstack : r.stack with
    | nil =>
      rw [add?, closeGroup?, hstack] at h
      cases h
    | cons g stack =>
      rw [add?, closeGroup?_of_stack hstack] at h
      obtain rfl := Option.some.inj h
      have hwithin : (outer.within r).stack = g.regroup
        (outer.groups + 1) :: (stack.map (OpenGroup.regroup (outer.groups + 1)) ++
          ⟨outer.items, outer.branches, outer.flags, some (outer.groups + 1)⟩ :: outer.stack) := by
        rw [within, hstack]
        rfl
      rw [add?, closeGroup?_of_stack hwithin, alternatives_within, OpenGroup.whole_regroup]
      rfl
  | bar =>
    obtain rfl := Option.some.inj h
    rw [add?, within, concat_regroup]
    rfl
  | leaf p height =>
    obtain rfl := Option.some.inj h
    have hleaf : p.regroup (outer.groups + 1) = p := by
      by_contra hne
      exact hgroups ⟨p, height, _, rfl, hne⟩
    have hp : Item.node ⟨p, height⟩ = (Item.node ⟨p, height⟩).regroup (outer.groups + 1) := by
      rw [Item.regroup, Sized.regroup, hleaf]
    rw [add?, push, hp]
    rfl
  | repetition low high greedy =>
    obtain ⟨flags, items, branches, stack, groups, names⟩ := r
    rcases items with _ | ⟨_ | ⟨p, height⟩, items⟩
    · cases h
    · cases h
    · obtain rfl := Option.some.inj h
      have hrepeated := repeated_regroup (k := outer.groups + 1) low high (greedy != flags.swapGreed) p
      have hitem : Item.node ⟨repeated low high (greedy != flags.swapGreed) (p.regroup (outer.groups + 1)),
        1 + height⟩ =
          (Item.node ⟨repeated low high (greedy != flags.swapGreed) p, 1 + height⟩).regroup (outer.groups + 1) := by
        rw [hrepeated]
        rfl
      exact congrArg (fun item => some (Reader.mk flags (item :: items.map (Item.regroup (outer.groups + 1))) _ _ _ _))
        hitem

theorem add?_within_of_known {outer r : Reader} {part : Part} (h : part.isKnown outer.names = true) :
    (outer.within r).add? part = none := by
  cases part with
  | named name =>
    unfold add?
    dsimp only
    rw [Part.isKnown] at h
    rw [lookup_within, h, Bool.or_true, if_pos rfl]
  | _ => cases h

end Reader

namespace Reader

/-- a part that gives a name adds that name only, and no other part adds one -/
theorem names_of_add? {r r₁ : Reader} {part : Part} (h : r.add? part = some r₁) :
    ∃ new, r₁.names = new ++ r.names ∧ ∀ names, part.isKnown names = new.any fun name =>
      (names.lookup name.1).isSome := by
  cases part with
  | named name =>
    unfold add? at h
    dsimp only at h
    split_ifs at h
    obtain rfl := Option.some.inj h
    exact ⟨[(name, r.groups + 1)], rfl, fun names => by simp [Part.isKnown]⟩
  | close =>
    cases hstack : r.stack with
    | nil =>
      rw [add?, closeGroup?, hstack] at h
      cases h
    | cons g stack =>
      rw [add?, closeGroup?_of_stack hstack] at h
      obtain rfl := Option.some.inj h
      exact ⟨[], rfl, fun names => rfl⟩
  | repetition low high greedy =>
    rw [add?, repeatLast?] at h
    split at h
    · obtain rfl := Option.some.inj h
      exact ⟨[], rfl, fun names => rfl⟩
    · cases h
  | _ =>
    obtain rfl := Option.some.inj h
    exact ⟨[], rfl, fun names => rfl⟩

theorem names_of_path [UnicodeClasses] {r r' : Reader} {t : Text} (h : Path r t r') :
    ∃ new, r'.names = new ++ r.names := by
  induction h with
  | stop => exact ⟨[], rfl⟩
  | step hskip hread hlt hadd hpath ih =>
    obtain ⟨new, hnew, -⟩ := names_of_add? hadd
    obtain ⟨more, hmore⟩ := ih
    exact ⟨more ++ new, by rw [hmore, hnew, List.append_assoc]⟩

/-- a step inside a group -/
theorem run?_within_of_part [UnicodeClasses] {outer r r₁ : Reader} {t u v : Text} {c : Char} {part : Part} {s : Text}
    (hskip : skip r.flags (t ++ ')' :: s) = c :: (u ++ ')' :: s))
    (hread : Part.read? r.flags c (u ++ ')' :: s) = some (part, v ++ ')' :: s)) (hlt : v.length < t.length)
    (hadd : r.add? part = some r₁) (hnew : part.isKnown outer.names = false) :
    (outer.within r).run? (t ++ ')' :: s) = (outer.within r₁).run? (v ++ ')' :: s) := by
  refine run?_of_part (r := outer.within r) hskip hread (add?_within hadd (Part.not_hasGroups_read? hread) hnew) ?_
  rw [List.length_append, List.length_append]
  omega

/-- **A group holds a pattern as it is alone**, but for the numbers of its groups. Its closing parenthesis is read, and
the reader goes on behind it. -/
theorem Path.run?_within [UnicodeClasses] {outer r r' : Reader} {t : Text} (h : Path r t r')
    (hnew : ∀ name ∈ r'.names, (outer.names.lookup name.1).isSome = false) (s : Text) :
    (outer.within r).run? (t ++ ')' :: s) = (outer.within r').closeGroup?.bind (·.run? s) := by
  induction h with
  | stop hskip =>
    exact run?_of_close (r := outer.within _) (hskip s) (by rw [List.length_append, List.length_cons]; omega)
  | step hskip hread hlt hadd hpath ih =>
    obtain ⟨first, hfirst, hparts⟩ := names_of_add? hadd
    obtain ⟨more, hmore⟩ := names_of_path hpath
    rw [run?_within_of_part (hskip s) (hread s) hlt hadd]
    · exact ih hnew
    · rw [hparts, List.any_eq_false]
      intro name hname
      rw [hnew name (by rw [hmore, hfirst]; simp [hname])]
      exact Bool.false_ne_true

/-- a name that was given before is an error in a group -/
theorem Path.run?_within_of_known [UnicodeClasses] {outer r r' : Reader} {t : Text} (h : Path r t r')
    {new : List (Text × Nat)} (hnames : r'.names = new ++ r.names)
    (hknown : ∃ name ∈ new, (outer.names.lookup name.1).isSome = true) (s : Text) :
    (outer.within r).run? (t ++ ')' :: s) = none := by
  induction h generalizing new with
  | stop hskip =>
    obtain ⟨name, hname, -⟩ := hknown
    rw [List.self_eq_append_left.1 hnames] at hname
    cases hname
  | @step r r₁ r' t u v c part hskip hread hlt hadd hpath ih =>
    obtain ⟨first, hfirst, hparts⟩ := names_of_add? hadd
    obtain ⟨more, hmore⟩ := names_of_path hpath
    cases hpart : part.isKnown outer.names with
    | true => exact run?_of_no_part (r := outer.within _) (hskip s) (hread s) (add?_within_of_known hpart)
    | false =>
      obtain rfl : new = more ++ first := by
        rw [hmore, hfirst, ← List.append_assoc] at hnames
        exact (List.append_cancel_right hnames).symm
      obtain ⟨name, hname, hlookup⟩ := hknown
      rw [run?_within_of_part (hskip s) (hread s) hlt hadd hpart]
      refine ih hmore ⟨name, ?_, hlookup⟩
      rcases List.mem_append.1 hname with hlater | hnow
      · exact hlater
      · rw [hparts, List.any_eq_false] at hpart
        exact absurd hlookup (hpart name hnow)

end Reader

end CodeEditor.Pattern
