import CodeEditor.Proofs.Pattern.SteadyBracket
/-!
The parts of a pattern.

A step of the reader reads one part of the pattern, by the flags alone (`part?`), and adds it to what has been read
(`Reader.add?`). So what can go wrong behind a part has to do with its text only, and what a part does to the
reader with its meaning only.

Every part is steady. A pattern that is read to its end alone is therefore read in the same steps with a closing
parenthesis behind it (`Path`), unless it ends in a comment, which swallows the parenthesis (`run?_cases`).
-/

namespace CodeEditor.Pattern

/-- what is read in one step -/
inductive Part where
  /-- the start of a group that has a number -/
  | group
  /-- the start of a group that has a number and a name -/
  | named (name : Text)
  /-- the start of a group with flags of its own -/
  | flagged (flags : Flags)
  | directive (flags : Flags)
  | close
  | bar
  | leaf (p : Pattern) (height : Nat)
  | repetition (low : Nat) (high : Option Nat) (greedy : Bool)

namespace Part

/-- what a list of flags starts; a list of none is no directive -/
def ofFlags? : Flags × List Char × Flags.Ending × Text → Option (Part × Text)
  | (_, [], .directive, _) => none
  | (flags, _, .directive, t) => some (directive flags, t)
  | (flags, _, .group, t) => some (flagged flags, t)

/-- the start of a group or a directive, behind the opening parenthesis and free spacing -/
def start? (f : Flags) (t : Text) : Option (Part × Text) :=
  if Reader.isLookAround t then none
  else match (Text.after? "?P<".toList t).or (Text.after? "?<".toList t) with
    | some u => (Reader.name? u).map fun (name, t) => (named name, t)
    | none =>
      match t with
      | '?' :: u => (f.read? [] false u).bind ofFlags?
      | t => some (group, t)

/-- a repetition mark and the question mark that may follow it -/
def mark (low : Nat) (high : Option Nat) : Text → Part × Text
  | '?' :: t => (repetition low high false, t)
  | t => (repetition low high true, t)

/-- the rest of a counted repetition behind the comma -/
def upTo? (f : Flags) (low : Nat) (t : Text) : Option (Part × Text) :=
  match skip f t with
  | '}' :: t => some (mark low none (skip f t))
  | t =>
    match Reader.count? f t with
    | some (high, '}' :: t) => if low ≤ high then some (mark low (some high) (skip f t)) else none
    | _ => none

/-- a counted repetition, behind its opening brace -/
def counts? (f : Flags) (t : Text) : Option (Part × Text) :=
  match Reader.count? f (skip f t) with
  | some (low, '}' :: t) => some (mark low (some low) (skip f t))
  | some (low, ',' :: t) => upTo? f low t
  | _ => none

/-- the part that starts with `c`, by the flags alone -/
def read? [UnicodeClasses] (f : Flags) (c : Char) (t : Text) : Option (Part × Text) :=
  match c with
  | '(' => start? f (skip f t)
  | ')' => some (close, t)
  | '|' => some (bar, t)
  | '[' => (Bracket.set? f t).map fun (s, t) => (leaf (ofSet s.value) s.height, t)
  | '?' => some (mark 0 (some 1) t)
  | '*' => some (mark 0 none t)
  | '+' => some (mark 1 none t)
  | '{' => counts? f t
  | '\\' => (Escape.read? f t).bind fun (e, t) => (Reader.escape? f e).map fun p => (leaf p 0, t)
  | '.' => (Reader.dot? f).map fun p => (leaf p 0, t)
  | '^' => some (leaf (Reader.caret f) 0, t)
  | '$' => some (leaf (Reader.dollar f) 0, t)
  | c => some (leaf (Reader.literal f c) 0, t)

end Part

namespace Reader

/-- open a group with a number -/
def openNumbered (r : Reader) : Reader :=
  { r.openGroup r.flags (some (r.groups + 1)) with groups := r.groups + 1 }

/-- add a part -/
def add? (r : Reader) : Part → Option Reader
  | .group => some r.openNumbered
  | .named name =>
    if (r.names.lookup name).isSome then none
    else some { r.openNumbered with names := (name, r.groups + 1) :: r.names }
  | .flagged flags => some (r.openGroup flags none)
  | .directive flags => some { r with flags, items := .directive :: r.items }
  | .close => r.closeGroup?
  | .bar => some { r with items := [], branches := concat r.items :: r.branches }
  | .leaf p height => some (r.push p height)
  | .repetition low high greedy => r.repeatLast? low high greedy

/-- add a part that has been read, if one has -/
def goOn? (r : Reader) (found? : Option (Part × Text)) : Option (Reader × Text) :=
  found?.bind fun found => (r.add? found.1).map (·, found.2)

theorem openNamed?_eq (r : Reader) (t : Text) :
    r.openNamed? t = r.goOn? ((name? t).map fun (name, t) => (.named name, t)) := by
  unfold openNamed?
  rcases name? t with _ | ⟨name, u⟩
  · rfl
  · dsimp only [goOn?, Option.map_some, Option.bind_some, add?]
    split_ifs <;> rfl

theorem readGroup?_eq (r : Reader) (t : Text) : r.readGroup? t = r.goOn? (Part.start? r.flags (skip r.flags t)) := by
  simp only [readGroup?, Part.start?]
  split_ifs
  · rfl
  · split
    · rename_i u hfirst
      rw [hfirst, Option.some_or]
      exact r.openNamed?_eq u
    · rename_i u hfirst hsecond
      rw [hfirst, hsecond, Option.none_or]
      exact r.openNamed?_eq u
    · rename_i u hfirst hsecond hv
      rw [hv] at hfirst hsecond
      rw [hv, hfirst, hsecond, Option.none_or]
      change _ = r.goOn? ((r.flags.read? [] false u).bind Part.ofFlags?)
      rcases r.flags.read? [] false u with _ | ⟨flags, _ | ⟨letter, seen⟩, _ | _, rest⟩ <;> rfl
    · rename_i hfirst hsecond hv
      rw [hfirst, hsecond, Option.none_or]
      dsimp only
      split
      · rename_i heq
        exact absurd heq (hv _)
      · rfl

theorem readMark?_eq (r : Reader) (low : Nat) (high : Option Nat) (t : Text) :
    r.readMark? low high t = r.goOn? (some (Part.mark low high t)) := by
  by_cases hmark : ∃ u, t = '?' :: u
  · obtain ⟨u, rfl⟩ := hmark
    rfl
  · have hplain : ∀ u, t = '?' :: u → False := fun u hu => hmark ⟨u, hu⟩
    rw [readMark?.eq_2 r low high t hplain, Part.mark.eq_2 low high t hplain]
    rfl

theorem goOn?_mark_of_not_canRepeat {r : Reader} (h : r.canRepeat = false) (low : Nat) (high : Option Nat) (t : Text) :
    r.goOn? (some (Part.mark low high t)) = none := by
  rw [← readMark?_eq]
  unfold canRepeat at h
  unfold readMark? repeatLast?
  split at h
  · cases h
  · split <;> rfl

theorem goOn?_upTo?_of_not_canRepeat {r : Reader} (h : r.canRepeat = false) (f : Flags) (low : Nat) (t : Text) :
    r.goOn? (Part.upTo? f low t) = none := by
  have hmark := goOn?_mark_of_not_canRepeat h
  unfold Part.upTo?
  split
  · apply hmark
  · split
    · split_ifs
      · apply hmark
      · rfl
    · rfl

theorem readCounts?_eq (r : Reader) (t : Text) : r.readCounts? t = r.goOn? (Part.counts? r.flags t) := by
  unfold readCounts?
  cases hcan : r.canRepeat with
  | false =>
    rw [Bool.not_false, if_pos rfl]
    unfold Part.counts?
    split
    · exact (goOn?_mark_of_not_canRepeat hcan _ _ _).symm
    · exact (goOn?_upTo?_of_not_canRepeat hcan _ _ _).symm
    · rfl
  | true =>
    rw [Bool.not_true, if_neg Bool.false_ne_true, Part.counts?]
    split
    · rename_i hcount
      rw [hcount]
      rfl
    · rename_i low u hcount
      rw [hcount]
      exact r.readMark?_eq low (some low) (skip r.flags u)
    · rename_i low u hcount
      rw [hcount]
      change _ = r.goOn? (Part.upTo? r.flags low u)
      -- the left side is split to its end before the right side is opened
      split
      · rename_i v hv
        simp only [Part.upTo?, hv]
        exact r.readMark?_eq low none (skip r.flags v)
      · rename_i hbrace
        split
        · rename_i high v hhigh
          have hup : Part.upTo? r.flags low u =
              if low ≤ high then some (Part.mark low (some high) (skip r.flags v)) else none := by
            unfold Part.upTo?
            split
            · rename_i heq
              exact absurd heq (hbrace _)
            · rw [hhigh]
              rfl
          rw [hup]
          split_ifs
          · exact r.readMark?_eq low (some high) (skip r.flags v)
          · rfl
        · rename_i hno
          unfold Part.upTo?
          split
          · rename_i heq
            exact absurd heq (hbrace _)
          · split
            · rename_i heq
              exact absurd heq (hno _ _)
            · rfl
    · rename_i hnone hclose hcomma
      symm
      split
      · rename_i heq
        exact absurd heq (hclose _ _)
      · rename_i heq
        exact absurd heq (hcomma _ _)
      · rfl

/-- **A step reads a part by the flags alone, and adds it.** -/
theorem step?_eq [UnicodeClasses] (r : Reader) (c : Char) (t : Text) :
    r.step? c t = r.goOn? (Part.read? r.flags c t) := by
  unfold step?
  split
  · exact r.readGroup?_eq t
  · rfl
  · rfl
  · change _ = r.goOn? ((Bracket.set? r.flags t).map _)
    rcases Bracket.set? r.flags t with _ | ⟨set, u⟩ <;> rfl
  · exact r.readMark?_eq 0 (some 1) t
  · exact r.readMark?_eq 0 none t
  · exact r.readMark?_eq 1 none t
  · exact r.readCounts?_eq t
  · change _ = r.goOn? ((Escape.read? r.flags t).bind _)
    rcases Escape.read? r.flags t with _ | ⟨e, u⟩
    · rfl
    · dsimp only [Option.bind_some]
      cases escape? r.flags e <;> rfl
  · change _ = r.goOn? ((dot? r.flags).map _)
    cases dot? r.flags <;> rfl
  · rfl
  · rfl
  · unfold Part.read?
    split
    all_goals first | contradiction | rfl

end Reader

/-! ## What stands behind a part -/

/-- a list of flags ends where it ends -/
theorem flags_read?_append {f f' : Flags} {seen seen' : List Char} {negated : Bool} {ending : Flags.Ending}
    {t rest : Text} (h : f.read? seen negated t = some (f', seen', ending, rest)) (s : Text) :
    f.read? seen negated (t ++ s) = some (f', seen', ending, rest ++ s) := by
  induction t generalizing f seen negated with
  | nil => cases h
  | cons c t ih =>
    rw [List.cons_append]
    by_cases hclose : c = ')'
    · subst hclose
      rw [Flags.read?] at h ⊢
      split_ifs at h ⊢
      obtain ⟨rfl, rfl, rfl, rfl⟩ := by simpa using h
      rfl
    by_cases hcolon : c = ':'
    · subst hcolon
      rw [Flags.read?] at h ⊢
      split_ifs at h ⊢
      obtain ⟨rfl, rfl, rfl, rfl⟩ := by simpa using h
      rfl
    rw [Flags.read?.eq_4 f seen negated c _ hclose hcolon] at h ⊢
    split_ifs at h ⊢
    · exact ih h
    · cases hset : f.set? c (!negated) with
      | none =>
        rw [hset] at h
        cases h
      | some f₁ =>
        rw [hset] at h
        exact ih h

theorem Reader.name?_append {t name rest : Text} (h : Reader.name? t = some (name, rest)) (s : Text) :
    Reader.name? (t ++ s) = some (name, rest ++ s) := by
  unfold name? at h ⊢
  dsimp only at h ⊢
  split at h
  · rename_i c cs d rest' hname hrest
    have hle : (t.takeWhile (· != '>')).length < t.length := by
      by_contra hno
      rw [List.drop_eq_nil_of_le (Nat.le_of_not_lt hno)] at hrest
      cases hrest
    rw [List.takeWhile_append, if_neg hle.ne, List.drop_append_of_le_length hle.le, hrest, hname]
    split_ifs at h with hchars
    obtain ⟨rfl, rfl⟩ := Prod.mk.inj (Option.some.inj h)
    simp only [List.cons_append]
    rw [if_pos hchars, hname]
  · cases h

/-- a mark without a closing parenthesis does not reach over one -/
theorem isPrefixOf_append {mark : Text} (hmark : ')' ∉ mark) (t s : Text) :
    mark.isPrefixOf (t ++ ')' :: s) = mark.isPrefixOf t := by
  induction mark generalizing t with
  | nil => rfl
  | cons c mark ih =>
    obtain ⟨hc, hmark⟩ := not_or.1 (List.mem_cons.not.1 hmark)
    cases t with
    | nil =>
      rw [List.nil_append, List.isPrefixOf_cons_cons, beq_false_of_ne (Ne.symm hc)]
      rfl
    | cons d t => rw [List.cons_append, List.isPrefixOf_cons_cons, List.isPrefixOf_cons_cons, ih hmark]

theorem Reader.isLookAround_append (t s : Text) : isLookAround (t ++ ')' :: s) = isLookAround t := by
  simp only [isLookAround, List.any_cons, List.any_nil]
  rw [isPrefixOf_append (by decide), isPrefixOf_append (by decide), isPrefixOf_append (by decide),
    isPrefixOf_append (by decide)]

theorem after?_append {mark : Text} (hmark : ')' ∉ mark) (t s : Text) :
    Text.after? mark (t ++ ')' :: s) = (Text.after? mark t).map (· ++ ')' :: s) := by
  unfold Text.after?
  rw [isPrefixOf_append hmark]
  split_ifs with hprefix
  · have hle := (List.isPrefixOf_iff_prefix.1 hprefix).length_le
    rw [List.drop_append_of_le_length hle, Option.map_some]
  · rfl

namespace Part

theorem ofFlags?_eq_some {flags : Flags} {seen : List Char} {ending : Flags.Ending} {part : Part} {t rest : Text}
    (h : ofFlags? (flags, seen, ending, t) = some (part, rest)) :
    rest = t ∧ ∀ u, ofFlags? (flags, seen, ending, u) = some (part, u) := by
  rcases seen with _ | ⟨c, seen⟩ <;> cases ending <;> cases h <;> exact ⟨rfl, fun u => rfl⟩

theorem start?_append {f : Flags} {part : Part} {t rest : Text} (h : start? f t = some (part, rest)) (s : Text) :
    start? f (t ++ ')' :: s) = some (part, rest ++ ')' :: s) := by
  unfold start? at h ⊢
  rw [Reader.isLookAround_append, after?_append (by decide), after?_append (by decide), ← Option.map_or]
  split_ifs at h ⊢
  generalize (Text.after? "?P<".toList t).or (Text.after? "?<".toList t) = name? at h ⊢
  rcases name? with _ | u
  · by_cases hflags : ∃ u, t = '?' :: u
    · obtain ⟨u, rfl⟩ := hflags
      obtain ⟨⟨flags, seen, ending, v⟩, hread, hpart⟩ := Option.bind_eq_some_iff.1 h
      obtain ⟨rfl, hany⟩ := ofFlags?_eq_some hpart
      change (f.read? [] false (u ++ ')' :: s)).bind ofFlags? = _
      rw [flags_read?_append hread, Option.bind_some, hany]
    · dsimp only [Option.map_none] at h ⊢
      split at h
      · exact absurd ⟨_, rfl⟩ hflags
      · obtain ⟨rfl, rfl⟩ := Prod.mk.inj (Option.some.inj h)
        split
        · rename_i heq
          rcases t with _ | ⟨c, t⟩
          · cases (List.cons.inj heq).1
          · exact absurd ⟨t, by rw [(List.cons.inj heq).1]⟩ hflags
        · rfl
  · obtain ⟨⟨name, v⟩, hname, heq⟩ := Option.map_eq_some_iff.1 h
    obtain ⟨rfl, rfl⟩ := Prod.mk.inj heq
    dsimp only [Option.map_some]
    rw [Reader.name?_append hname, Option.map_some]

theorem mark_append (low : Nat) (high : Option Nat) (t s : Text) :
    mark low high (t ++ ')' :: s) = ((mark low high t).1, (mark low high t).2 ++ ')' :: s) := by
  by_cases hmark : ∃ u, t = '?' :: u
  · obtain ⟨u, rfl⟩ := hmark
    rfl
  · have hplain : ∀ u, t = '?' :: u → False := fun u hu => hmark ⟨u, hu⟩
    rw [mark.eq_2 low high t hplain, mark.eq_2]
    intro u hu
    rcases t with _ | ⟨c, t⟩
    · cases (List.cons.inj hu).1
    · exact hplain t (by rw [(List.cons.inj hu).1])

theorem steady_mark (low : Nat) (high : Option Nat) (t : Text) :
    Steady (fun u => some (mark low high u)) (fun u => some ((mark low high t).1, u)) t (mark low high t).2 :=
  .of_firm rfl fun s => by rw [mark_append]

/-- a mark behind free spacing -/
theorem steady_skip_mark (f : Flags) (low : Nat) (high : Option Nat) (t : Text) :
    Steady (fun u => some (mark low high (skip f u))) (fun u => some ((mark low high (skip f t)).1, u)) t
      (mark low high (skip f t)).2 :=
  (steady_mark low high (skip f t)).behind_skip fun h => (Prod.mk.inj (Option.some.inj h)).2.symm

/-- a count is no empty text -/
theorem count?_nil (f : Flags) : Reader.count? f [] = none := by
  simp [Reader.count?, Reader.countDigits]

theorem upTo?_of_count {f : Flags} {low high : Nat} {t u : Text} (hbrace : ∀ v, skip f t ≠ '}' :: v)
    (hcount : Reader.count? f (skip f t) = some (high, '}' :: u)) (hle : low ≤ high) :
    upTo? f low t = some (mark low (some high) (skip f u)) := by
  unfold upTo?
  split
  · rename_i v hv
    exact absurd hv (hbrace v)
  · simp only [hcount, if_pos hle]

theorem steady_upTo? {f : Flags} {low : Nat} {part : Part} {t rest : Text} (h : upTo? f low t = some (part, rest)) :
    Steady (upTo? f low) (fun u => some (part, u)) t rest := by
  unfold upTo? at h
  split at h
  · rename_i u hu
    obtain ⟨rfl, rfl⟩ := Prod.mk.inj (Option.some.inj h)
    refine (steady_skip_mark f low none u).skipped hu fun v w w' hv hw => ?_
    simp only [upTo?, hv]
    exact hw
  · rename_i hbrace
    split at h
    · rename_i high u hcount
      split_ifs at h with hle
      obtain ⟨rfl, rfl⟩ := Prod.mk.inj (Option.some.inj h)
      have hne : skip f t ≠ [] := by
        intro hnil
        rw [hnil, count?_nil] at hcount
        cases hcount
      have hread := (Reader.steady_count? f hcount).of_ne_nil (List.cons_ne_nil _ _)
      have hskip := skip_append_of_ne_nil hne
      refine (steady_skip_mark f low (some high) u).lift
        (fun v w => upTo? f low v = some (mark low (some high) (skip f w)))
        (upTo?_of_count (fun v hv => hbrace v hv) hcount hle) (fun s => ?_) ?_
      · refine upTo?_of_count (fun v hv => ?_) (by rw [hskip, hread]; rfl) hle
        obtain ⟨c, w, hw⟩ := List.exists_cons_of_ne_nil hne
        rw [hskip, hw] at hv
        exact hbrace w (by rw [hw, (List.cons.inj hv).1])
      · intro v w w' hv hw
        exact hv.trans hw
    · cases h

theorem steady_counts? {f : Flags} {part : Part} {t rest : Text} (h : counts? f t = some (part, rest)) :
    Steady (counts? f) (fun u => some (part, u)) t rest := by
  have hread : ∀ {low u}, Reader.count? f (skip f t) = some (low, u) → u ≠ [] → ∀ s,
      Reader.count? f (skip f (t ++ ')' :: s)) = some (low, u ++ ')' :: s) := by
    intro low u hcount hu s
    have hne : skip f t ≠ [] := by
      intro hnil
      rw [hnil, count?_nil] at hcount
      cases hcount
    rw [skip_append_of_ne_nil hne]
    exact (Reader.steady_count? f hcount).of_ne_nil hu s
  unfold counts? at h
  split at h
  · rename_i low u hcount
    obtain ⟨rfl, rfl⟩ := Prod.mk.inj (Option.some.inj h)
    refine (steady_skip_mark f low (some low) u).lift
      (fun v w => Reader.count? f (skip f v) = some (low, '}' :: w)) hcount
      (hread hcount (List.cons_ne_nil _ _)) ?_
    intro v w w' hv hw
    simp only [counts?, hv]
    exact hw
  · rename_i low u hcount
    refine (steady_upTo? h).lift (fun v w => Reader.count? f (skip f v) = some (low, ',' :: w)) hcount
      (hread hcount (List.cons_ne_nil _ _)) ?_
    intro v w w' hv hw
    simp only [counts?, hv]
    exact hw
  · cases h

/-- **Every part is steady.** -/
theorem steady_read? [UnicodeClasses] {f : Flags} {c : Char} {part : Part} {t rest : Text}
    (h : read? f c t = some (part, rest)) :
    Steady (read? f c) (fun u => some (part, u)) t rest := by
  unfold read? at h
  split at h
  · have hfirm : Steady (start? f) (fun u => some (part, u)) (skip f t) rest := .of_firm h (start?_append h)
    exact hfirm.behind_skip fun hnil => (Prod.mk.inj (Option.some.inj hnil)).2.symm
  · obtain ⟨rfl, rfl⟩ := Prod.mk.inj (Option.some.inj h)
    exact .of_firm rfl fun s => rfl
  · obtain ⟨rfl, rfl⟩ := Prod.mk.inj (Option.some.inj h)
    exact .of_firm rfl fun s => rfl
  · obtain ⟨⟨set, u⟩, hset, heq⟩ := Option.map_eq_some_iff.1 h
    obtain ⟨rfl, rfl⟩ := Prod.mk.inj heq
    refine .of_firm ?_ fun s => ?_
    · change (Bracket.set? f t).map _ = _
      rw [hset]
      rfl
    · change (Bracket.set? f (t ++ ')' :: s)).map _ = _
      rw [Bracket.set?_append hset]
      rfl
  · obtain ⟨rfl, rfl⟩ := Prod.mk.inj (Option.some.inj h)
    exact steady_mark 0 (some 1) t
  · obtain ⟨rfl, rfl⟩ := Prod.mk.inj (Option.some.inj h)
    exact steady_mark 0 none t
  · obtain ⟨rfl, rfl⟩ := Prod.mk.inj (Option.some.inj h)
    exact steady_mark 1 none t
  · exact steady_counts? h
  · obtain ⟨⟨e, u⟩, hread, h⟩ := Option.bind_eq_some_iff.1 h
    obtain ⟨p, hp, heq⟩ := Option.map_eq_some_iff.1 h
    obtain ⟨rfl, rfl⟩ := Prod.mk.inj heq
    refine (Escape.steady_read? f hread).map fun w w' hw => ?_
    change (Escape.read? f w).bind _ = _
    rw [hw, Option.bind_some]
    exact congrArg (Option.map _) hp
  · obtain ⟨p, hp, heq⟩ := Option.map_eq_some_iff.1 h
    obtain ⟨rfl, rfl⟩ := Prod.mk.inj heq
    have hdot : ∀ u, read? f '.' u = some (leaf p 0, u) := fun u => congrArg (Option.map _) hp
    exact .of_firm (hdot t) fun s => hdot _
  · obtain ⟨rfl, rfl⟩ := Prod.mk.inj (Option.some.inj h)
    exact .of_firm rfl fun s => rfl
  · obtain ⟨rfl, rfl⟩ := Prod.mk.inj (Option.some.inj h)
    exact .of_firm rfl fun s => rfl
  · obtain ⟨rfl, rfl⟩ := Prod.mk.inj (Option.some.inj h)
    have hleaf : ∀ u, read? f c u = some (leaf (Reader.literal f c) 0, u) := by
      intro u
      unfold read?
      split
      all_goals first | contradiction | rfl
    exact .of_firm (hleaf t) fun s => hleaf _

end Part

end CodeEditor.Pattern
