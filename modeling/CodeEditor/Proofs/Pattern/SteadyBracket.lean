import CodeEditor.Proofs.Pattern.Steady
/-!
What stands behind a bracket expression.

A bracket expression ends at its own closing bracket, so it is read as it is whatever stands behind it (`steady_set?`).
On the way there the readers look further ahead than they go: for the end of a name, and for the character behind a
minus sign. A closing parenthesis is neither part of a name nor one of the characters that they look for.
-/

namespace CodeEditor.Pattern.Bracket

variable {f : Flags}

/-- minus signs end before another character, which is left -/
theorem readMinus?_append {parts parts' : List (Sized CharSet)} {t rest : Text}
    (h : readMinus? f parts t = some (parts', rest)) :
    rest ≠ [] ∧ ∀ s, readMinus? f parts (t ++ ')' :: s) = some (parts', rest ++ ')' :: s) := by
  induction hlen : t.length using Nat.strong_induction_on generalizing t parts with
  | _ len ih =>
    cases t with
    | nil =>
      rw [readMinus?] at h
      cases h
    | cons c t =>
      by_cases hc : c = '-'
      · subst hc
        rw [readMinus?] at h
        have hlt : (skip f t).length < len := hlen ▸ length_skip_lt f '-' t
        obtain ⟨hne, hread⟩ := ih _ hlt h rfl
        have hskip : skip f t ≠ [] := by
          intro hnil
          rw [hnil, readMinus?] at h
          cases h
        refine ⟨hne, fun s => ?_⟩
        rw [List.cons_append, readMinus?, skip_append_of_ne_nil hskip]
        exact hread s
      · rw [readMinus?.eq_3 f _ _ (by simp) (by simpa using hc)] at h
        obtain ⟨rfl, rfl⟩ := Prod.mk.inj (Option.some.inj h)
        refine ⟨List.cons_ne_nil c t, fun s => ?_⟩
        rw [List.cons_append, readMinus?.eq_3 f _ _ (by simp) (by simpa using hc)]

/-- the start of a bracket behind the caret there may be -/
def readFirst? (f : Flags) (negated : Bool) (t : Text) : Option (Bool × List (Sized CharSet) × Text) :=
  match readMinus? f [] t with
  | none => none
  | some ([], ']' :: t) =>
    match skip f t with
    | [] => none
    | t => some (negated, [⟨.char ']', 0⟩], t)
  | some (parts, t) => some (negated, parts, t)

theorem readStart?_of_caret {t u : Text} (hu : skip f t = '^' :: u) :
    readStart? f t = readFirst? f true (skip f u) := by
  simp only [readStart?, hu]
  rfl

theorem readStart?_of_no_caret {t : Text} (ht : ∀ u, skip f t ≠ '^' :: u) :
    readStart? f t = readFirst? f false (skip f t) := by
  unfold readStart?
  split
  rename_i negated v heq
  split at heq
  · rename_i u hu
    exact absurd hu (ht u)
  · obtain ⟨rfl, rfl⟩ := Prod.mk.inj heq
    rfl

theorem readFirst?_append {negated negated' : Bool} {parts : List (Sized CharSet)} {t rest : Text}
    (h : readFirst? f negated t = some (negated', parts, rest)) :
    t ≠ [] ∧ rest ≠ [] ∧ ∀ s, readFirst? f negated (t ++ ')' :: s) = some (negated', parts, rest ++ ')' :: s) := by
  have hne : t ≠ [] := by
    rintro rfl
    simp [readFirst?, readMinus?] at h
  refine ⟨hne, ?_⟩
  unfold readFirst? at h
  split at h
  · cases h
  · rename_i u hread
    obtain ⟨-, hread⟩ := readMinus?_append hread
    split at h
    · cases h
    · rename_i hskip
      obtain ⟨rfl, rfl, rfl⟩ := by simpa using h
      cases hu : skip f u with
      | nil => exact absurd hu hskip
      | cons c v =>
        refine ⟨List.cons_ne_nil c v, fun s => ?_⟩
        simp only [List.cons_append] at hread
        simp only [readFirst?, hread, skip_append hu s, List.cons_append]
  · rename_i parts' rest' hclose hread
    obtain ⟨hrest, hread⟩ := readMinus?_append hread
    obtain ⟨rfl, rfl, rfl⟩ := by simpa using h
    refine ⟨hrest, fun s => ?_⟩
    simp only [readFirst?, hread]
    split
    · rename_i heq
      cases heq
    · rename_i u heq
      obtain ⟨hnil, heq⟩ := Prod.mk.inj (Option.some.inj heq)
      obtain ⟨c, v, rfl⟩ := List.exists_cons_of_ne_nil hrest
      obtain ⟨rfl, -⟩ := List.cons.inj heq
      exact (hclose v hnil rfl).elim
    · rename_i heq
      obtain ⟨rfl, rfl⟩ := by simpa using heq
      rfl

theorem readStart?_append {negated : Bool} {parts : List (Sized CharSet)} {t rest : Text}
    (h : readStart? f t = some (negated, parts, rest)) :
    rest ≠ [] ∧ ∀ s, readStart? f (t ++ ')' :: s) = some (negated, parts, rest ++ ')' :: s) := by
  by_cases hcaret : ∃ u, skip f t = '^' :: u
  · obtain ⟨u, hu⟩ := hcaret
    rw [readStart?_of_caret hu] at h
    obtain ⟨hne, hrest, hread⟩ := readFirst?_append h
    refine ⟨hrest, fun s => ?_⟩
    rw [readStart?_of_caret (skip_append hu s), skip_append_of_ne_nil hne]
    exact hread s
  · have hplain : ∀ u, skip f t ≠ '^' :: u := fun u hu => hcaret ⟨u, hu⟩
    rw [readStart?_of_no_caret hplain] at h
    obtain ⟨hne, hrest, hread⟩ := readFirst?_append h
    have hfirm := skip_append_of_ne_nil hne
    refine ⟨hrest, fun s => ?_⟩
    rw [readStart?_of_no_caret, hfirm s]
    · exact hread s
    · intro u hu
      obtain ⟨c, v, hv⟩ := List.exists_cons_of_ne_nil hne
      rw [hfirm s, hv] at hu
      obtain ⟨rfl, -⟩ := List.cons.inj hu
      exact hplain v hv

/-! ## Names -/

/-- the set of a name, if it ends where it should -/
def closeName? (negated : Bool) (name : Text) : Text → Option (CharSet × Bool × Text)
  | ':' :: ']' :: rest => (CharSet.named.lookup (String.ofList name)).map (·, negated, rest)
  | _ => none

/-- a name up to its end, behind the caret there may be -/
def readName? (negated : Bool) (t : Text) : Option (CharSet × Bool × Text) :=
  closeName? negated (t.takeWhile (· != ':')) (t.dropWhile (· != ':'))

theorem named?_of_no_caret {t : Text} (ht : ∀ u, t ≠ '^' :: u) : named? (':' :: t) = readName? false t := by
  unfold named?
  split
  · rename_i t' heq
    obtain rfl := (List.cons.inj heq).2
    split
    rename_i negated v heq
    split at heq
    · exact absurd rfl (ht _)
    · obtain ⟨rfl, rfl⟩ := Prod.mk.inj heq
      rfl
  · rename_i hcolon
    exact absurd rfl (hcolon t)

theorem named?_of_no_colon {c : Char} (hc : c ≠ ':') (t : Text) : named? (c :: t) = none := by
  unfold named?
  split
  · rename_i heq
    exact absurd (List.cons.inj heq).1 hc
  · rfl

/-- no name has a parenthesis in it -/
theorem lookup_named_of_mem {name : Text} (h : ')' ∈ name) : CharSet.named.lookup (String.ofList name) = none := by
  rw [List.lookup_eq_none_iff]
  intro entry hentry
  have hnames : ∀ entry ∈ CharSet.named, ')' ∉ entry.1.toList := by decide
  rw [bne_iff_ne]
  rintro heq
  exact hnames entry hentry (by rw [← heq, String.toList_ofList]; exact h)

theorem closeName?_append (negated : Bool) (name : Text) {t : Text} (ht : t ≠ []) (s : Text) :
    closeName? negated name (t ++ ')' :: s) =
      (closeName? negated name t).map fun found => (found.1, found.2.1, found.2.2 ++ ')' :: s) := by
  rcases t with _ | ⟨c, _ | ⟨d, t⟩⟩
  · exact absurd rfl ht
  · simp [closeName?]
  · by_cases hends : c = ':' ∧ d = ']'
    · obtain ⟨rfl, rfl⟩ := hends
      simp only [List.cons_append, closeName?, Option.map_map]
      rfl
    · have hnone : ∀ u, closeName? negated name (c :: d :: u) = none := by
        intro u
        unfold closeName?
        split
        · rename_i heq
          simp only [List.cons.injEq] at heq
          exact absurd ⟨heq.1, heq.2.1⟩ hends
        · rfl
      rw [List.cons_append, List.cons_append, hnone, hnone]
      rfl

theorem closeName?_of_mem (negated : Bool) {name : Text} (h : ')' ∈ name) (t : Text) :
    closeName? negated name t = none := by
  unfold closeName?
  split
  · rw [lookup_named_of_mem h]
    rfl
  · rfl

/-- a name that ends is read as before, and no name reaches over the parenthesis -/
theorem readName?_append (negated : Bool) (t s : Text) :
    readName? negated (t ++ ')' :: s) = (readName? negated t).map fun found =>
      (found.1, found.2.1, found.2.2 ++ ')' :: s) := by
  have hlength := congrArg List.length (List.takeWhile_append_dropWhile (p := (· != ':')) (l := t))
  rw [List.length_append] at hlength
  unfold readName?
  rw [List.dropWhile_append, List.takeWhile_append]
  cases hdrop : t.dropWhile (· != ':') with
  | nil =>
    rw [hdrop, List.length_nil, Nat.add_zero] at hlength
    rw [if_pos hlength, closeName?_of_mem]
    · rfl
    · rw [List.takeWhile_cons_of_pos (by decide)]
      exact List.mem_append_right t List.mem_cons_self
  | cons c v =>
    rw [hdrop, List.length_cons] at hlength
    rw [if_neg (by omega)]
    exact closeName?_append negated _ (List.cons_ne_nil c v) s

theorem named?_append (t s : Text) :
    named? (t ++ ')' :: s) = (named? t).map fun found => (found.1, found.2.1, found.2.2 ++ ')' :: s) := by
  rcases t with _ | ⟨c, t⟩
  · rfl
  by_cases hc : c = ':'
  · subst hc
    by_cases hcaret : ∃ u, t = '^' :: u
    · obtain ⟨u, rfl⟩ := hcaret
      exact readName?_append true u s
    · have hplain : ∀ u, t ++ ')' :: s ≠ '^' :: u := by
        intro u heq
        rcases t with _ | ⟨d, t⟩
        · cases (List.cons.inj heq).1
        · exact hcaret ⟨t, by rw [(List.cons.inj heq).1]⟩
      rw [List.cons_append, named?_of_no_caret hplain, named?_of_no_caret fun u hu => hcaret ⟨u, hu⟩]
      exact readName?_append false t s
  · rw [List.cons_append, named?_of_no_colon hc, named?_of_no_colon hc]
    rfl

/-! ## Characters, classes and ranges -/

/-- the atom that an escape stands for -/
def Atom.ofEscape? [UnicodeClasses] (f : Flags) : Escape → Option Atom
  | .literal c _ => if isAscii c || f.unicode then some (.char c) else none
  | .shorthand s negated => (negate? f negated (s.set f.unicode)).map .set
  | .property name negated => (property? f name negated).map .set
  | _ => none

theorem atom?_escape [UnicodeClasses] (t : Text) :
    atom? f ('\\' :: t) = (Escape.read? f t).bind fun found => (Atom.ofEscape? f found.1).map (·, found.2) := by
  rw [atom?]
  rcases Escape.read? f t with _ | ⟨e, rest⟩
  · rfl
  · cases e with
    | literal c code =>
      simp only [Option.bind_some, Atom.ofEscape?]
      split_ifs <;> rfl
    | shorthand s negated => simp only [Option.bind_some, Atom.ofEscape?, Option.map_map, Function.comp_def]
    | property name negated => simp only [Option.bind_some, Atom.ofEscape?, Option.map_map, Function.comp_def]
    | textStart => rfl
    | textEnd => rfl
    | word edge => rfl

theorem steady_atom? [UnicodeClasses] {t rest : Text} {a : Atom} (h : atom? f t = some (a, rest)) :
    Steady (atom? f) (fun u => some (a, u)) t rest := by
  rcases t with _ | ⟨c, t⟩
  · cases h
  by_cases hc : c = '\\'
  · subst hc
    rw [atom?_escape] at h
    obtain ⟨⟨e, u⟩, hread, h⟩ := Option.bind_eq_some_iff.1 h
    obtain ⟨atom, hatom, heq⟩ := Option.map_eq_some_iff.1 h
    obtain ⟨rfl, rfl⟩ := Prod.mk.inj heq
    refine (Escape.steady_read? f hread).cons fun w w' hw => ?_
    rw [atom?_escape, hw, Option.bind_some, hatom, Option.map_some]
  · have hatom : ∀ u, atom? f (c :: u) = if isAscii c || f.unicode then some (.char c, u) else none := by
      intro u
      exact atom?.eq_3 f c u hc
    rw [hatom] at h
    split_ifs at h with hchar
    obtain ⟨rfl, rfl⟩ := Prod.mk.inj (Option.some.inj h)
    exact .of_firm (by rw [hatom, if_pos hchar]) fun s => by rw [List.cons_append, hatom, if_pos hchar]

/-- the character behind a minus sign is not made another mark by what stands behind the text -/
theorem peek_append {c : Char} (hc : isWhiteSpace c = false) (hmark : c ≠ '#') (hclose : c ≠ ')') (t s : Text) :
    peek f (t ++ ')' :: s) = some c ↔ peek f t = some c := by
  -- a text that starts with `c` has no white space to leave out
  have hkeeps : ∀ u : Text, u.head? = some c → (u.dropWhile isWhiteSpace).head? = some c := by
    intro u hu
    obtain ⟨v, rfl⟩ := List.head?_eq_some_iff.1 hu
    rw [List.dropWhile_cons_of_neg (by simp [hc]), List.head?_cons]
  have hhead : (t ++ ')' :: s).head? = some c ↔ t.head? = some c := by
    cases t with
    | nil => simpa using fun h => hclose h.symm
    | cons d t => rfl
  unfold peek
  split_ifs
  · rw [dropWhile_isWhiteSpace_append]
    have hskipped := hkeeps t
    cases hdrop : t.dropWhile isWhiteSpace with
    | nil =>
      rw [hdrop] at hskipped
      simp only [List.nil_append]
      constructor
      · intro h
        exact absurd (Option.some.inj h).symm hclose
      · intro h
        cases hskipped h
    | cons d u =>
      by_cases hd : d = '#'
      · subst hd
        rw [hdrop] at hskipped
        have hne : t.head? ≠ some c := fun h => hmark (Option.some.inj (hskipped h)).symm
        simp only [List.cons_append, dropWhile_isWhiteSpace_append]
        cases u.dropWhile isWhiteSpace with
        | nil => simpa [hne] using fun h => hclose h.symm
        | cons e v => simp
      · rw [List.cons_append]
        split
        · rename_i heq
          exact absurd (List.cons.inj heq).1 hd
        · rename_i heq
          rw [(List.cons.inj heq).1]
        · rename_i heq
          cases heq
  · exact hhead

/-- the set of an atom that stands alone -/
def Atom.alone : Atom → CharSet
  | char c => .char c
  | set s => s

/-- the range from an atom to the one read behind the minus sign -/
def endRange? (first : Atom) (last? : Option (Atom × Text)) : Option (CharSet × Text) :=
  match first, last? with
  | .char a, some (.char b, rest) => if a ≤ b then some (.range a b, rest) else none
  | _, _ => none

theorem endRange?_eq_some {first : Atom} {last? : Option (Atom × Text)} {set : CharSet} {rest : Text}
    (h : endRange? first last? = some (set, rest)) :
    ∃ last, last? = some (last, rest) ∧ ∀ w, endRange? first (some (last, w)) = some (set, w) := by
  unfold endRange? at h
  split at h
  · rename_i a b rest'
    split_ifs at h with hab
    obtain ⟨rfl, rfl⟩ := Prod.mk.inj (Option.some.inj h)
    exact ⟨.char b, rfl, fun w => if_pos hab⟩
  · cases h

section

variable [UnicodeClasses] {t u v : Text} {first : Atom} (h : atom? f t = some (first, u))
include h

theorem item?_of_range (hu : skip f u = '-' :: v) (hpeek : ¬(peek f v = some ']' ∨ peek f v = some '-')) :
    item? f t = endRange? first (atom? f (skip f v)) := by
  have hpeek' : (peek f v == some ']' || peek f v == some '-') = false := by
    rw [Bool.or_eq_false_iff, beq_eq_false_iff_ne, beq_eq_false_iff_ne]
    exact not_or.1 hpeek
  simp only [item?, h, hu, hpeek', Bool.false_eq_true, if_false]
  cases hv : skip f v with
  | nil =>
    rw [atom?]
    cases first <;> rfl
  | cons d w => rfl

theorem item?_of_minus (hu : skip f u = '-' :: v) (hpeek : peek f v = some ']' ∨ peek f v = some '-') :
    item? f t = some (first.alone, '-' :: v) := by
  have hpeek' : (peek f v == some ']' || peek f v == some '-') = true := by
    rw [Bool.or_eq_true, beq_iff_eq, beq_iff_eq]
    exact hpeek
  simp only [item?, h, hu, hpeek', if_true]
  cases first <;> rfl

theorem item?_of_other {d : Char} (hu : skip f u = d :: v) (hd : d ≠ '-') : item? f t = some (first.alone, d :: v) := by
  simp only [item?, h, hu]
  split
  · rename_i heq
    cases heq
  · rename_i heq
    exact absurd (List.cons.inj heq).1 hd
  · cases first <;> rfl

theorem item?_of_nil (hu : skip f u = []) : item? f t = none := by
  simp only [item?, h, hu]

end

theorem steady_item? [UnicodeClasses] {t rest : Text} {set : CharSet} (h : item? f t = some (set, rest)) :
    Steady (item? f) (fun u => some (set, u)) t rest := by
  cases hatom : atom? f t with
  | none =>
    rw [item?, hatom] at h
    cases h
  | some found =>
    obtain ⟨first, u⟩ := found
    cases hu : skip f u with
    | nil =>
      rw [item?_of_nil hatom hu] at h
      cases h
    | cons d v =>
      have hne : u ≠ [] := by
        rintro rfl
        rw [skip_nil] at hu
        cases hu
      have hread := (steady_atom? hatom).of_ne_nil hne
      have hskip := skip_append hu
      have hpeek : ∀ s, (peek f (v ++ ')' :: s) = some ']' ∨ peek f (v ++ ')' :: s) = some '-') ↔
          (peek f v = some ']' ∨ peek f v = some '-') := fun s =>
        or_congr (peek_append (by decide) (by decide) (by decide) v s)
          (peek_append (by decide) (by decide) (by decide) v s)
      by_cases hd : d = '-'
      · subst hd
        by_cases hends : peek f v = some ']' ∨ peek f v = some '-'
        · rw [item?_of_minus hatom hu hends] at h
          obtain ⟨rfl, rfl⟩ := Prod.mk.inj (Option.some.inj h)
          exact .of_firm (item?_of_minus hatom hu hends) fun s => item?_of_minus (hread s) (hskip s) ((hpeek s).2 hends)
        · have hcalls := item?_of_range hatom hu hends
          rw [hcalls] at h
          obtain ⟨last, hlast, hrange⟩ := endRange?_eq_some h
          have hv : skip f v ≠ [] := by
            intro hnil
            rw [hnil, atom?] at hlast
            cases hlast
          refine (steady_atom? hlast).lift (fun t w => item? f t = endRange? first (atom? f w)) hcalls (fun s => ?_) ?_
          · rw [item?_of_range (hread s) (hskip s) ((hpeek s).not.2 hends), skip_append_of_ne_nil hv]
          · intro t w w' ht hw
            rw [ht, hw, hrange]
      · rw [item?_of_other hatom hu hd] at h
        obtain ⟨rfl, rfl⟩ := Prod.mk.inj (Option.some.inj h)
        exact .of_firm (item?_of_other hatom hu hd) fun s => item?_of_other (hread s) (hskip s) hd

/-! ## The reader -/

/-- the operator at the start of a text -/
def operator? : Text → Option (Op × Text)
  | '&' :: '&' :: t => some (.inter, t)
  | '-' :: '-' :: t => some (.diff, t)
  | '~' :: '~' :: t => some (.symmDiff, t)
  | _ => none

theorem operator?_append {t : Text} (ht : t ≠ []) (s : Text) :
    operator? (t ++ ')' :: s) = (operator? t).map fun found => (found.1, found.2 ++ ')' :: s) := by
  rcases t with _ | ⟨c, _ | ⟨d, t⟩⟩
  · exact absurd rfl ht
  · simp [operator?]
  · unfold operator?
    simp only [List.cons_append]
    split <;> split <;> simp_all

section

variable [UnicodeClasses] {n : Nat} {stack : List Open} {parts : List (Sized CharSet)} {t u : Text}

theorem read?_of_nil (hu : skip f t = []) : read? f (n + 1) stack parts t = none := by
  simp only [read?, hu]

theorem read?_of_open (hu : skip f t = '[' :: u) :
    read? f (n + 1) stack parts t =
      match named? u with
      | some (s, negated, t) => (negate? f negated (fold f s)).bind fun s => read? f n stack (⟨s, 0⟩ :: parts) t
      | none => (readStart? f u).bind fun start => read? f n (.bracket start.1 parts :: stack) start.2.1 start.2.2 := by
  simp only [read?, hu]
  rcases named? u with _ | ⟨set, negated, w⟩
  · cases readStart? f u <;> rfl
  · cases hset : negate? f negated (fold f set) <;> simp only [hset] <;> rfl

theorem read?_of_close (hu : skip f t = ']' :: u) :
    read? f (n + 1) stack parts t =
      match applyOp f (close parts) stack with
      | (inner, .bracket negated outer :: stack) =>
        (negate? f negated (fold f inner.value)).bind fun s =>
          if stack.isEmpty then some (⟨s, 1 + inner.height⟩, u) else read? f n stack (⟨s, 1 + inner.height⟩ :: outer) u
      | _ => none := by
  simp only [read?, hu]
  rcases applyOp f (close parts) stack with ⟨inner, _ | ⟨⟨negated, outer⟩ | ⟨op, left⟩, stack'⟩⟩
  · rfl
  · cases hset : negate? f negated (fold f inner.value) <;> simp only [hset] <;> rfl
  · rfl

theorem read?_of_operator {op : Op} {v : Text} (hu : skip f t = v) (hop : operator? v = some (op, u)) :
    read? f (n + 1) stack parts t =
      read? f n (.op op (applyOp f (close parts) stack).1 :: (applyOp f (close parts) stack).2) [] u := by
  unfold operator? at hop
  split at hop
  · obtain ⟨rfl, rfl⟩ := Prod.mk.inj (Option.some.inj hop)
    simp only [read?, hu]
  · obtain ⟨rfl, rfl⟩ := Prod.mk.inj (Option.some.inj hop)
    simp only [read?, hu]
  · obtain ⟨rfl, rfl⟩ := Prod.mk.inj (Option.some.inj hop)
    simp only [read?, hu]
  · cases hop

theorem read?_of_item {c : Char} (hu : skip f t = c :: u) (hopen : c ≠ '[') (hclose : c ≠ ']')
    (hop : operator? (c :: u) = none) :
    read? f (n + 1) stack parts t =
      (item? f (c :: u)).bind fun found => read? f n stack (⟨found.1, 0⟩ :: parts) found.2 := by
  simp only [read?, hu]
  split
  · rename_i heq
    cases heq
  · rename_i heq
    exact absurd (List.cons.inj heq).1 hopen
  · rename_i heq
    exact absurd (List.cons.inj heq).1 hclose
  · rename_i heq
    rw [heq] at hop
    cases hop
  · rename_i heq
    rw [heq] at hop
    cases hop
  · rename_i heq
    rw [heq] at hop
    cases hop
  · cases item? f (c :: u) <;> rfl

end

/-- **The rest of a bracket expression is read as it is, whatever stands behind it.** Every round but the last leaves
something, so what it read is read again; the last one ends at the closing bracket. -/
theorem read?_append [UnicodeClasses] {n m : Nat} (hm : n ≤ m) {stack : List Open} {parts : List (Sized CharSet)}
    {t rest : Text} {set : Sized CharSet} (h : read? f n stack parts t = some (set, rest)) (s : Text) :
    read? f m stack parts (t ++ ')' :: s) = some (set, rest ++ ')' :: s) := by
  induction n generalizing m stack parts t with
  | zero => cases h
  | succ n ih =>
    obtain ⟨m, rfl⟩ : ∃ k, m = k + 1 := ⟨m - 1, by omega⟩
    have hm : n ≤ m := Nat.le_of_succ_le_succ hm
    cases hv : skip f t with
    | nil =>
      rw [read?_of_nil hv] at h
      cases h
    | cons c u =>
      have hskip := skip_append hv s
      by_cases hopen : c = '['
      · subst hopen
        rw [read?_of_open hv] at h
        rw [read?_of_open hskip, named?_append]
        cases hname : named? u with
        | some found =>
          rw [hname] at h
          obtain ⟨s', hs', h⟩ := Option.bind_eq_some_iff.1 h
          simp only [Option.map_some, hs', Option.bind_some]
          exact ih hm h
        | none =>
          rw [hname] at h
          obtain ⟨⟨negated, inner, w⟩, hstart, h⟩ := Option.bind_eq_some_iff.1 h
          simp only [Option.map_none, (readStart?_append hstart).2 s, Option.bind_some]
          exact ih hm h
      by_cases hclose : c = ']'
      · subst hclose
        rw [read?_of_close hv] at h
        rw [read?_of_close hskip]
        split at h
        · rename_i inner negated outer stack' heq
          obtain ⟨s', hs', h⟩ := Option.bind_eq_some_iff.1 h
          simp only [hs', Option.bind_some]
          split_ifs at h ⊢
          · obtain ⟨rfl, rfl⟩ := Prod.mk.inj (Option.some.inj h)
            rfl
          · exact ih hm h
        · cases h
      cases hop : operator? (c :: u) with
      | some found =>
        have hop' := operator?_append (List.cons_ne_nil c u) s
        rw [hop] at hop'
        rw [read?_of_operator hv hop] at h
        rw [read?_of_operator hskip hop']
        exact ih hm h
      | none =>
        have hop' := operator?_append (List.cons_ne_nil c u) s
        rw [hop] at hop'
        rw [read?_of_item hv hopen hclose hop] at h
        rw [read?_of_item hskip hopen hclose hop']
        obtain ⟨⟨s', w⟩, hitem, h⟩ := Option.bind_eq_some_iff.1 h
        have hw : w ≠ [] := by
          rintro rfl
          cases n with
          | zero => cases h
          | succ n =>
            rw [read?_of_nil (skip_nil f)] at h
            cases h
        have hread := (steady_item? hitem).of_ne_nil hw s
        rw [List.cons_append] at hread
        rw [hread, Option.bind_some]
        exact ih hm h

/-- **A bracket expression is read as it is, whatever stands behind it.** -/
theorem set?_append [UnicodeClasses] {t rest : Text} {set : Sized CharSet} (h : set? f t = some (set, rest))
    (s : Text) :
    set? f (t ++ ')' :: s) = some (set, rest ++ ')' :: s) := by
  unfold set? at h ⊢
  split at h
  · cases h
  · rename_i negated parts u hstart
    rw [(readStart?_append hstart).2 s]
    exact read?_append (by rw [List.length_append]; omega) h s

end CodeEditor.Pattern.Bracket
