import CodeEditor.Pattern.Parser
import Mathlib.Tactic
/-!
What stands behind a part of a pattern.

The readers of a written pattern look ahead, and in free spacing they leave out comments, which go on to the end of
a line. So a part may be read otherwise once something stands behind the text it ends. What stands behind a rule in
a joined pattern is a closing parenthesis, and then only two things can happen (`Steady`): the part is read as
before, and the parenthesis with all that follows is left; or nothing was left of the text, and the parenthesis is
lost in a comment. Each reader has this, in the order in which they call each other, and so has the reading of a
whole pattern (`run?_cases`).
-/

namespace CodeEditor.Pattern

/-- `read` gives `result rest` for the text `t`, and does so with a closing parenthesis and anything else behind `t` and
what is left of it; or nothing is left, not even of a closing parenthesis behind `t` -/
def Steady {β : Type} (read result : Text → β) (t rest : Text) : Prop :=
  read t = result rest ∧
    ((∀ s, read (t ++ ')' :: s) = result (rest ++ ')' :: s)) ∨ (rest = [] ∧ read (t ++ [')']) = result []))

namespace Steady

variable {β γ : Type} {read result : Text → β} {inner innerResult : Text → γ} {t u rest : Text}

/-- what is left, is left with the parenthesis behind it -/
theorem of_ne_nil (h : Steady read result t rest) (hne : rest ≠ []) (s : Text) :
    read (t ++ ')' :: s) = result (rest ++ ')' :: s) := by
  rcases h.2 with hfirm | ⟨hnil, -⟩
  · exact hfirm s
  · exact absurd hnil hne

theorem of_firm (heq : read t = result rest) (h : ∀ s, read (t ++ ')' :: s) = result (rest ++ ')' :: s)) :
    Steady read result t rest :=
  ⟨heq, Or.inl h⟩

/-- reading nothing -/
theorem refl (read : Text → β) (t : Text) : Steady read read t t :=
  .of_firm rfl fun _ => rfl

/-- a reader that calls another one for a part `w` of its own text `v` -/
theorem lift (h : Steady inner innerResult u rest) (Calls : Text → Text → Prop) (ht : Calls t u)
    (hs : ∀ s, Calls (t ++ ')' :: s) (u ++ ')' :: s))
    (hvalue : ∀ v w w', Calls v w → inner w = innerResult w' → read v = result w') : Steady read result t rest := by
  refine ⟨hvalue t u rest ht h.1, ?_⟩
  rcases h.2 with hfirm | ⟨hnil, hlost⟩
  · exact Or.inl fun s => hvalue _ _ _ (hs s) (hfirm s)
  · exact Or.inr ⟨hnil, hvalue _ _ _ (hs []) hlost⟩

/-- the whole text is given to another reader -/
theorem map (h : Steady inner innerResult t rest) (hvalue : ∀ w w', inner w = innerResult w' → read w = result w') :
    Steady read result t rest := by
  refine h.lift Eq rfl (fun _ => rfl) ?_
  rintro v w w' rfl hw
  exact hvalue v w' hw

/-- what stands behind some characters is given to another reader -/
theorem behind (h : Steady inner innerResult t rest) {u : Text}
    (hvalue : ∀ w w', inner w = innerResult w' → read (u ++ w) = result w') : Steady read result (u ++ t) rest := by
  refine h.lift (fun v w => v = u ++ w) rfl (fun s => List.append_assoc _ _ _) ?_
  rintro v w w' rfl hw
  exact hvalue w w' hw

theorem cons (h : Steady inner innerResult t rest) {c : Char}
    (hvalue : ∀ w w', inner w = innerResult w' → read (c :: w) = result w') : Steady read result (c :: t) rest :=
  h.behind (u := [c]) hvalue

/-- one reader goes on with what another one left; of nothing it leaves nothing -/
theorem trans {result' : Text → β} {rest' : Text} (h : Steady read result t rest)
    (h' : Steady result result' rest rest') (hnil : rest = [] → rest' = []) : Steady read result' t rest' := by
  refine ⟨h.1.trans h'.1, ?_⟩
  rcases h.2 with hfirm | ⟨hempty, hlost⟩
  · rcases h'.2 with hfirm' | ⟨hempty', hlost'⟩
    · exact Or.inl fun s => (hfirm s).trans (hfirm' s)
    · exact Or.inr ⟨hempty', (hfirm []).trans hlost'⟩
  · have hrest := hnil hempty
    subst hempty hrest
    exact Or.inr ⟨rfl, hlost.trans h'.1⟩

end Steady

/-! ## Free spacing -/

theorem steady_skipFree (inComment : Bool) (t : Text) : Steady (skipFree inComment) id t (skipFree inComment t) := by
  fun_induction skipFree inComment t with
  | case1 inComment =>
    cases inComment with
    | false => exact .of_firm rfl fun s => rfl
    | true => exact ⟨rfl, Or.inr ⟨rfl, rfl⟩⟩
  | case2 c t ih =>
    refine ih.cons fun w w' hw => ?_
    simp only [skipFree, if_true, hw]
  | case3 inComment c t hcomment hspace ih =>
    refine ih.cons fun w w' hw => ?_
    simp only [skipFree, hcomment, hspace, if_true, hw]
    rfl
  | case4 inComment t hcomment hspace ih =>
    refine ih.cons fun w w' hw => ?_
    simp [skipFree, hcomment, hspace, hw]
  | case5 inComment c t hcomment hspace hmark =>
    have hstop : ∀ v, skipFree inComment (c :: v) = c :: v := fun v => by simp [skipFree, hcomment, hspace, hmark]
    exact .of_firm (hstop t) fun s => hstop (t ++ ')' :: s)

theorem steady_skip (f : Flags) (t : Text) : Steady (skip f) id t (skip f t) := by
  unfold skip
  split
  · exact steady_skipFree false t
  · exact .refl _ t

section

variable {β γ : Type} {read result : Text → β} {inner innerResult : Text → γ} {f : Flags} {t u rest : Text} {c : Char}

/-- a reader goes on behind free spacing -/
theorem Steady.behind_skip (h : Steady inner innerResult (skip f t) rest)
    (hnil : inner [] = innerResult rest → rest = []) :
    Steady (fun u => inner (skip f u)) innerResult t rest := by
  have hskip : Steady (fun u => inner (skip f u)) inner t (skip f t) :=
    (steady_skip f t).map fun w w' hw => congrArg inner hw
  refine hskip.trans h fun hempty => hnil ?_
  rw [← hempty]
  exact h.1

theorem skip_nil (f : Flags) : skip f [] = [] := by
  unfold skip
  split <;> rfl

/-- what stands behind free spacing, if anything does -/
theorem skip_append_of_ne_nil (hne : skip f t ≠ []) (s : Text) : skip f (t ++ ')' :: s) = skip f t ++ ')' :: s :=
  (steady_skip f t).of_ne_nil hne s

theorem skip_append (hu : skip f t = c :: u) (s : Text) : skip f (t ++ ')' :: s) = c :: (u ++ ')' :: s) := by
  rw [skip_append_of_ne_nil (by rw [hu]; exact List.cons_ne_nil c u), hu, List.cons_append]

/-- a reader leaves out free spacing first, and there is a character behind it -/
theorem Steady.skipped (hu : skip f t = c :: u) (h : Steady inner innerResult u rest)
    (hvalue : ∀ v w w', skip f v = c :: w → inner w = innerResult w' → read v = result w') :
    Steady read result t rest :=
  h.lift (fun v w => skip f v = c :: w) hu (skip_append hu) hvalue

/-- the same with a reader that starts at that character -/
theorem Steady.skippedTo (hu : skip f t = c :: u) (h : Steady inner innerResult (c :: u) rest)
    (hvalue : ∀ v w w', skip f v = c :: w → inner (c :: w) = innerResult w' → read v = result w') :
    Steady read result t rest := by
  refine h.lift (fun v w => ∃ w', w = c :: w' ∧ skip f v = w) ⟨u, rfl, hu⟩ (fun s => ⟨_, rfl, skip_append hu s⟩) ?_
  rintro v w w' ⟨w, rfl, hv⟩ hw
  exact hvalue v w w' hv hw

end

/-- a reader of characters of one kind, free spacing left out behind each -/
theorem steady_run (f : Flags) {kind : Char → Bool} (hkind : kind ')' = false) {read : Text → Text × Text}
    (hnil : read [] = ([], []))
    (hcons : ∀ c t, read (c :: t) = if kind c then (c :: (read (skip f t)).1, (read (skip f t)).2) else ([], c :: t))
    {t cs rest : Text} (h : read t = (cs, rest)) : Steady read (fun u => (cs, u)) t rest := by
  have hstop : ∀ {c}, kind c = false → ∀ u, read (c :: u) = ([], c :: u) := fun hc u => by simp [hcons, hc]
  induction hlen : t.length using Nat.strong_induction_on generalizing t cs with
  | _ len ih =>
    cases t with
    | nil =>
      rw [hnil] at h
      obtain ⟨rfl, rfl⟩ := Prod.mk.inj h
      exact .of_firm hnil fun s => hstop hkind s
    | cons c t =>
      cases hc : kind c with
      | true =>
        rw [hcons, if_pos hc] at h
        obtain ⟨rfl, hrest⟩ := Prod.mk.inj h
        have hlt : (skip f t).length < len := hlen ▸ length_skip_lt f c t
        have hread : read (skip f t) = ((read (skip f t)).1, rest) := Prod.ext rfl hrest
        refine ((ih _ hlt hread rfl).behind_skip ?_).cons fun w w' hw => ?_
        · intro hempty
          rw [hnil] at hempty
          exact (Prod.mk.inj hempty).2.symm
        · rw [hcons, if_pos hc, hw]
      | false =>
        rw [hstop hc] at h
        obtain ⟨rfl, rfl⟩ := Prod.mk.inj h
        exact .of_firm (hstop hc t) fun s => hstop hc _

/-- white space ends at the parenthesis -/
theorem dropWhile_isWhiteSpace_append (t s : Text) :
    (t ++ ')' :: s).dropWhile isWhiteSpace = t.dropWhile isWhiteSpace ++ ')' :: s := by
  induction t with
  | nil => exact List.dropWhile_cons_of_neg (by decide)
  | cons c t ih =>
    cases hc : isWhiteSpace c with
    | true => rw [List.cons_append, List.dropWhile_cons_of_pos hc, List.dropWhile_cons_of_pos hc, ih]
    | false => rw [List.cons_append, List.dropWhile_cons_of_neg (by simp [hc]),
        List.dropWhile_cons_of_neg (by simp [hc]), List.cons_append]

/-! ## Escapes -/

namespace Escape

theorem steady_digits? (f : Flags) {count : Nat} {t : Text} {ds rest : Text} (h : digits? f count t = some (ds, rest)) :
    Steady (digits? f count) (fun u => some (ds, u)) t rest := by
  induction count generalizing t ds with
  | zero =>
    obtain ⟨rfl, rfl⟩ := Prod.mk.inj (Option.some.inj ((digits?.eq_1 f t).symm.trans h))
    exact .of_firm (digits?.eq_1 f t) fun s => digits?.eq_1 f _
  | succ count ih =>
    cases t with
    | nil => cases h
    | cons c t =>
      simp only [digits?] at h
      split_ifs at h with hc
      obtain ⟨⟨ds', rest'⟩, hread, heq⟩ := Option.map_eq_some_iff.1 h
      obtain ⟨rfl, rfl⟩ := Prod.mk.inj heq
      refine ((ih hread).behind_skip ?_).cons fun w w' hw => ?_
      · intro hnil
        cases count with
        | zero => exact (Prod.mk.inj (Option.some.inj hnil)).2.symm
        | succ count => cases hnil
      · simp only [digits?, hc, if_true, hw, Option.map_some]

/-- a reader of characters of one kind up to a closing brace, free spacing left out behind each -/
theorem steady_upToBrace (f : Flags) {kind : Char → Bool} {read : Text → Option (Text × Text)} {behind : Text → Text}
    (hbehind : ∀ t, Steady behind id t (behind t)) (hnil : read [] = none)
    (hbrace : ∀ t, read ('}' :: t) = some ([], behind t))
    (hcons : ∀ c t, c ≠ '}' → read (c :: t) =
      if kind c then (read (skip f t)).map fun (cs, t) => (c :: cs, t) else none)
    {t cs rest : Text} (h : read t = some (cs, rest)) : Steady read (fun u => some (cs, u)) t rest := by
  induction hlen : t.length using Nat.strong_induction_on generalizing t cs with
  | _ len ih =>
    cases t with
    | nil => simp [hnil] at h
    | cons c t =>
      by_cases hc : c = '}'
      · subst hc
        rw [hbrace] at h
        obtain ⟨rfl, rfl⟩ := Prod.mk.inj (Option.some.inj h)
        refine (hbehind t).cons fun w w' hw => ?_
        rw [hbrace, hw, id]
      · rw [hcons c t hc] at h
        split_ifs at h with hkind
        obtain ⟨⟨cs', rest'⟩, hread, heq⟩ := Option.map_eq_some_iff.1 h
        obtain ⟨rfl, rfl⟩ := Prod.mk.inj heq
        have hlt : (skip f t).length < len := hlen ▸ length_skip_lt f c t
        refine ((ih _ hlt hread rfl).behind_skip ?_).cons fun w w' hw => ?_
        · intro hempty
          simp [hnil] at hempty
        · rw [hcons c _ hc, if_pos hkind, hw, Option.map_some]

theorem steady_braced? (f : Flags) {t : Text} {ds rest : Text} (h : braced? f t = some (ds, rest)) :
    Steady (braced? f) (fun u => some (ds, u)) t rest :=
  steady_upToBrace f (steady_skip f) (braced?.eq_1 f) (braced?.eq_2 f) (braced?.eq_3 f) h

theorem steady_className? (f : Flags) {t name rest : Text} (h : className? f t = some (name, rest)) :
    Steady (className? f) (fun u => some (name, u)) t rest :=
  steady_upToBrace f (.refl id) (className?.eq_1 f) (className?.eq_2 f)
    (fun c t hc => (className?.eq_3 f c t hc).trans (if_pos rfl).symm) h

theorem steady_code? (f : Flags) {count : Nat} (hcount : 0 < count) {t : Text} {e : Escape} {rest : Text}
    (h : code? f count t = some (e, rest)) : Steady (code? f count) (fun u => some (e, u)) t rest := by
  unfold code? at h
  split at h
  · rename_i u hu
    split at h
    · cases h
    · cases h
    · rename_i digits rest' hne hread
      obtain ⟨c, hc, heq⟩ := Option.map_eq_some_iff.1 h
      obtain ⟨rfl, rfl⟩ := Prod.mk.inj heq
      have hin : Steady (fun v => braced? f (skip f v)) (fun v => some (digits, v)) u rest' :=
        (steady_braced? f hread).behind_skip fun hnil => by simp [braced?] at hnil
      refine hin.skipped hu fun v w w' hv hw => ?_
      simp only [code?, hv, hw]
      rw [hc, Option.map_some]
  · rename_i hbrace
    split at h
    · cases h
    · rename_i digits rest' hread
      obtain ⟨c, hc, heq⟩ := Option.map_eq_some_iff.1 h
      obtain ⟨rfl, rfl⟩ := Prod.mk.inj heq
      obtain ⟨count, rfl⟩ := Nat.exists_eq_add_of_lt hcount
      cases hu : skip f t with
      | nil =>
        rw [hu] at hread
        cases hread
      | cons d u =>
        rw [hu] at hread
        refine (steady_digits? f hread).skippedTo hu fun v w w' hv hw => ?_
        have hd : d ≠ '{' := fun hd => hbrace u (by rw [hu, hd])
        simp only [code?, hv]
        split
        · rename_i heq
          exact absurd (List.cons.inj heq).1 hd
        · rw [hw]
          simp only
          rw [hc, Option.map_some]

theorem steady_property? (f : Flags) {negated : Bool} {t : Text} {e : Escape} {rest : Text}
    (h : property? f negated t = some (e, rest)) : Steady (property? f negated) (fun u => some (e, u)) t rest := by
  unfold property? at h
  split at h
  · cases h
  · rename_i u hu
    obtain ⟨⟨name, rest'⟩, hname, heq⟩ := Option.map_eq_some_iff.1 h
    obtain ⟨rfl, rfl⟩ := Prod.mk.inj heq
    have hin : Steady (fun v => className? f (skip f v)) (fun v => some (name, v)) u rest' :=
      (steady_className? f hname).behind_skip fun hnil => by simp [className?] at hnil
    refine hin.skipped hu fun v w w' hv hw => ?_
    simp only [property?, hv, hw, Option.map_some]
  · cases h
  · rename_i c u hbrace hslash hu
    obtain ⟨rfl, rfl⟩ := Prod.mk.inj (Option.some.inj h)
    have hread : ∀ {v w}, skip f v = c :: w → property? f negated v = some (.property [c] negated, w) := by
      intro v w hv
      rw [property?, hv]
      split <;> simp_all
    exact .of_firm (hread hu) fun s => hread (skip_append hu s)

theorem steady_edgeName (f : Flags) {t name rest : Text} (h : edgeName f t = (name, rest)) :
    Steady (edgeName f) (fun u => (name, u)) t rest :=
  steady_run f rfl (edgeName.eq_1 f) (edgeName.eq_2 f) h

theorem steady_wordEdge? (f : Flags) {t : Text} {e : Escape} {rest : Text} (h : wordEdge? f t = some (e, rest)) :
    Steady (wordEdge? f) (fun u => some (e, u)) t rest := by
  refine .of_firm h fun s => ?_
  unfold wordEdge? at h
  split at h
  · rename_i t
    split at h
    · cases h
    · rename_i c u hu
      have hskip := skip_append hu s
      split_ifs at h with hc
      · split at h
        · rename_i name rest' hname
          obtain ⟨edge, hedge, heq⟩ := Option.map_eq_some_iff.1 h
          obtain ⟨rfl, rfl⟩ := Prod.mk.inj heq
          have hread := (steady_edgeName f hname).of_ne_nil (List.cons_ne_nil _ _) s
          simp only [List.cons_append] at hread
          simp only [wordEdge?, List.cons_append, hskip, hc, if_true, hread, hedge, Option.map_some]
        · cases h
      · obtain ⟨rfl, rfl⟩ := Prod.mk.inj (Option.some.inj h)
        simp only [wordEdge?, List.cons_append, hskip, hc, Bool.false_eq_true, if_false]
  · rename_i hbrace
    obtain ⟨rfl, rfl⟩ := Prod.mk.inj (Option.some.inj h)
    cases t with
    | nil => rfl
    | cons c t =>
      have hc : c ≠ '{' := fun hc => hbrace t (by rw [hc])
      rw [List.cons_append, wordEdge?.eq_2]
      rintro u hu
      exact hc (List.cons.inj hu).1

/-- behind all letters but these, an escape is read without a look at what follows -/
theorem read?_of_letter (f : Flags) {c : Char} (hc : c ∉ ['x', 'u', 'U', 'p', 'P', 'b']) {t : Text} {e : Escape}
    {rest : Text} (h : read? f (c :: t) = some (e, rest)) : rest = t ∧ ∀ u, read? f (c :: u) = some (e, u) := by
  simp only [read?] at h ⊢
  split at h
  case h_1 | h_2 | h_3 | h_4 | h_5 | h_20 => exact absurd (by decide) hc
  case h_24 =>
    split_ifs at h with hself
    obtain ⟨rfl, rfl⟩ := Prod.mk.inj (Option.some.inj h)
    exact ⟨rfl, fun u => if_pos hself⟩
  all_goals
    obtain ⟨rfl, rfl⟩ := Prod.mk.inj (Option.some.inj h)
    exact ⟨rfl, fun u => rfl⟩

theorem steady_read? (f : Flags) {t : Text} {e : Escape} {rest : Text} (h : read? f t = some (e, rest)) :
    Steady (read? f) (fun u => some (e, u)) t rest := by
  cases t with
  | nil => cases h
  | cons c t =>
    by_cases hc : c ∈ ['x', 'u', 'U', 'p', 'P', 'b']
    · simp only [List.mem_cons, List.not_mem_nil, or_false] at hc
      obtain rfl | rfl | rfl | rfl | rfl | rfl := hc
      · exact (steady_code? f (by decide) h).cons fun w w' hw => hw
      · exact (steady_code? f (by decide) h).cons fun w w' hw => hw
      · exact (steady_code? f (by decide) h).cons fun w w' hw => hw
      · exact (steady_property? f h).cons fun w w' hw => hw
      · exact (steady_property? f h).cons fun w w' hw => hw
      · exact (steady_wordEdge? f h).cons fun w w' hw => hw
    · obtain ⟨rfl, hread⟩ := read?_of_letter f hc h
      exact .of_firm h fun s => hread _

end Escape

/-! ## Counts -/

namespace Reader

theorem steady_countDigits (f : Flags) {t ds rest : Text} (h : countDigits f t = (ds, rest)) :
    Steady (countDigits f) (fun u => (ds, u)) t rest :=
  steady_run f rfl (countDigits.eq_1 f) (countDigits.eq_2 f) h

theorem steady_skipSpaces (f : Flags) (t : Text) : Steady (skipSpaces f) id t (skipSpaces f t) := by
  induction hlen : t.length using Nat.strong_induction_on generalizing t with
  | _ len ih =>
    cases t with
    | nil =>
      rw [skipSpaces]
      exact .of_firm (skipSpaces.eq_1 f) fun s => skipSpaces.eq_2 f ')' s
    | cons c t =>
      by_cases hc : isWhiteSpace c
      · rw [skipSpaces, if_pos hc]
        have hlt : (skip f t).length < len := hlen ▸ length_skip_lt f c t
        refine ((ih _ hlt _ rfl).behind_skip ?_).cons fun w w' hw => ?_
        · intro hnil
          rw [skipSpaces] at hnil
          exact hnil.symm
        · rw [skipSpaces, if_pos hc, hw]
      · have hstop : ∀ u, skipSpaces f (c :: u) = c :: u := fun u => by rw [skipSpaces, if_neg hc]
        rw [hstop]
        exact .of_firm (hstop t) fun s => hstop _

theorem steady_count? (f : Flags) {t : Text} {n : Nat} {rest : Text} (h : count? f t = some (n, rest)) :
    Steady (count? f) (fun u => some (n, u)) t rest := by
  simp only [count?] at h
  split at h
  · cases h
  · rename_i digits u hne hdigits
    split_ifs at h with hsize
    obtain ⟨rfl, rfl⟩ := Prod.mk.inj (Option.some.inj h)
    have hfirst : Steady (fun v => ((countDigits f v).1, skipSpaces f (countDigits f v).2))
      (fun v => (digits, skipSpaces f v))
        (t.dropWhile isWhiteSpace) u :=
      (steady_countDigits f hdigits).map fun w w' hw => by rw [hw]
    have hsecond : Steady (fun v => (digits, skipSpaces f v)) (fun v => (digits, v)) u (skipSpaces f u) :=
      (steady_skipSpaces f u).map fun w w' hw => by rw [hw, id]
    have hread := hfirst.trans hsecond fun hu => by rw [hu, skipSpaces]
    refine hread.lift (fun v w => v.dropWhile isWhiteSpace = w) rfl (dropWhile_isWhiteSpace_append t) ?_
    rintro v w w' rfl hw
    obtain ⟨hdigits', rfl⟩ := Prod.mk.inj hw
    simp only [count?]
    split
    · rename_i heq
      rw [heq] at hdigits'
      exact absurd hdigits'.symm hne
    · rename_i heq
      rw [heq] at hdigits'
      obtain rfl := hdigits'
      rw [heq, if_pos hsize]

end Reader

end CodeEditor.Pattern
