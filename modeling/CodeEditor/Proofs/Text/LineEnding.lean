import CodeEditor.Text.LineEnding
import CodeEditor.Proofs.Text.Ink
/-!
Texts without CR.

Normalising leaves no CR, and leaves a text without CR as it is. So a text that is written with either line ending and
read again is the same text exactly if it has no CR (`normalizeNewlines_write_eq_iff`). The rest says which texts have
none: blanks, the pieces of a text without CR, and what is put together from such.
-/

namespace CodeEditor

namespace Text

/-- no CR: lines end in LF, as far as the two are concerned -/
def Normal (t : Text) : Prop :=
  '\r' ∉ t

instance (t : Text) : Decidable t.Normal :=
  inferInstanceAs (Decidable (¬ _))

variable {t u : Text}

theorem normal_nil : Normal [] :=
  List.not_mem_nil

theorem normal_cons {c : Char} : Normal (c :: t) ↔ c ≠ '\r' ∧ t.Normal := by
  simp [Normal, eq_comm]

theorem normal_append : Normal (t ++ u) ↔ t.Normal ∧ u.Normal := by
  simp [Normal]

theorem Normal.of_subset (h : u.Normal) (htu : t ⊆ u) : t.Normal :=
  fun hcr => h (htu hcr)

theorem Normal.flatten {ts : List Text} (h : ∀ t ∈ ts, t.Normal) : Normal ts.flatten := by
  intro hcr
  obtain ⟨t, ht, hmem⟩ := List.mem_flatten.1 hcr
  exact h t ht hmem

theorem Normal.slice (h : t.Normal) (i j : Nat) : (t.slice i j).Normal :=
  h.of_subset (List.Subset.trans (List.take_subset _ _) (List.drop_subset _ _))

theorem normal_of_allBlank (h : t.allBlank = true) : t.Normal :=
  fun hcr => absurd (List.all_eq_true.1 h _ hcr) (by decide)

theorem normal_indentation (t : Text) : t.indentation.Normal :=
  normal_of_allBlank t.allBlank_indentation

theorem normal_lineIndent (t : Text) (line : Nat) : (t.lineIndent line).Normal :=
  normal_indentation _

theorem subset_of_mem_splitOn {c : Char} {piece : Text} (h : piece ∈ t.splitOn c) : piece ⊆ t := by
  induction t generalizing piece with
  | nil =>
    rw [splitOn, List.mem_singleton] at h
    exact h ▸ List.Subset.refl _
  | cons d t ih =>
    rw [splitOn] at h
    split_ifs at h with hd
    · rcases List.mem_cons.1 h with rfl | h
      · exact List.nil_subset _
      · exact List.Subset.trans (ih h) (List.subset_cons_self d t)
    · split at h
      · rw [List.mem_singleton] at h
        exact h ▸ List.cons_subset_cons d (List.nil_subset t)
      · rename_i first rest hsplit
        rw [hsplit] at ih
        rcases List.mem_cons.1 h with rfl | h
        · exact List.cons_subset_cons d (ih List.mem_cons_self)
        · exact List.Subset.trans (ih (List.mem_cons_of_mem _ h)) (List.subset_cons_self d t)

/-- no separator stands in a piece -/
theorem not_mem_of_mem_splitOn {c : Char} {piece : Text} (h : piece ∈ t.splitOn c) : c ∉ piece := by
  induction t generalizing piece with
  | nil => rw [List.mem_singleton.1 h]; exact List.not_mem_nil
  | cons d t ih =>
    rw [splitOn] at h
    split_ifs at h with hd
    · rcases List.mem_cons.1 h with rfl | h
      · exact List.not_mem_nil
      · exact ih h
    · cases hpieces : splitOn c t with
      | nil =>
        rw [hpieces] at h
        rw [List.mem_singleton.1 h, List.mem_singleton]
        exact fun heq => hd heq.symm
      | cons first pieces =>
        rw [hpieces] at h ih
        rcases List.mem_cons.1 h with rfl | h
        · rw [List.mem_cons, not_or]
          exact ⟨fun heq => hd heq.symm, ih List.mem_cons_self⟩
        · exact ih (List.mem_cons_of_mem _ h)

/-! ## Normalising -/

theorem normal_normalizeNewlines (t : Text) : t.normalizeNewlines.Normal := by
  fun_induction normalizeNewlines t with
  | case1 => exact normal_nil
  | case2 t ih => exact normal_cons.2 ⟨by decide, ih⟩
  | case3 t _ ih => exact normal_cons.2 ⟨by decide, ih⟩
  | case4 c t _ hcr ih => exact normal_cons.2 ⟨hcr, ih⟩

theorem Normal.normalizeNewlines (h : t.Normal) : t.normalizeNewlines = t := by
  fun_induction Text.normalizeNewlines t with
  | case1 => rfl
  | case2 t _ => exact absurd rfl (normal_cons.1 h).1
  | case3 t _ _ => exact absurd rfl (normal_cons.1 h).1
  | case4 c t _ _ ih => rw [ih (normal_cons.1 h).2]

/-! ## CR LF texts -/

theorem hasCrlf_iff : t.hasCrlf = true ↔ ['\r', '\n'] <:+: t := by
  fun_induction hasCrlf t with
  | case1 => simp
  | case2 t => exact iff_of_true rfl ⟨[], t, rfl⟩
  | case3 c t hno ih =>
    have hprefix : ¬ ['\r', '\n'] <+: c :: t := by
      rintro ⟨rest, hrest⟩
      cases hrest
      exact hno rest rfl rfl
    rw [ih, List.infix_cons_iff, or_iff_right hprefix]

theorem Normal.hasCrlf (h : t.Normal) : t.hasCrlf = false := by
  rw [Bool.eq_false_iff, ne_eq, hasCrlf_iff]
  exact fun hpair => h (hpair.subset List.mem_cons_self)

/-- every CR is followed by an LF, and every LF comes behind a CR -/
structure CrlfOnly (t : Text) : Prop where
  lf : ∀ before behind, t = before ++ '\r' :: behind → behind.head? = some '\n'
  cr : ∀ before behind, t = before ++ '\n' :: behind → before.getLast? = some '\r'

/-- where both of a CR LF are, or neither, the rest is alike -/
theorem CrlfOnly.of_append {u : Text} (h : CrlfOnly (u ++ t)) (hu : u.getLast? ≠ some '\r') : t.CrlfOnly where
  lf := fun before behind ht => h.lf (u ++ before) behind (by rw [ht, List.append_assoc])
  cr := by
    intro before behind ht
    have hlast := h.cr (u ++ before) behind (by rw [ht, List.append_assoc])
    rw [List.getLast?_append] at hlast
    cases hbefore : before.getLast? with
    | none =>
      rw [hbefore] at hlast
      exact absurd hlast hu
    | some c =>
      rw [hbefore] at hlast
      exact hlast

theorem CrlfOnly.append {u : Text} (hu : u.CrlfOnly) (ht : CrlfOnly t) : CrlfOnly (u ++ t) where
  lf := by
    intro before behind heq
    rcases List.append_eq_append_iff.1 heq with ⟨a, rfl, rfl⟩ | ⟨a, rfl, hbehind⟩
    · exact ht.lf a behind rfl
    · cases a with
      | nil => exact ht.lf [] behind hbehind.symm
      | cons c a =>
        rw [List.cons_append, List.cons.injEq] at hbehind
        obtain ⟨rfl, rfl⟩ := hbehind
        rw [List.head?_append, hu.lf before a rfl, Option.some_or]
  cr := by
    intro before behind heq
    rcases List.append_eq_append_iff.1 heq with ⟨a, rfl, rfl⟩ | ⟨a, rfl, hbehind⟩
    · rw [List.getLast?_append, ht.cr a behind rfl]
      rfl
    · cases a with
      | nil => exact nomatch ht.cr [] behind hbehind.symm
      | cons c a =>
        rw [List.cons_append, List.cons.injEq] at hbehind
        obtain ⟨rfl, rfl⟩ := hbehind
        exact hu.cr before a rfl

theorem crlfOnly_of_unbroken (h : ∀ c ∈ t, c ≠ '\r' ∧ c ≠ '\n') : t.CrlfOnly where
  lf := by
    rintro before behind rfl
    exact absurd rfl (h '\r' (by simp)).1
  cr := by
    rintro before behind rfl
    exact absurd rfl (h '\n' (by simp)).2

theorem crlfOnly_crlf : CrlfOnly ['\r', '\n'] where
  lf := by
    intro before behind heq
    rcases before with _ | ⟨c, _ | ⟨d, before⟩⟩
    · cases heq
      rfl
    · cases heq
    · simp at heq
  cr := by
    intro before behind heq
    rcases before with _ | ⟨c, _ | ⟨d, before⟩⟩
    · cases heq
    · cases heq
      rfl
    · simp at heq

/-- a CR LF text is got back from its lines -/
theorem CrlfOnly.write_normalizeNewlines (h : t.CrlfOnly) : LineEnding.crlf.write t.normalizeNewlines = t := by
  fun_induction Text.normalizeNewlines t with
  | case1 => rfl
  | case2 t ih =>
    have hrest : CrlfOnly t := CrlfOnly.of_append (u := ['\r', '\n']) h (by decide)
    exact congrArg (fun z => '\r' :: '\n' :: z) (ih hrest)
  | case3 t hno ih =>
    obtain ⟨rest, rfl⟩ := List.head?_eq_some_iff.1 (h.lf [] t rfl)
    exact absurd rfl (hno rest)
  | case4 c t _ hcr ih =>
    have hlf : c ≠ '\n' := by
      rintro rfl
      exact nomatch h.cr [] t rfl
    have hrest : CrlfOnly t := CrlfOnly.of_append (u := [c]) h (by simpa using hcr)
    have hwrite := ih hrest
    rw [LineEnding.write] at hwrite ⊢
    rw [List.flatMap_cons, if_neg hlf, hwrite, List.singleton_append]

theorem crlfOnly_write (h : t.Normal) : (LineEnding.crlf.write t).CrlfOnly := by
  rw [LineEnding.write]
  induction t with
  | nil => exact crlfOnly_of_unbroken fun c hc => nomatch hc
  | cons c t ih =>
    obtain ⟨hcr, ht⟩ := normal_cons.1 h
    rw [List.flatMap_cons]
    refine CrlfOnly.append ?_ (ih ht)
    split_ifs with hlf
    · exact crlfOnly_crlf
    · refine crlfOnly_of_unbroken fun d hd => ?_
      rw [List.mem_singleton.1 hd]
      exact ⟨hcr, hlf⟩

/-- **CR LF texts** are those that are got back from their lines. -/
theorem crlfOnly_iff : t.CrlfOnly ↔ LineEnding.crlf.write t.normalizeNewlines = t :=
  ⟨CrlfOnly.write_normalizeNewlines, fun h => h ▸ crlfOnly_write (normal_normalizeNewlines t)⟩

instance (t : Text) : Decidable t.CrlfOnly :=
  decidable_of_iff _ crlfOnly_iff.symm

end Text

namespace LineEnding

open Text

/-- a CR LF for every LF is read as that LF -/
theorem normalizeNewlines_write {t : Text} (e : LineEnding) (h : t.Normal) : (e.write t).normalizeNewlines = t := by
  cases e with
  | lf => exact h.normalizeNewlines
  | crlf =>
    rw [write]
    induction t with
    | nil => rfl
    | cons c t ih =>
      obtain ⟨hcr, ht⟩ := normal_cons.1 h
      rw [List.flatMap_cons]
      by_cases hlf : c = '\n'
      · rw [if_pos hlf, List.cons_append, List.singleton_append, Text.normalizeNewlines, ih ht, hlf]
      · rw [if_neg hlf, List.singleton_append, Text.normalizeNewlines, ih ht]
        · rintro t' rfl
          exact absurd rfl hcr
        · rintro rfl
          exact absurd rfl hcr

/-- **Written and read again**, a text is the same exactly if it has no CR. -/
theorem normalizeNewlines_write_eq_iff {t : Text} (e : LineEnding) : (e.write t).normalizeNewlines = t ↔ t.Normal := by
  refine ⟨fun h => ?_, normalizeNewlines_write e⟩
  rw [← h]
  exact normal_normalizeNewlines _

/-- a text without LF is written as it is -/
theorem write_of_not_mem {t : Text} (e : LineEnding) (h : '\n' ∉ t) : e.write t = t := by
  cases e with
  | lf => rfl
  | crlf =>
    rw [write]
    induction t with
    | nil => rfl
    | cons c t ih =>
      obtain ⟨hc, ht⟩ := not_or.1 (List.mem_cons.not.1 h)
      rw [List.flatMap_cons, if_neg (Ne.symm hc), ih ht, List.singleton_append]

/-- an LF is written as a CR LF -/
theorem hasCrlf_write {t : Text} (h : '\n' ∈ t) : (crlf.write t).hasCrlf = true := by
  obtain ⟨before, behind, rfl⟩ := List.append_of_mem h
  rw [hasCrlf_iff, write, List.flatMap_append, List.flatMap_cons, if_pos rfl]
  exact ⟨_, _, List.append_assoc _ _ _⟩

theorem detect_of_normal {t : Text} (h : t.Normal) : detect t = .lf := by
  rw [detect, h.hasCrlf]
  rfl

/-- **What was written once** is written in the same way again. -/
theorem write_detect_write {t : Text} (e : LineEnding) (h : t.Normal) : (detect (e.write t)).write t = e.write t := by
  by_cases hlf : '\n' ∈ t
  · cases e with
    | lf =>
      rw [show lf.write t = t from rfl, detect_of_normal h]
      rfl
    | crlf => rw [detect, hasCrlf_write hlf, if_pos rfl]
  · rw [write_of_not_mem _ hlf, write_of_not_mem _ hlf]

/-- **A text of one kind of line ends** is got back from its lines. -/
theorem write_detect_normalizeNewlines {t : Text} (h : t.Normal ∨ t.CrlfOnly) :
    (detect t).write t.normalizeNewlines = t := by
  by_cases hnormal : t.Normal
  · rw [hnormal.normalizeNewlines, detect_of_normal hnormal]
    rfl
  · have hcrlf := h.resolve_left hnormal
    have hback := hcrlf.write_normalizeNewlines
    have hlf : '\n' ∈ t.normalizeNewlines := by
      by_contra hno
      rw [write_of_not_mem _ hno] at hback
      exact hnormal (hback ▸ normal_normalizeNewlines t)
    have hdetect : detect t = .crlf := by
      rw [← hback, detect, hasCrlf_write hlf]
      rfl
    rw [hdetect, hback]

end LineEnding

end CodeEditor
