import CodeEditor.Buffer.History
import Mathlib.Tactic
/-!
Replaying edits.

An edit *fits* a text if what it removes stands at its start. Fitting is what makes an edit reversible: the inverse
of an edit that fits fits the result, and gives the text back. A list of edits, newest first, *leads* from one text
to another if every edit fits the text left by the older ones; then taking all of them back gives the first text,
making them again the second.

`Edit.replay?` makes an edit as a removal and an insertion that refuse every offset outside the text. On edits that fit
it never refuses, so neither does the replay of a step whose edits lead somewhere.
-/

namespace CodeEditor

namespace Text

/-- the text without `[start, stop)`; refused unless that range lies within the text -/
def remove? (t : Text) (start stop : Nat) : Option Text :=
  if start ≤ stop ∧ stop ≤ t.length then some (t.take start ++ t.drop stop) else none

/-- the text with `u` put in at `offset`; refused unless the offset lies within the text -/
def insert? (t : Text) (offset : Nat) (u : Text) : Option Text :=
  if offset ≤ t.length then some (t.take offset ++ u ++ t.drop offset) else none

end Text

namespace Edit

/-- what the edit removes stands at its start -/
def Fits (e : Edit) (t : Text) : Prop :=
  ∃ a c, t = a ++ e.removed ++ c ∧ a.length = e.start

/-- the edit as a removal and an insertion, refused if one of them leaves the text -/
def replay? (e : Edit) (t : Text) : Option Text :=
  (t.remove? e.start (e.start + e.removed.length)).bind fun t => t.insert? e.start e.inserted

theorem apply_append (e : Edit) (a c : Text) (h : a.length = e.start) :
    e.apply (a ++ e.removed ++ c) = a ++ e.inserted ++ c := by
  have hdrop : (a ++ e.removed ++ c).drop (e.start + e.removed.length) = c := by
    rw [← h, ← List.length_append, List.drop_left]
  rw [apply, hdrop, ← h, List.append_assoc a, List.take_left]

theorem Fits.inverse {e : Edit} {t : Text} (h : e.Fits t) : e.inverse.Fits (e.apply t) := by
  obtain ⟨a, c, rfl, ha⟩ := h
  exact ⟨a, c, apply_append e a c ha, ha⟩

theorem Fits.apply_inverse {e : Edit} {t : Text} (h : e.Fits t) : e.inverse.apply (e.apply t) = t := by
  obtain ⟨a, c, rfl, ha⟩ := h
  rw [apply_append e a c ha]
  exact apply_append e.inverse a c ha

theorem Fits.length_apply {e : Edit} {t : Text} (h : e.Fits t) :
    (e.apply t).length + e.removed.length = t.length + e.inserted.length := by
  obtain ⟨a, c, rfl, ha⟩ := h
  rw [apply_append e a c ha]
  simp only [List.length_append]
  omega

theorem Fits.start_le {e : Edit} {t : Text} (h : e.Fits t) : e.start + e.removed.length ≤ t.length := by
  obtain ⟨a, c, rfl, ha⟩ := h
  simp only [List.length_append]
  omega

theorem Fits.replay? {e : Edit} {t : Text} (h : e.Fits t) : e.replay? t = some (e.apply t) := by
  obtain ⟨a, c, rfl, ha⟩ := h
  have hremove : (a ++ e.removed ++ c).remove? e.start (e.start + e.removed.length) = some (a ++ c) := by
    have hle : e.start + e.removed.length ≤ (a ++ e.removed ++ c).length := by
      simp only [List.length_append]; omega
    rw [Text.remove?, if_pos ⟨Nat.le_add_right _ _, hle⟩, ← ha, ← List.length_append, List.drop_left,
      List.append_assoc, List.take_left]
  rw [Edit.replay?, hremove, apply_append e a c ha, Option.bind_some, Text.insert?,
    if_pos (by simp only [List.length_append]; omega), ← ha, List.take_left, List.drop_left]

end Edit

/-! ## Steps -/

/-- edits, newest first, that lead from one text to another -/
inductive Leads : List Edit → Text → Text → Prop where
  | nil (t : Text) : Leads [] t t
  | cons {es : List Edit} {t u : Text} (e : Edit) : Leads es t u → e.Fits u → Leads (e :: es) t (e.apply u)

namespace Step

/-- take every edit back, newest first, refused if a removal or an insertion leaves the text -/
def undoReplay? (s : Step) (t : Text) : Option Text :=
  s.edits.foldlM (fun t e => e.inverse.replay? t) t

/-- make every edit again, oldest first, refused if a removal or an insertion leaves the text -/
def redoReplay? (s : Step) (t : Text) : Option Text :=
  s.edits.foldrM (fun e t => e.replay? t) t

end Step

theorem Leads.undo {s : Step} {t u : Text} (h : Leads s.edits t u) : s.undo u = t := by
  obtain ⟨es, before, after⟩ := s
  simp only [Step.undo] at h ⊢
  induction h with
  | nil t => rfl
  | cons e _ hfit ih => rw [List.foldl_cons, hfit.apply_inverse]; exact ih

theorem Leads.redo {s : Step} {t u : Text} (h : Leads s.edits t u) : s.redo t = u := by
  obtain ⟨es, before, after⟩ := s
  simp only [Step.redo] at h ⊢
  induction h with
  | nil t => rfl
  | cons e _ _ ih => rw [List.foldr_cons, ih]

theorem Leads.undoReplay? {s : Step} {t u : Text} (h : Leads s.edits t u) : s.undoReplay? u = some t := by
  obtain ⟨es, before, after⟩ := s
  simp only [Step.undoReplay?] at h ⊢
  induction h with
  | nil t => rfl
  | cons e _ hfit ih =>
    rw [List.foldlM_cons, hfit.inverse.replay?, hfit.apply_inverse]
    exact ih

theorem Leads.redoReplay? {s : Step} {t u : Text} (h : Leads s.edits t u) : s.redoReplay? t = some u := by
  obtain ⟨es, before, after⟩ := s
  simp only [Step.redoReplay?] at h ⊢
  induction h with
  | nil t => rfl
  | cons e _ hfit ih =>
    rw [List.foldrM_cons, ih]
    exact hfit.replay?

theorem Leads.eq_of_nil {t u : Text} (h : Leads [] t u) : t = u := by
  cases h; rfl

end CodeEditor
