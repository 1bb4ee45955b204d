import CodeEditor.Buffer.Basic
import CodeEditor.Proofs.Buffer.Replay
import CodeEditor.Proofs.Text.Lines
/-!
Plain operations of a buffer: edits and cursor moves, without groups, undo and redo.

Everything later rests on one inversion lemma. A plain operation moves the marks inside the text or makes one edit that
fits (`plain_step_cases`); nothing else can happen. A buffer *reaches* another one if a run of plain operations leads
there (`Buffer.Reaches`), and what every handler of a key has to show is that it reaches its result.
-/

namespace CodeEditor

/-- both marks lie within a text of `n` characters -/
def Marks.Within (m : Marks) (n : Nat) : Prop :=
  m.insert ≤ n ∧ m.bound ≤ n

theorem Edit.Fits.shift_le {e : Edit} {t : Text} (h : e.Fits t) {mark : Nat} (hm : mark ≤ t.length) :
    e.shift mark ≤ (e.apply t).length := by
  have hlen := h.length_apply
  have hstart := h.start_le
  unfold Edit.shift
  split_ifs <;> omega

theorem Edit.Fits.map_shift {e : Edit} {t : Text} (h : e.Fits t) {m : Marks} (hm : m.Within t.length) :
    (m.map e.shift).Within (e.apply t).length :=
  ⟨h.shift_le hm.1, h.shift_le hm.2⟩

namespace Buffer

/-- both marks lie within the text -/
def Within (b : Buffer) : Prop :=
  b.marks.Within b.text.length

/-- an edit or a move of the marks -/
def Op.isPlain : Op → Bool
  | .insert .. | .erase .. | .deleteSelection | .placeCursor _ | .select .. | .moveInsert _ => true
  | .openGroup | .closeGroup | .undo | .redo => false

/-! ## One edit -/

@[simp] theorem edit_text (b : Buffer) (e : Edit) : (b.edit e).text = e.apply b.text := rfl
@[simp] theorem edit_marks (b : Buffer) (e : Edit) : (b.edit e).marks = b.marks.map e.shift := rfl
@[simp] theorem edit_revision (b : Buffer) (e : Edit) : (b.edit e).revision = b.revision + 1 := rfl
@[simp] theorem edit_history (b : Buffer) (e : Edit) :
    (b.edit e).history = b.history.record e b.marks (b.marks.map e.shift) := rfl

theorem edit_within {b : Buffer} {e : Edit} (h : b.Within) (he : e.Fits b.text) : (b.edit e).Within :=
  he.map_shift h

theorem clamp_le (b : Buffer) (offset : Nat) : b.clamp offset ≤ b.text.length :=
  Nat.min_le_right _ _

theorem fits_insertion (t u : Text) {offset : Nat} (h : offset ≤ t.length) : Edit.Fits ⟨offset, [], u⟩ t :=
  ⟨t.take offset, t.drop offset, by simp, by simp [h]⟩

theorem fits_removal (t : Text) {start stop : Nat} (hs : start ≤ stop) (h : stop ≤ t.length) :
    Edit.Fits ⟨start, t.slice start stop, []⟩ t := by
  refine ⟨t.take start, t.drop stop, ?_, ?_⟩
  · have hmid : (t.drop start).take (stop - start) ++ t.drop stop = t.drop start := by
      have : t.drop stop = (t.drop start).drop (stop - start) := by rw [List.drop_drop]; congr 1; omega
      rw [this, List.take_append_drop]
    rw [Text.slice, List.append_assoc, hmid, List.take_append_drop]
  · simp only [List.length_take]; omega

/-- two offsets that are the same within a text cut it in the same way -/
theorem cut_congr {a : Text} {i j : Nat} (h : min i a.length = min j a.length) :
    a.take i = a.take j ∧ a.drop i = a.drop j := by
  have htake : a.take i = a.take j := by rw [List.take_eq_take_iff]; exact h
  have happend : a.take i ++ a.drop i = a.take i ++ a.drop j := by
    rw [List.take_append_drop, htake, List.take_append_drop]
  exact ⟨htake, List.append_cancel_left happend⟩

/-- an insertion changes nothing or makes one edit that fits -/
theorem insert_cases (b : Buffer) (offset : Nat) (u : Text) :
    b.insert offset u = b ∨ ∃ e, e.Fits b.text ∧ b.insert offset u = b.edit e := by
  unfold insert
  split_ifs
  · exact Or.inl rfl
  · exact Or.inr ⟨_, fits_insertion _ _ (b.clamp_le offset), rfl⟩

/-- a removal changes nothing or makes one edit that fits -/
theorem erase_cases (b : Buffer) (x y : Nat) :
    b.erase x y = b ∨ ∃ e, e.Fits b.text ∧ b.erase x y = b.edit e := by
  simp only [erase]
  split_ifs
  · exact Or.inl rfl
  · have hle : b.clamp (min x y) ≤ b.clamp (max x y) := by
      unfold clamp; omega
    exact Or.inr ⟨_, fits_removal _ hle (b.clamp_le _), rfl⟩

theorem erase_text (b : Buffer) {x y : Nat} (h : x ≤ y) : (b.erase x y).text = b.text.take x ++ b.text.drop y := by
  have hx : b.text.take (b.clamp x) = b.text.take x := (cut_congr (by rw [clamp, length]; omega)).1
  have hy : b.text.drop (b.clamp y) = b.text.drop y := (cut_congr (by rw [clamp, length]; omega)).2
  have hle : b.clamp x ≤ b.clamp y := by unfold clamp; omega
  simp only [erase, min_eq_left h, max_eq_right h]
  split_ifs with heq
  · rw [← hx, ← hy, heq, List.take_append_drop]
  · rw [edit_text, Edit.apply, Text.length_slice _ (b.clamp_le y), Nat.add_sub_cancel' hle, hx, hy, List.append_nil]

theorem insert_text (b : Buffer) (offset : Nat) (u : Text) :
    (b.insert offset u).text = b.text.take offset ++ u ++ b.text.drop offset := by
  obtain ⟨htake, hdrop⟩ : b.text.take (b.clamp offset) = b.text.take offset ∧
    b.text.drop (b.clamp offset) = b.text.drop offset :=
    cut_congr (by rw [clamp, length]; omega)
  unfold insert
  split_ifs with hempty
  · rw [List.isEmpty_iff.1 hempty, List.append_nil, List.take_append_drop]
  · rw [edit_text, Edit.apply, htake, ← hdrop]
    rfl

/-- a cursor inside what is removed ends up at its start -/
theorem erase_cursor (b : Buffer) {x y : Nat} (hx : x ≤ b.cursor) (hy : b.cursor ≤ y) (hlen : y ≤ b.text.length) :
    (b.erase x y).cursor = x := by
  have hcx : b.clamp x = x := min_eq_left (by rw [length]; omega)
  have hcy : b.clamp y = y := min_eq_left hlen
  simp only [erase, min_eq_left (hx.trans hy), max_eq_right (hx.trans hy), hcx, hcy]
  split_ifs with heq
  · omega
  · have hremoved : (b.text.slice x y).length = y - x := Text.length_slice _ hlen
    rw [cursor, edit_marks]
    simp only [Marks.map, Edit.shift, hremoved]
    rw [← cursor]
    split_ifs <;> omega

/-- a selection inside the text has a start, a stop and the characters between them -/
theorem selection_cases {b : Buffer} (h : b.Within) (hsel : b.hasSelection = true) :
    b.selectionStart < b.selectionEnd ∧ b.selectionEnd ≤ b.text.length ∧
      (b.marks = ⟨b.selectionStart, b.selectionEnd⟩ ∨ b.marks = ⟨b.selectionEnd, b.selectionStart⟩) := by
  obtain ⟨hi, hb⟩ := h
  have hne : b.marks.insert ≠ b.marks.bound := by simpa [hasSelection] using hsel
  simp only [selectionStart, selectionEnd]
  refine ⟨by omega, by omega, ?_⟩
  rcases lt_or_gt_of_ne hne with hlt | hlt
  · left; rw [min_eq_left hlt.le, max_eq_right hlt.le]
  · right; rw [min_eq_right hlt.le, max_eq_left hlt.le]

/-- a removal pulls a mark behind it to its start and leaves one before it there -/
theorem shift_ends (start : Nat) (u : Text) (h : u ≠ []) :
    Edit.shift ⟨start, u, []⟩ start = start ∧ Edit.shift ⟨start, u, []⟩ (start + u.length) = start := by
  have hlen : 0 < u.length := List.length_pos_of_ne_nil h
  constructor <;> simp only [Edit.shift] <;> split_ifs <;> omega

/-- both marks end up where the selection started, so placing the cursor there changes nothing -/
theorem deleteSelection_eq_erase {b : Buffer} (h : b.Within) :
    b.deleteSelection = b.erase b.selectionStart b.selectionEnd := by
  by_cases hsel : b.hasSelection = true
  · obtain ⟨hlt, hle, hmarks⟩ := selection_cases h hsel
    set e : Edit := ⟨b.selectionStart, b.text.slice b.selectionStart b.selectionEnd, []⟩ with he
    have herase : b.erase b.selectionStart b.selectionEnd = b.edit e := by
      have hx : b.clamp b.selectionStart = b.selectionStart := min_eq_left (hlt.le.trans hle)
      have hy : b.clamp b.selectionEnd = b.selectionEnd := min_eq_left hle
      simp only [erase, min_eq_left hlt.le, max_eq_right hlt.le, hx, hy, if_neg hlt.ne]
      rfl
    have hlen : (b.text.slice b.selectionStart b.selectionEnd).length = b.selectionEnd - b.selectionStart :=
      Text.length_slice b.text hle
    have hne : e.removed ≠ [] := by
      intro hnil
      have := congrArg List.length hnil
      simp only [he, hlen, List.length_nil] at this
      omega
    have hends := shift_ends b.selectionStart e.removed hne
    have hstop : b.selectionStart + e.removed.length = b.selectionEnd := by
      simp only [he, hlen]; omega
    have hboth : (b.edit e).marks = Marks.both b.selectionStart := by
      rw [hstop] at hends
      rcases hmarks with hm | hm <;> rw [edit_marks, hm]
      · exact congrArg₂ Marks.mk hends.1 hends.2
      · exact congrArg₂ Marks.mk hends.2 hends.1
    have hwithin := (edit_within h (fits_removal b.text hlt.le hle)).1
    rw [deleteSelection, if_pos hsel, herase]
    rw [← he, hboth] at hwithin
    simp only [placeCursor, clamp, length, min_eq_left (show b.selectionStart ≤ (b.edit e).text.length from hwithin)]
    rw [← hboth]
  · have heq : b.marks.insert = b.marks.bound := by simpa [hasSelection] using hsel
    rw [deleteSelection, if_neg hsel, erase, if_pos (by simp [selectionStart, selectionEnd, heq])]

/-- **All that a plain operation can do**: move the marks inside the text, or make one edit that fits. -/
theorem plain_step_cases {b : Buffer} (h : b.Within) {op : Op} (hop : op.isPlain = true) :
    (∃ m, m.Within b.text.length ∧ b.step op = { b with marks := m }) ∨
      ∃ e, e.Fits b.text ∧ b.step op = b.edit e := by
  have hstay : ∃ m, m.Within b.text.length ∧ b = { b with marks := m } := ⟨b.marks, h, rfl⟩
  cases op with
  | insert offset u =>
    rcases b.insert_cases offset u with he | he
    · left; simpa only [step, he] using hstay
    · exact Or.inr he
  | erase x y =>
    rcases b.erase_cases x y with he | he
    · left; simpa only [step, he] using hstay
    · exact Or.inr he
  | deleteSelection =>
    simp only [step, deleteSelection_eq_erase h]
    rcases b.erase_cases b.selectionStart b.selectionEnd with he | he
    · left; simpa only [he] using hstay
    · exact Or.inr he
  | placeCursor offset => exact Or.inl ⟨_, ⟨b.clamp_le _, b.clamp_le _⟩, rfl⟩
  | select insert bound => exact Or.inl ⟨_, ⟨b.clamp_le _, b.clamp_le _⟩, rfl⟩
  | moveInsert offset => exact Or.inl ⟨⟨b.clamp offset, b.marks.bound⟩, ⟨b.clamp_le _, h.2⟩, rfl⟩
  | _ => simp [Op.isPlain] at hop

theorem plain_step_within {b : Buffer} (h : b.Within) {op : Op} (hop : op.isPlain = true) : (b.step op).Within := by
  obtain ⟨m, hm, he⟩ | ⟨e, hfit, he⟩ := plain_step_cases h hop
  · rw [he]; exact hm
  · rw [he]; exact edit_within h hfit

/-! ## Runs of plain operations -/

theorem run_append (b : Buffer) (xs ys : List Op) : b.run (xs ++ ys) = (b.run xs).run ys :=
  List.foldl_append

/-- plain operations lead from one buffer to another -/
def Reaches (b c : Buffer) : Prop :=
  ∃ ops : List Op, (∀ op ∈ ops, op.isPlain = true) ∧ b.run ops = c

namespace Reaches

variable {b c d : Buffer}

theorem refl (b : Buffer) : b.Reaches b :=
  ⟨[], by simp, rfl⟩

theorem trans (h : b.Reaches c) (h' : c.Reaches d) : b.Reaches d := by
  obtain ⟨xs, hxs, rfl⟩ := h
  obtain ⟨ys, hys, rfl⟩ := h'
  refine ⟨xs ++ ys, fun op hop => ?_, run_append b xs ys⟩
  rcases List.mem_append.1 hop with hop | hop
  · exact hxs op hop
  · exact hys op hop

theorem step (b : Buffer) (op : Op) (hop : op.isPlain = true) : b.Reaches (b.step op) :=
  ⟨[op], by simpa using hop, rfl⟩

/-- what every plain step keeps, plain operations keep -/
theorem induct {P : Buffer → Prop} (h : b.Reaches c) (hb : P b)
    (hstep : ∀ d op, op.isPlain = true → P d → P (d.step op)) : P c := by
  obtain ⟨ops, hops, rfl⟩ := h
  induction ops generalizing b with
  | nil => exact hb
  | cons op ops ih =>
    exact ih (hstep b op (hops op List.mem_cons_self) hb) fun op' h => hops op' (List.mem_cons_of_mem op h)

theorem insert (b : Buffer) (offset : Nat) (u : Text) : b.Reaches (b.insert offset u) :=
  step b (.insert offset u) rfl

theorem insertAtCursor (b : Buffer) (u : Text) : b.Reaches (b.insertAtCursor u) :=
  insert b b.cursor u

theorem erase (b : Buffer) (x y : Nat) : b.Reaches (b.erase x y) :=
  step b (.erase x y) rfl

theorem deleteSelection (b : Buffer) : b.Reaches b.deleteSelection :=
  step b .deleteSelection rfl

theorem placeCursor (b : Buffer) (offset : Nat) : b.Reaches (b.placeCursor offset) :=
  step b (.placeCursor offset) rfl

theorem select (b : Buffer) (i j : Nat) : b.Reaches (b.select i j) :=
  step b (.select i j) rfl

theorem moveCursor (b : Buffer) (target : Nat) (extend : Bool) : b.Reaches (b.moveCursor target extend) := by
  cases extend with
  | false => exact placeCursor b target
  | true => exact step b (.moveInsert target) rfl

theorem foldl {α : Type} {f : Buffer → α → Buffer} (hf : ∀ b x, Reaches b (f b x)) (xs : List α) (b : Buffer) :
    Reaches b (xs.foldl f b) := by
  induction xs generalizing b with
  | nil => exact refl b
  | cons x xs ih => exact (hf b x).trans (ih (f b x))

theorem foldr {α : Type} {f : α → Buffer → Buffer} (hf : ∀ b x, Reaches b (f x b)) (xs : List α) (b : Buffer) :
    Reaches b (xs.foldr f b) := by
  induction xs with
  | nil => exact refl b
  | cons x xs ih => exact ih.trans (hf _ x)

theorem within (h : b.Reaches c) (hb : b.Within) : c.Within :=
  h.induct hb fun _ _ hop hd => plain_step_within hd hop

end Reaches

end Buffer

end CodeEditor
