import CodeEditor.Proofs.Buffer.Journal
import CodeEditor.Proofs.Text.Insertion
/-!
The same text put into several lines of a buffer, and taken out again.

Text and marks together follow the insertions (`Moment.putInAll`), and what stays of both is `Text.Extends`. An
insertion into the first line can be thought of as the last one made (`putInAll_cons`), so what takes it out of that
line leaves the insertions into the other lines; therefore removals from the first line to the last restore the text and
the marks (`foldl_restores`).
-/

namespace CodeEditor

namespace Moment

/-- `u` is put into a line at a column, and the marks are pushed on -/
def putIn (column : Nat) (u : Text) (m : Moment) (line : Nat) : Moment :=
  ⟨m.text.putIn column u line, m.marks.map (Text.pushOn (m.text.lineStart line + column) u.length)⟩

/-- `u` is put into several lines at a column -/
def putInAll (column : Nat) (u : Text) (m : Moment) (lines : List Nat) : Moment :=
  lines.foldl (putIn column u) m

variable {column : Nat} {u : Text}

/-- **What stays** when the same is put into several lines -/
theorem extends_putInAll (hu : ∀ c ∈ u, isBreak c = false) {lines : List Nat} (hnodup : lines.Nodup) (m : Moment)
    (hlines : ∀ line ∈ lines, m.text.InIndent column line) :
    ∃ push, m.text.Extends (m.putInAll column u lines).text column u lines push ∧
      (m.putInAll column u lines).marks = m.marks.map push := by
  induction lines generalizing m with
  | nil => exact ⟨id, .refl m.text column u, rfl⟩
  | cons line rest ih =>
    obtain ⟨hnot, hnodup⟩ := List.nodup_cons.1 hnodup
    have hline := hlines line List.mem_cons_self
    obtain ⟨push, hextends, hmarks⟩ := ih hnodup (m.putIn column u line) fun k hk =>
      (hlines k (List.mem_cons_of_mem _ hk)).putIn_of_ne hline hu (ne_of_mem_of_not_mem hk hnot)
    exact ⟨_, hextends.putIn hline hu hnot, hmarks⟩

theorem putIn_comm (hu : ∀ c ∈ u, isBreak c = false) {m : Moment} {line k : Nat} (hline : m.text.InIndent column line)
    (hk : m.text.InIndent column k) (hlt : line < k) :
    (m.putIn column u line).putIn column u k = (m.putIn column u k).putIn column u line := by
  have hmarks : ∀ x, Text.pushOn (m.text.lineStart k + u.length + column) u.length
      (Text.pushOn (m.text.lineStart line + column) u.length x) =
      Text.pushOn (m.text.lineStart line + column) u.length (Text.pushOn (m.text.lineStart k + column) u.length x) := by
    intro x
    have hpos := hline.indented.lt_lineStart hlt hk.line_lt
    rw [Nat.add_right_comm, ← Text.pushOn_comm (by omega)]
  simp only [putIn, hline.putIn_comm hk hu hlt, hline.lineStart_putIn_of_lt hu hlt hk.line_lt,
    hk.lineStart_putIn_of_le hu hlt.le, Marks.map, hmarks]

/-- **The first insertion may be made last.** -/
theorem putInAll_cons (hu : ∀ c ∈ u, isBreak c = false) {line : Nat} {rest : List Nat}
    (hsorted : (line :: rest).Pairwise (· < ·)) (m : Moment) (hlines : ∀ k ∈ line :: rest, m.text.InIndent column k) :
    m.putInAll column u (line :: rest) = (m.putInAll column u rest).putIn column u line := by
  induction rest generalizing m with
  | nil => rfl
  | cons k rest ih =>
    obtain ⟨hlt, hrest⟩ := List.pairwise_cons.1 hsorted
    have hline := hlines line List.mem_cons_self
    have hk := hlines k (List.mem_cons_of_mem _ List.mem_cons_self)
    have hk_lt := (List.pairwise_cons.1 hrest).1
    have hsorted' : (line :: rest).Pairwise (· < ·) :=
      List.pairwise_cons.2 ⟨fun j hj => hlt j (List.mem_cons_of_mem _ hj), (List.pairwise_cons.1 hrest).2⟩
    have hlines' : ∀ j ∈ line :: rest, (m.putIn column u k).text.InIndent column j := by
      intro j hj
      rcases List.mem_cons.1 hj with rfl | hj
      · exact hline.putIn_of_ne hk hu (hlt k List.mem_cons_self).ne
      · exact (hlines j (List.mem_cons_of_mem _ (List.mem_cons_of_mem _ hj))).putIn_of_ne hk hu (hk_lt j hj).ne'
    calc m.putInAll column u (line :: k :: rest)
        = ((m.putIn column u line).putIn column u k).putInAll column u rest := rfl
      _ = ((m.putIn column u k).putIn column u line).putInAll column u rest := by
        rw [putIn_comm hu hline hk (hlt k List.mem_cons_self)]
      _ = (m.putIn column u k).putInAll column u (line :: rest) := rfl
      _ = ((m.putIn column u k).putInAll column u rest).putIn column u line := ih hsorted' _ hlines'
      _ = (m.putInAll column u (k :: rest)).putIn column u line := rfl

end Moment

namespace Buffer

variable {b : Buffer} {m : Moment} {column : Nat} {u : Text}

theorem pushOn_zero (offset : Nat) : Text.pushOn offset 0 = id := by
  funext x
  simp only [Text.pushOn, Nat.add_zero, ite_self, id_eq]

/-- where an offset goes when `[x, y)` is taken out: one in it goes to its start, one behind it back -/
def pullBack (x y offset : Nat) : Nat :=
  if y < offset then offset - (y - x) else if x < offset then x else offset

/-- a removal takes back where an insertion pushed a mark -/
theorem pullBack_pushOn (offset n x : Nat) : pullBack offset (offset + n) (Text.pushOn offset n x) = x := by
  simp only [pullBack, Text.pushOn]
  split_ifs <;> omega

/-- an insertion within the text, with the marks -/
theorem insert_moment (b : Buffer) {offset : Nat} (u : Text) (h : offset ≤ b.text.length) :
    (b.insert offset u).moment =
      ⟨b.text.take offset ++ u ++ b.text.drop offset, b.marks.map (Text.pushOn offset u.length)⟩ := by
  rw [moment, insert_text, insert]
  split_ifs with hempty
  · obtain rfl := List.isEmpty_iff.1 hempty
    rw [List.length_nil, pushOn_zero]
    rfl
  · have hclamp : b.clamp offset = offset := min_eq_left h
    rw [hclamp, edit_marks]
    rfl

/-- a removal within the text, with the marks -/
theorem erase_moment_eq (b : Buffer) {x y : Nat} (hxy : x ≤ y) (hy : y ≤ b.text.length) :
    (b.erase x y).moment = ⟨b.text.take x ++ b.text.drop y, b.marks.map (pullBack x y)⟩ := by
  have hx_clamp : b.clamp x = x := min_eq_left (hxy.trans hy)
  have hy_clamp : b.clamp y = y := min_eq_left hy
  have hmarks : (b.erase x y).marks = b.marks.map (pullBack x y) := by
    simp only [erase, min_eq_left hxy, max_eq_right hxy, hx_clamp, hy_clamp]
    split_ifs with heq
    · have hid : pullBack x y = id := by
        funext offset
        simp only [pullBack, id_eq]
        split_ifs <;> omega
      rw [hid]
      rfl
    · have hlen : (b.text.slice x y).length = y - x := Text.length_slice _ hy
      rw [edit_marks]
      congr 1
      funext offset
      simp only [Edit.shift, pullBack, hlen]
      split_ifs <;> omega
  rw [moment, erase_text b hxy, hmarks]

/-- **What was put in is taken out again**, and the marks are where they were. -/
theorem erase_moment {offset : Nat} (h : offset ≤ m.text.length) (hb : b.moment =
    ⟨m.text.take offset ++ u ++ m.text.drop offset, m.marks.map (Text.pushOn offset u.length)⟩) :
    (b.erase offset (offset + u.length)).moment = m := by
  have htext : b.text = m.text.take offset ++ u ++ m.text.drop offset := congrArg Moment.text hb
  have hmarks : b.marks = m.marks.map (Text.pushOn offset u.length) := congrArg Moment.marks hb
  have htake : (m.text.take offset).length = offset := by rw [List.length_take, min_eq_left h]
  have hle : offset + u.length ≤ b.text.length := by
    rw [htext, List.length_append, List.length_append, htake]
    omega
  have hout : b.text.take offset ++ b.text.drop (offset + u.length) = m.text := by
    have hlen : (m.text.take offset ++ u).length = offset + u.length := by rw [List.length_append, htake]
    rw [htext, ← hlen, List.drop_left, List.append_assoc, List.take_append_of_le_length htake.ge,
      List.take_take, min_self, List.take_append_drop]
  have hback : b.marks.map (pullBack offset (offset + u.length)) = m.marks := by
    rw [hmarks]
    simp only [Marks.map, pullBack_pushOn]
  rw [b.erase_moment_eq (Nat.le_add_right _ _) hle, hout, hback]

section

variable {c : Buffer} {push : Nat → Nat} (hmarks : c.marks = b.marks.map push)
include hmarks

theorem selectionStart_of_push (hpush : Monotone push) : c.selectionStart = push b.selectionStart := by
  rw [selectionStart, hmarks, selectionStart, hpush.map_min]
  rfl

theorem selectionEnd_of_push (hpush : Monotone push) : c.selectionEnd = push b.selectionEnd := by
  rw [selectionEnd, hmarks, selectionEnd, hpush.map_max]
  rfl

theorem hasSelection_of_push (hpush : StrictMono push) : c.hasSelection = b.hasSelection := by
  rw [hasSelection, hmarks, hasSelection, Bool.eq_iff_iff]
  simp [Marks.map, hpush.injective.eq_iff]

end

/-! ## One line after the other -/

/-- **Insertions line by line** are those of the moment. -/
theorem foldl_insert_moment (hu : ∀ c ∈ u, isBreak c = false) {lines : List Nat} (hnodup : lines.Nodup) (b : Buffer)
    (hlines : ∀ line ∈ lines, b.text.InIndent column line) :
    (lines.foldl (fun b line => b.insert (b.text.lineStart line + column) u) b).moment =
      b.moment.putInAll column u lines := by
  induction lines generalizing b with
  | nil => rfl
  | cons line rest ih =>
    obtain ⟨hnot, hnodup⟩ := List.nodup_cons.1 hnodup
    have hline := hlines line List.mem_cons_self
    have hinsert : (b.insert (b.text.lineStart line + column) u).moment = b.moment.putIn column u line :=
      b.insert_moment u hline.indented.le_length
    have htext : (b.insert (b.text.lineStart line + column) u).text = b.text.putIn column u line :=
      congrArg Moment.text hinsert
    have hrest := ih hnodup (b.insert (b.text.lineStart line + column) u) fun k hk => by
      rw [htext]
      exact (hlines k (List.mem_cons_of_mem _ hk)).putIn_of_ne hline hu (ne_of_mem_of_not_mem hk hnot)
    rw [List.foldl_cons, hrest, hinsert]
    rfl

/-- what takes an insertion out of one line -/
def TakesOut (column : Nat) (u : Text) (out : Buffer → Nat → Buffer) : Prop :=
  ∀ (b : Buffer) (m : Moment) (line : Nat), m.text.InIndent column line → b.moment = m.putIn column u line →
    (out b line).moment = m

/-- **Removals line by line**, the first line first, restore text and marks. -/
theorem TakesOut.foldl_moment {out : Buffer → Nat → Buffer} (hout : TakesOut column u out)
    (hu : ∀ c ∈ u, isBreak c = false) {lines : List Nat} (hsorted : lines.Pairwise (· < ·))
    (hlines : ∀ line ∈ lines, m.text.InIndent column line) (b : Buffer) (hb : b.moment = m.putInAll column u lines) :
    (lines.foldl out b).moment = m := by
  induction lines generalizing b with
  | nil => exact hb
  | cons line rest ih =>
    obtain ⟨hlt, hrest⟩ := List.pairwise_cons.1 hsorted
    have hlines' : ∀ k ∈ rest, m.text.InIndent column k := fun k hk => hlines k (List.mem_cons_of_mem _ hk)
    obtain ⟨push, hextends, -⟩ := Moment.extends_putInAll hu (hrest.imp Nat.ne_of_lt) m hlines'
    have hline := hextends.inIndent (hlines line List.mem_cons_self) fun hmem => Nat.lt_irrefl _ (hlt line hmem)
    refine ih hrest hlines' _ (hout b _ line hline ?_)
    rw [hb, Moment.putInAll_cons hu hsorted m hlines]

end Buffer

end CodeEditor
