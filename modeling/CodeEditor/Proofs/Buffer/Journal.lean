import CodeEditor.Proofs.Buffer.Plain
/-!
Undo and redo restore whole moments.

The history of a buffer keeps edits and marks, and an edit makes sense only on the text it was made on. The *journal* of
a run keeps what the edits stand for instead: for every step that can be undone or redone, the text and the marks at the
moment at which the step began and at the moment at which it was closed. It is written down beside the run, from what
the buffer shows before and after each operation, and never looks at the history.

* `Tracks` is the invariant. Each stack is a chain: the newest step that can be undone was closed on the text on which
  the history rests now, and each older one on the text on which the step above it began; the stack of undone steps is
  the same chain in the other direction. The open group leads from the text it began on to the present text.
* `step_tracks` keeps it for every operation, `run_tracks` for every run from a fresh buffer.
* `Tracks.undo?_cases` and `Tracks.redo?_cases` read off what undo and redo do.
-/

namespace CodeEditor

/-- text and marks at one time: what undo and redo have to bring back -/
structure Moment where
  text : Text
  marks : Marks
  deriving DecidableEq, Repr

namespace Moment

/-- both marks lie within the text -/
def Within (m : Moment) : Prop :=
  m.marks.Within m.text.length

end Moment

/-- the moments at which a step began and at which it was closed -/
structure Episode where
  began : Moment
  closed : Moment
  deriving DecidableEq, Repr

/-- what a run has done, in moments; the next step to undo and the next one to redo stand first -/
structure Journal where
  done : List Episode
  undone : List Episode
  /-- when the outermost open group began, and whether anything was edited since -/
  opened : Option (Moment × Bool)
  depth : Nat
  deriving DecidableEq, Repr

namespace Journal

/-- nothing done yet -/
def empty : Journal :=
  ⟨[], [], none, 0⟩

/-- a closed step is the next one to undo, and nothing is left to redo; the oldest one beyond the limit is forgotten -/
def close (j : Journal) (e : Episode) : Journal :=
  { j with done := (e :: j.done).take History.limit, undone := [] }

/-- an edit belongs to the open group, or is a step of its own -/
def edited (j : Journal) (before after : Moment) : Journal :=
  match j.opened with
  | some (began, _) => { j with opened := some (began, true) }
  | none => j.close ⟨before, after⟩

/-- a group is opened; only the outermost one begins a step -/
def openGroup (j : Journal) (now : Moment) : Journal :=
  { j with depth := j.depth + 1, opened := if j.depth = 0 then some (now, false) else j.opened }

/-- every open group ends; the step is closed if it has edits -/
def finish (j : Journal) (now : Moment) : Journal :=
  match j.opened with
  | some (began, true) => { j with opened := none, depth := 0 }.close ⟨began, now⟩
  | _ => { j with opened := none, depth := 0 }

/-- one group ends -/
def closeGroup (j : Journal) (now : Moment) : Journal :=
  if j.depth ≤ 1 then j.finish now else { j with depth := j.depth - 1 }

/-- the newest step is taken back -/
def undo (j : Journal) (now : Moment) : Journal :=
  let j := j.finish now
  match j.done with
  | [] => j
  | e :: rest => { j with done := rest, undone := e :: j.undone }

/-- the step taken back last is made again -/
def redo (j : Journal) (now : Moment) : Journal :=
  let j := j.finish now
  match j.undone with
  | [] => j
  | e :: rest => { j with done := e :: j.done, undone := rest }

end Journal

namespace Buffer

/-- text and marks -/
def moment (b : Buffer) : Moment :=
  ⟨b.text, b.marks⟩

/-- the journal after one operation of a buffer; that the text was edited shows in the revision -/
def note (b : Buffer) (j : Journal) (op : Op) : Journal :=
  match op with
  | .openGroup => j.openGroup b.moment
  | .closeGroup => j.closeGroup b.moment
  | .undo => j.undo b.moment
  | .redo => j.redo b.moment
  | op => if (b.step op).revision = b.revision then j else j.edited b.moment (b.step op).moment

/-- the journal after a run -/
def noteRun (b : Buffer) (j : Journal) : List Op → Journal
  | [] => j
  | op :: ops => (b.step op).noteRun (b.note j op) ops

/-! ## The invariant -/

/-- the recorded step leads from the moment at which an episode began to the one at which it was closed -/
structure Covers (s : Step) (e : Episode) : Prop where
  before : s.before = e.began.marks
  after : s.after = e.closed.marks
  edits : Leads s.edits e.began.text e.closed.text
  began : e.began.Within
  closed : e.closed.Within

/-- steps that can be undone one after another, the first one from the text `t` -/
inductive Backward : List Step → List Episode → Text → Prop where
  | nil (t : Text) : Backward [] [] t
  | cons {s : Step} {e : Episode} {ss : List Step} {es : List Episode} :
      Covers s e → Backward ss es e.began.text → Backward (s :: ss) (e :: es) e.closed.text

/-- steps that can be redone one after another, the first one from the text `t` -/
inductive Onward : List Step → List Episode → Text → Prop where
  | nil (t : Text) : Onward [] [] t
  | cons {s : Step} {e : Episode} {ss : List Step} {es : List Episode} :
      Covers s e → Onward ss es e.closed.text → Onward (s :: ss) (e :: es) e.began.text

/-- the open group leads from the moment at which it began to the text `t`; `t₀` is the text on which
the closed steps rest -/
inductive Recording : Option Step → Option (Moment × Bool) → (t₀ t : Text) → Prop where
  | none (t : Text) : Recording none none t t
  | some {s : Step} {m : Moment} {t : Text} :
      s.before = m.marks → Leads s.edits m.text t → m.Within → Recording (some s) (some (m, !s.edits.isEmpty)) m.text t

/-- both stacks rest on the text `t`, and hold no more than the limit together -/
structure Chained (h : History) (j : Journal) (t : Text) : Prop where
  undo : Backward h.undoStack j.done t
  redo : Onward h.redoStack j.undone t
  limit : h.undoStack.length + h.redoStack.length ≤ History.limit

/-- **The invariant**: the journal says what the history stands for -/
structure Tracks (b : Buffer) (j : Journal) : Prop where
  depth : j.depth = b.history.depth
  idle : j.depth = 0 ↔ j.opened = none
  marks : b.Within
  chained : ∃ t₀, Recording b.history.recording j.opened t₀ b.text ∧ Chained b.history j t₀

theorem tracks_ofText (t : Text) : Tracks (ofText t) .empty where
  depth := rfl
  idle := by simp [Journal.empty]
  marks := ⟨Nat.zero_le _, Nat.zero_le _⟩
  chained := ⟨t, .none t, .nil t, .nil t, Nat.zero_le _⟩

/-! ## Stacks -/

theorem Backward.take {ss : List Step} {es : List Episode} {t : Text} (h : Backward ss es t) (n : Nat) :
    Backward (ss.take n) (es.take n) t := by
  induction h generalizing n with
  | nil t => simpa using Backward.nil t
  | cons hc _ ih =>
    cases n with
    | zero => exact Backward.nil _
    | succ n => exact Backward.cons hc (ih n)

/-- closing a step puts it on the stack of steps to undo and empties the other one -/
theorem Chained.push {h : History} {j : Journal} {s : Step} {e : Episode} (hs : Chained h j e.began.text)
    (hc : Covers s e) (hne : s.edits ≠ []) : Chained (h.push s) (j.close e) e.closed.text := by
  rw [History.push, if_neg (by simpa using hne)]
  exact ⟨(Backward.cons hc hs.undo).take _, .nil _, by simp only [List.length_take, List.length_nil]; omega⟩

/-- with a step to undo, the journal has an episode that it covers, closed on the present text -/
theorem Chained.of_undo {h : History} {j : Journal} {t : Text} {s : Step} {rest : List Step} (hs : Chained h j t)
    (hstack : h.undoStack = s :: rest) :
    ∃ e es, j.done = e :: es ∧ t = e.closed.text ∧ Covers s e ∧
      Chained { h with undoStack := rest, redoStack := s :: h.redoStack }
        { j with done := es, undone := e :: j.undone } e.began.text := by
  obtain ⟨hundo, hredo, hlimit⟩ := hs
  rw [hstack] at hundo hlimit
  cases hdone : j.done with
  | nil => rw [hdone] at hundo; cases hundo
  | cons e es =>
    rw [hdone] at hundo
    cases hundo with
    | cons hc hback =>
      exact ⟨e, es, rfl, rfl, hc, hback, .cons hc hredo, by simp only [List.length_cons] at hlimit ⊢; omega⟩

/-- with a step to redo, the journal has an episode that it covers, begun on the present text -/
theorem Chained.of_redo {h : History} {j : Journal} {t : Text} {s : Step} {rest : List Step} (hs : Chained h j t)
    (hstack : h.redoStack = s :: rest) :
    ∃ e es, j.undone = e :: es ∧ t = e.began.text ∧ Covers s e ∧
      Chained { h with undoStack := s :: h.undoStack, redoStack := rest }
        { j with done := e :: j.done, undone := es } e.closed.text := by
  obtain ⟨hundo, hredo, hlimit⟩ := hs
  rw [hstack] at hredo hlimit
  cases hundone : j.undone with
  | nil => rw [hundone] at hredo; cases hredo
  | cons e es =>
    rw [hundone] at hredo
    cases hredo with
    | cons hc hon =>
      exact ⟨e, es, rfl, rfl, hc, .cons hc hundo, hon, by simp only [List.length_cons] at hlimit ⊢; omega⟩

theorem Chained.done_eq_nil {h : History} {j : Journal} {t : Text} (hs : Chained h j t) (hstack : h.undoStack = []) :
    j.done = [] := by
  obtain ⟨hundo, -, -⟩ := hs
  rw [hstack] at hundo
  cases hdone : j.done with
  | nil => rfl
  | cons e es => rw [hdone] at hundo; cases hundo

theorem Chained.undone_eq_nil {h : History} {j : Journal} {t : Text} (hs : Chained h j t) (hstack : h.redoStack = []) :
    j.undone = [] := by
  obtain ⟨-, hredo, -⟩ := hs
  rw [hstack] at hredo
  cases hundone : j.undone with
  | nil => rfl
  | cons e es => rw [hundone] at hredo; cases hredo

/-! ## Groups -/

theorem Tracks.recording_none {b : Buffer} {j : Journal} (h : Tracks b j) (hdepth : b.history.depth = 0) :
    b.history.recording = none ∧ j.opened = none ∧ Chained b.history j b.text := by
  have hopened : j.opened = none := h.idle.1 (h.depth.trans hdepth)
  obtain ⟨t₀, hrec, hch⟩ := h.chained
  rw [hopened] at hrec
  cases hr : b.history.recording with
  | none => rw [hr] at hrec; cases hrec; exact ⟨rfl, hopened, hch⟩
  | some s => rw [hr] at hrec; cases hrec

theorem Tracks.recording_some {b : Buffer} {j : Journal} (h : Tracks b j) (hdepth : b.history.depth ≠ 0) :
    ∃ s m, b.history.recording = some s ∧ j.opened = some (m, !s.edits.isEmpty) ∧ s.before = m.marks ∧ m.Within ∧
      Leads s.edits m.text b.text ∧ Chained b.history j m.text := by
  have hopened : j.opened ≠ none := fun hn => hdepth (h.depth.symm.trans (h.idle.2 hn))
  obtain ⟨t₀, hrec, hch⟩ := h.chained
  cases hr : b.history.recording with
  | none =>
    rw [hr] at hrec
    cases ho : j.opened with
    | none => exact absurd ho hopened
    | some o => rw [ho] at hrec; cases hrec
  | some s =>
    rw [hr] at hrec
    cases ho : j.opened with
    | none => exact absurd ho hopened
    | some o =>
      rw [ho] at hrec
      cases hrec with
      | some hbefore hleads hm => exact ⟨s, _, rfl, rfl, hbefore, hm, hleads, hch⟩

theorem closeAll_none {h : History} (marks : Marks) (hdepth : h.depth = 0) : h.closeAll marks = h := by
  rw [History.closeAll, if_pos hdepth]

theorem closeAll_some {h : History} {s : Step} (marks : Marks) (hdepth : h.depth ≠ 0) (hrec : h.recording = some s) :
    h.closeAll marks = { h with depth := 0, recording := none }.push { s with after := marks } := by
  rw [History.closeAll, if_neg hdepth]
  simp only [History.closeGroup, hrec]

/-- closing every group leaves nothing open, and both stacks rest on the present text -/
theorem tracks_settle {b : Buffer} {j : Journal} (h : Tracks b j) :
    Tracks b.settle (j.finish b.moment) ∧ b.settle.history.depth = 0 := by
  by_cases hdepth : b.history.depth = 0
  · obtain ⟨-, hopened, -⟩ := h.recording_none hdepth
    have hj : j.finish b.moment = j := by
      have := h.depth.trans hdepth
      cases j; simp only [Journal.finish] at *; subst hopened this; rfl
    have hb : b.settle = b := by simp only [settle, closeAll_none b.marks hdepth]
    rw [hj, hb]; exact ⟨h, hdepth⟩
  · obtain ⟨s, m, hrec, hopened, hbefore, hm, hleads, hch⟩ := h.recording_some hdepth
    have hclosed := closeAll_some b.marks hdepth hrec
    have hch' : Chained { b.history with depth := 0, recording := none } { j with opened := none, depth := 0 } m.text :=
      ⟨hch.undo, hch.redo, hch.limit⟩
    cases hedits : s.edits with
    | nil =>
      have htext : m.text = b.text := by rw [hedits] at hleads; exact hleads.eq_of_nil
      have hhist : b.settle.history = { b.history with depth := 0, recording := none } := by
        simp [settle, hclosed, History.push, hedits]
      have hj : j.finish b.moment = { j with opened := none, depth := 0 } := by
        simp [Journal.finish, hopened, hedits]
      refine ⟨⟨by rw [hj, hhist], by simp [hj], h.marks, b.text, ?_, ?_⟩, by rw [hhist]⟩
      · rw [hhist, hj]; exact .none _
      · rw [hhist, hj, ← htext]; exact hch'
    | cons e es =>
      have hne : s.edits ≠ [] := by simp [hedits]
      have hc : Covers { s with after := b.marks } ⟨m, b.moment⟩ := ⟨hbefore, rfl, hleads, hm, h.marks⟩
      have hj : j.finish b.moment = { j with opened := none, depth := 0 }.close ⟨m, b.moment⟩ := by
        simp [Journal.finish, hopened, hedits]
      have hpush := hch'.push (s := { s with after := b.marks }) hc hne
      have hhist : b.settle.history = { b.history with depth := 0, recording := none }.push
        { s with after := b.marks } :=
        hclosed
      have hidle : b.settle.history.depth = 0 ∧ b.settle.history.recording = none := by
        rw [hhist, History.push]; split_ifs <;> exact ⟨rfl, rfl⟩
      refine ⟨⟨by rw [hj, hidle.1]; rfl, by simp [hj, Journal.close], h.marks, b.text, ?_, ?_⟩, hidle.1⟩
      · rw [hidle.2, hj]; exact .none _
      · rw [hhist, hj]; exact hpush

theorem tracks_openGroup {b : Buffer} {j : Journal} (h : Tracks b j) : Tracks b.openGroup (j.openGroup b.moment) := by
  have hdepth := h.depth
  by_cases h0 : b.history.depth = 0
  · obtain ⟨-, -, hch⟩ := h.recording_none h0
    refine ⟨by simp [Journal.openGroup, openGroup, History.openGroup, hdepth],
      by simp [Journal.openGroup, hdepth, h0], h.marks, b.text, ?_, hch.undo, hch.redo, hch.limit⟩
    simp only [Journal.openGroup, openGroup, History.openGroup, hdepth, h0, ↓reduceIte]
    exact .some (s := ⟨[], b.marks, b.marks⟩) (m := b.moment) rfl (.nil _) h.marks
  · obtain ⟨t₀, hrec, hch⟩ := h.chained
    have hj : j.depth ≠ 0 := fun hj => h0 (hdepth.symm.trans hj)
    refine ⟨by simp [Journal.openGroup, openGroup, History.openGroup, hdepth], ?_, h.marks, t₀, ?_, hch.undo, hch.redo,
      hch.limit⟩
    · simpa [Journal.openGroup, hj] using fun ho => hj (h.idle.2 ho)
    · simpa only [Journal.openGroup, openGroup, History.openGroup, hj, h0, ↓reduceIte] using hrec

theorem tracks_closeGroup {b : Buffer} {j : Journal} (h : Tracks b j) :
    Tracks b.closeGroup (j.closeGroup b.moment) := by
  have hdepth := h.depth
  by_cases h1 : j.depth ≤ 1
  · -- closing the only group, or none, closes all of them
    have hb : b.closeGroup = b.settle := by
      rcases Nat.le_one_iff_eq_zero_or_eq_one.1 (hdepth ▸ h1) with h0 | h0
      · simp [closeGroup, settle, History.closeAll, History.closeGroup, h0]
      · have heta : { b.history with depth := 1 } = b.history := by rw [← h0]
        simp [closeGroup, settle, History.closeAll, h0, heta]
    rw [hb, Journal.closeGroup, if_pos h1]
    exact (tracks_settle h).1
  · obtain ⟨t₀, hrec, hch⟩ := h.chained
    obtain ⟨d, hd⟩ : ∃ d, b.history.depth = d + 2 := ⟨b.history.depth - 2, by omega⟩
    have hhist : b.closeGroup.history = { b.history with depth := d + 1 } := by
      simp only [closeGroup, History.closeGroup, hd]
    have hj : j.closeGroup b.moment = { j with depth := d + 1 } := by
      rw [Journal.closeGroup, if_neg h1, hdepth, hd]; rfl
    have hopen : j.opened ≠ none := fun ho => by have := h.idle.2 ho; omega
    refine ⟨by rw [hj, hhist], by simp [hj, hopen], h.marks, t₀, ?_, ?_⟩
    · rw [hhist, hj]; exact hrec
    · rw [hhist, hj]; exact ⟨hch.undo, hch.redo, hch.limit⟩

/-! ## Edits and moves -/

theorem tracks_marks {b : Buffer} {j : Journal} (h : Tracks b j) {m : Marks} (hm : m.Within b.text.length) :
    Tracks { b with marks := m } j :=
  ⟨h.depth, h.idle, hm, h.chained⟩

theorem tracks_edit {b : Buffer} {j : Journal} (h : Tracks b j) {e : Edit} (he : e.Fits b.text) :
    Tracks (b.edit e) (j.edited b.moment (b.edit e).moment) := by
  have hwithin : (b.edit e).Within := edit_within h.marks he
  by_cases hdepth : b.history.depth = 0
  · obtain ⟨hrec, hopened, hch⟩ := h.recording_none hdepth
    have hhist : (b.edit e).history = b.history.push ⟨[e], b.marks, (b.edit e).marks⟩ := by
      simp [History.record, hrec]
    have hj : j.edited b.moment (b.edit e).moment = j.close ⟨b.moment, (b.edit e).moment⟩ := by
      simp [Journal.edited, hopened]
    have hc : Covers ⟨[e], b.marks, (b.edit e).marks⟩ ⟨b.moment, (b.edit e).moment⟩ :=
      ⟨rfl, rfl, .cons e (.nil _) he, h.marks, hwithin⟩
    have hpush := Chained.push (h := b.history) (j := j) (e := ⟨b.moment, (b.edit e).moment⟩) hch hc (by simp)
    have hsame : (b.edit e).history.depth = b.history.depth ∧ (b.edit e).history.recording = b.history.recording := by
      rw [hhist, History.push]; split_ifs <;> exact ⟨rfl, rfl⟩
    refine ⟨by rw [hj, hsame.1]; exact h.depth, by rw [hj]; exact h.idle, hwithin, (b.edit e).text, ?_, ?_⟩
    · rw [hsame.2, hrec, hj]
      simp only [Journal.close, hopened]
      exact .none _
    · rw [hhist, hj]; exact hpush
  · obtain ⟨s, m, hrec, hopened, hbefore, hm, hleads, hch⟩ := h.recording_some hdepth
    have hhist : (b.edit e).history = { b.history with recording := some { s with edits := e :: s.edits } } := by
      simp [History.record, hrec]
    have hj : j.edited b.moment (b.edit e).moment = { j with opened := some (m, true) } := by
      simp [Journal.edited, hopened]
    have hne : j.depth ≠ 0 := fun h0 => hdepth (h.depth.symm.trans h0)
    refine ⟨by rw [hj, hhist]; exact h.depth, by simp [hj, hne], hwithin, m.text, ?_, ?_⟩
    · rw [hhist, hj]
      exact .some (s := { s with edits := e :: s.edits }) hbefore (.cons e hleads he) hm
    · rw [hhist, hj]; exact ⟨hch.undo, hch.redo, hch.limit⟩

theorem note_plain {b : Buffer} {j : Journal} {op : Op} (hop : op.isPlain = true) :
    b.note j op = if (b.step op).revision = b.revision then j else j.edited b.moment (b.step op).moment := by
  cases op <;> first | rfl | simp [Op.isPlain] at hop

theorem tracks_plain {b : Buffer} {j : Journal} (h : Tracks b j) {op : Op} (hop : op.isPlain = true) :
    Tracks (b.step op) (b.note j op) := by
  rw [note_plain hop]
  obtain ⟨m, hm, he⟩ | ⟨e, hfit, he⟩ := plain_step_cases h.marks hop
  · rw [he, if_pos rfl]; exact tracks_marks h hm
  · rw [he, if_neg (by simp)]; exact tracks_edit h hfit

/-! ## Undo and redo -/

theorem undo?_eq (b : Buffer) : b.undo? = match b.settle.history.undoStack with
    | [] => none
    | s :: rest => some ⟨s.undo b.text, s.before,
        { b.settle.history with undoStack := rest, redoStack := s :: b.settle.history.redoStack },
        b.revision + 1⟩ := rfl

theorem redo?_eq (b : Buffer) : b.redo? = match b.settle.history.redoStack with
    | [] => none
    | s :: rest => some ⟨s.redo b.text, s.after,
        { b.settle.history with undoStack := s :: b.settle.history.undoStack, redoStack := rest },
        b.revision + 1⟩ := rfl

/-- what undo does: without a step it only closes groups, else it brings back the moment at
which the newest one began -/
theorem Tracks.undo?_cases {b : Buffer} {j : Journal} (h : Tracks b j) :
    ((j.finish b.moment).done = [] ∧ b.undo? = none) ∨
      ∃ c e es s, (j.finish b.moment).done = e :: es ∧ b.undo? = some c ∧ c.moment = e.began ∧
        b.settle.history.undoStack.head? = some s ∧ s.undoReplay? b.text = some c.text ∧
        Tracks c (j.undo b.moment) := by
  obtain ⟨hset, hdepth⟩ := tracks_settle h
  obtain ⟨hrec, hopened, hch⟩ := hset.recording_none hdepth
  cases hstack : b.settle.history.undoStack with
  | nil =>
    refine Or.inl ⟨hch.done_eq_nil hstack, ?_⟩
    rw [undo?_eq, hstack]
  | cons s rest =>
    obtain ⟨e, es, hdone, htext, hc, hch'⟩ := hch.of_undo hstack
    have hleads : Leads s.edits e.began.text b.text := by
      have : b.text = e.closed.text := htext
      rw [this]; exact hc.edits
    have hundo : b.undo? = some ⟨e.began.text, e.began.marks,
        { b.settle.history with undoStack := rest, redoStack := s :: b.settle.history.redoStack }, b.revision + 1⟩ := by
      rw [undo?_eq, hstack]
      simp only [hleads.undo, hc.before]
    have hj : j.undo b.moment = { j.finish b.moment with done := es, undone := e :: (j.finish b.moment).undone } := by
      simp only [Journal.undo, hdone]
    refine Or.inr ⟨_, e, es, s, hdone, hundo, rfl, rfl, hleads.undoReplay?, ?_⟩
    rw [hj]
    exact ⟨hset.depth, hset.idle, hc.began, e.began.text, by simp only [hrec, hopened]; exact .none _, hch'⟩

/-- what redo does: without a step it only closes groups, else it brings back the moment at which the step was closed -/
theorem Tracks.redo?_cases {b : Buffer} {j : Journal} (h : Tracks b j) :
    ((j.finish b.moment).undone = [] ∧ b.redo? = none) ∨
      ∃ c e es s, (j.finish b.moment).undone = e :: es ∧ b.redo? = some c ∧ c.moment = e.closed ∧
        b.settle.history.redoStack.head? = some s ∧ s.redoReplay? b.text = some c.text ∧
        Tracks c (j.redo b.moment) := by
  obtain ⟨hset, hdepth⟩ := tracks_settle h
  obtain ⟨hrec, hopened, hch⟩ := hset.recording_none hdepth
  cases hstack : b.settle.history.redoStack with
  | nil =>
    refine Or.inl ⟨hch.undone_eq_nil hstack, ?_⟩
    rw [redo?_eq, hstack]
  | cons s rest =>
    obtain ⟨e, es, hundone, htext, hc, hch'⟩ := hch.of_redo hstack
    have hleads : Leads s.edits b.text e.closed.text := by
      have : b.text = e.began.text := htext
      rw [this]; exact hc.edits
    have hredo : b.redo? = some ⟨e.closed.text, e.closed.marks,
        { b.settle.history with undoStack := s :: b.settle.history.undoStack, redoStack := rest }, b.revision + 1⟩ := by
      rw [redo?_eq, hstack]
      simp only [hleads.redo, hc.after]
    have hj : j.redo b.moment = { j.finish b.moment with done := e :: (j.finish b.moment).done, undone := es } := by
      simp only [Journal.redo, hundone]
    refine Or.inr ⟨_, e, es, s, hundone, hredo, rfl, rfl, hleads.redoReplay?, ?_⟩
    rw [hj]
    exact ⟨hset.depth, hset.idle, hc.closed, e.closed.text, by simp only [hrec, hopened]; exact .none _, hch'⟩

theorem tracks_undo {b : Buffer} {j : Journal} (h : Tracks b j) : Tracks b.undo (j.undo b.moment) := by
  obtain ⟨hdone, hnone⟩ | ⟨c, -, -, -, -, hsome, -, -, -, hc⟩ := h.undo?_cases
  · simp only [undo, hnone, Journal.undo, hdone]; exact (tracks_settle h).1
  · simp only [undo, hsome]; exact hc

theorem tracks_redo {b : Buffer} {j : Journal} (h : Tracks b j) : Tracks b.redo (j.redo b.moment) := by
  obtain ⟨hundone, hnone⟩ | ⟨c, -, -, -, -, hsome, -, -, -, hc⟩ := h.redo?_cases
  · simp only [redo, hnone, Journal.redo, hundone]; exact (tracks_settle h).1
  · simp only [redo, hsome]; exact hc

/-! ## Runs -/

theorem step_tracks {b : Buffer} {j : Journal} (h : Tracks b j) (op : Op) : Tracks (b.step op) (b.note j op) := by
  cases op with
  | openGroup => exact tracks_openGroup h
  | closeGroup => exact tracks_closeGroup h
  | undo => exact tracks_undo h
  | redo => exact tracks_redo h
  | _ => exact tracks_plain h rfl

theorem run_tracks {b : Buffer} {j : Journal} (h : Tracks b j) (ops : List Op) :
    Tracks (b.run ops) (b.noteRun j ops) := by
  induction ops generalizing b j with
  | nil => exact h
  | cons op ops ih => exact ih (step_tracks h op)

/-- the journal of a run from a fresh buffer that holds `t` -/
def journal (t : Text) (ops : List Op) : Journal :=
  (ofText t).noteRun .empty ops

theorem tracks_journal (t : Text) (ops : List Op) : Tracks ((ofText t).run ops) (journal t ops) :=
  run_tracks (tracks_ofText t) ops

/-- **Undo and redo restore moments exactly.** After any run, in whatever way its groups nest: an undo that has
something to undo brings back text and marks of the moment at which the newest step began, a redo those of the moment at
which the step was closed; neither removes or inserts anything outside the text; and both stacks together never hold
more than 1000 steps. Undo and redo close open groups first, so the journal is read with its groups closed. -/
theorem undo_redo_restore_moments (t : Text) (ops : List Op) :
    let b := (ofText t).run ops
    let j := (journal t ops).finish b.moment
    (b.undo? = none ↔ j.done = []) ∧ (b.redo? = none ↔ j.undone = []) ∧
    (∀ c, b.undo? = some c → ∃ e s, j.done.head? = some e ∧ c.moment = e.began ∧
      b.settle.history.undoStack.head? = some s ∧ s.undoReplay? b.text = some c.text) ∧
    (∀ c, b.redo? = some c → ∃ e s, j.undone.head? = some e ∧ c.moment = e.closed ∧
      b.settle.history.redoStack.head? = some s ∧ s.redoReplay? b.text = some c.text) ∧
    b.history.undoStack.length + b.history.redoStack.length ≤ 1000 := by
  intro b j
  have h : Tracks b (journal t ops) := tracks_journal t ops
  obtain ⟨t₀, -, hch⟩ := h.chained
  refine ⟨?_, ?_, ?_, ?_, hch.limit⟩
  · obtain ⟨hd, hn⟩ | ⟨c, e, es, s, hd, hs, -⟩ := h.undo?_cases
    · exact iff_of_true hn hd
    · exact iff_of_false (by simp [hs]) (by simp [j, hd])
  · obtain ⟨hd, hn⟩ | ⟨c, e, es, s, hd, hs, -⟩ := h.redo?_cases
    · exact iff_of_true hn hd
    · exact iff_of_false (by simp [hs]) (by simp [j, hd])
  · intro c hc
    obtain ⟨-, hn⟩ | ⟨c', e, es, s, hd, hs, hm, hst, hre, -⟩ := h.undo?_cases
    · rw [hn] at hc; cases hc
    · rw [hs] at hc; cases hc
      exact ⟨e, s, by simp [j, hd], hm, hst, hre⟩
  · intro c hc
    obtain ⟨-, hn⟩ | ⟨c', e, es, s, hd, hs, hm, hst, hre, -⟩ := h.redo?_cases
    · rw [hn] at hc; cases hc
    · rw [hs] at hc; cases hc
      exact ⟨e, s, by simp [j, hd], hm, hst, hre⟩

-- an undo closes the group that is open, and takes all of it back
example : ((ofText ['a']).run [.openGroup, .insert 0 ['b'], .placeCursor 2, .undo]).moment =
    ⟨['a'], .both 0⟩ := by decide

end Buffer

end CodeEditor
