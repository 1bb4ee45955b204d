import CodeEditor.Proofs.Terminal.Run
/-!
Leaving without losing text.

The editor takes the text for saved if its revision is the one saved last. That is right in every run (`Kept`): the
revision only grows, and it grows with every change of the text, also one by undo, by redo or by cleaning the text for a
save that then fails. So a key that leaves does so with the text that was saved last, unless it is the answer that
nothing is to be saved (`unsaved_text_is_not_left`).
-/

namespace CodeEditor.App

/-- the text is saved by what happens: a key asks for it, and the file can be written -/
def saves (a : App) : Happening → Bool
  | .event (.press key mods) => a.asksToSave key mods && a.file.refusal.isNone
  | _ => false

/-- the text saved last in a run, cleaned as it was when saved; `saved` is what was saved before -/
def lastSaved (saved : Text) (a : App) : List Happening → Text
  | [] => saved
  | h :: hs => lastSaved (if a.saves h then (a.happen h).session.text else saved) (a.happen h) hs

theorem lastSaved_concat (saved : Text) (a : App) (hs : List Happening) (h : Happening) :
    lastSaved saved a (hs ++ [h]) =
      if (a.happenAll hs).saves h then ((a.happenAll hs).happen h).session.text else lastSaved saved a hs := by
  induction hs generalizing a saved with
  | nil => rfl
  | cons h' hs ih => exact ih _ (a.happen h')

/-- **The invariant**: `saved` is the text saved last, as far as the revision tells -/
structure Kept (a : App) (saved : Text) : Prop where
  sound : a.session.Sound
  behind : a.savedRevision ≤ a.session.buffer.revision
  text : a.session.buffer.revision = a.savedRevision → a.session.text = saved
  /-- the question whether to save is open only while there is something to save, or after it was answered -/
  asked : a.confirmQuit = true → a.shouldQuit = false → a.isModified = true

theorem isModified_eq_false_iff {a : App} : a.isModified = false ↔ a.session.buffer.revision = a.savedRevision := by
  simp [isModified]

theorem isModified_eq_true_iff {a : App} : a.isModified = true ↔ a.session.buffer.revision ≠ a.savedRevision := by
  simp [isModified]

theorem kept_ofFile (file : File) (document : Option (Except Error Text)) :
    (ofFile file document).Kept (ofFile file document).session.text where
  sound := sound_ofFile file document
  behind := le_rfl
  text := fun _ => rfl
  asked := fun h => nomatch h

section

variable {a b : App} {saved : Text} {key : TerminalKey} {mods : Modifiers}

/-- working on the session keeps the invariant, and what is modified stays so -/
theorem Kept.continues (h : a.Kept saved) (hsession : a.session.Continues b.session)
    (hsaved : b.savedRevision = a.savedRevision)
    (hasked : b.confirmQuit = true → b.shouldQuit = false → a.isModified = true) :
    b.Kept saved ∧ (a.isModified = true → b.isModified = true) := by
  obtain ⟨hle, htext⟩ := hsession.advances h.sound
  have hbehind := h.behind
  have hmodified : a.isModified = true → b.isModified = true := by
    rw [isModified_eq_true_iff, isModified_eq_true_iff, hsaved]
    intro hne
    omega
  refine ⟨⟨hsession.sound h.sound, by omega, fun heq => ?_, fun hc hq => hmodified (hasked hc hq)⟩, hmodified⟩
  -- the revision is still the one saved last, so nothing has moved it in between
  have hsame : b.session.buffer.revision = a.session.buffer.revision := by omega
  exact (htext hsame).trans (h.text (by omega))

theorem Kept.works (h : a.Kept saved) (hb : a.Works b) : b.Kept saved := by
  obtain ⟨s, hs, hcore⟩ := hb
  obtain rfl : b.session = s := congrArg Core.session hcore
  have hconfirm : b.confirmQuit = a.confirmQuit := congrArg Core.confirmQuit hcore
  have hquit : b.shouldQuit = a.shouldQuit := congrArg Core.shouldQuit hcore
  exact (h.continues hs (congrArg Core.savedRevision hcore) fun hc hq => h.asked (hconfirm ▸ hc) (hquit ▸ hq)).1

theorem continues_prepareForSave (s : Session) : s.Continues s.prepareForSave.2 :=
  .op s (.command .prepareForSave) rfl

/-- after a save the text is the one saved last -/
theorem Kept.written (h : a.Kept saved) (hb : b.core = a.core.saved) : b.Kept b.session.text := by
  have hsession : b.session = a.session.prepareForSave.2 := congrArg Core.session hb
  have hsaved : b.savedRevision = b.session.buffer.revision := by
    rw [hsession]
    exact congrArg Core.savedRevision hb
  refine ⟨?_, hsaved.le, fun _ => rfl, fun hc hq => ?_⟩
  · rw [hsession]
    exact (continues_prepareForSave a.session).sound h.sound
  · -- the answer that saves also leaves
    have hconfirm : b.confirmQuit = a.confirmQuit := congrArg Core.confirmQuit hb
    have hquit : b.shouldQuit = (a.shouldQuit || a.confirmQuit) := congrArg Core.shouldQuit hb
    rw [hquit, ← hconfirm, hc, Bool.or_true] at hq
    cases hq

/-- a save that fails leaves what was saved last, and may have cleaned the text -/
theorem Kept.failed (h : a.Kept saved)
    (hb : b.core = { a.core with session := a.session.prepareForSave.2, confirmQuit := false }) :
    b.Kept saved ∧ (a.isModified = true → b.isModified = true) := by
  have hsession : b.session = a.session.prepareForSave.2 := congrArg Core.session hb
  have hconfirm : b.confirmQuit = false := congrArg Core.confirmQuit hb
  have hcontinues : a.session.Continues b.session := hsession ▸ continues_prepareForSave a.session
  exact h.continues hcontinues (congrArg Core.savedRevision hb) fun hc => by rw [hconfirm] at hc; cases hc

/-- asking, answering and taking the question back leave session and revision alone -/
theorem Kept.answered (h : a.Kept saved) {quit confirm : Bool}
    (hb : b.core = { a.core with shouldQuit := quit, confirmQuit := confirm })
    (hasked : confirm = true → quit = false → a.isModified = true) : b.Kept saved := by
  have hsession : b.session = a.session := congrArg Core.session hb
  have hcontinues : a.session.Continues b.session := hsession ▸ .refl _
  refine (h.continues hcontinues (congrArg Core.savedRevision hb) fun hc hq => hasked ?_ ?_).1
  · exact (congrArg Core.confirmQuit hb).symm.trans hc
  · exact (congrArg Core.shouldQuit hb).symm.trans hq

theorem core_of_saves (hkey : a.asksToSave key mods = true) (hdisk : a.file.refusal = none) :
    (a.pressKey key mods).core = a.core.saved := by
  cases a.pressKey_effect key mods with
  | saves _ _ hb => exact hb
  | fails _ hrefused => rw [hdisk] at hrefused; cases hrefused
  | works _ hno | asks hno | leaves hno | declines hno | stays hno => rw [hkey] at hno; cases hno

theorem core_of_fails (hkey : a.asksToSave key mods = true) (hdisk : a.file.refusal.isSome = true) :
    (a.pressKey key mods).core = { a.core with session := a.session.prepareForSave.2, confirmQuit := false } := by
  cases a.pressKey_effect key mods with
  | fails _ _ hb => exact hb
  | saves _ hwritable => rw [hwritable] at hdisk; cases hdisk
  | works _ hno | asks hno | leaves hno | declines hno | stays hno => rw [hkey] at hno; cases hno

theorem Kept.pressKey (h : a.Kept saved) (key : TerminalKey) (mods : Modifiers) :
    (a.pressKey key mods).Kept
      (if a.saves (.event (.press key mods)) then (a.pressKey key mods).session.text else saved) := by
  have hno : a.asksToSave key mods = false → a.saves (.event (.press key mods)) = false := by
    intro hkey
    rw [saves, hkey, Bool.false_and]
  cases a.pressKey_effect key mods with
  | works hb hkey => rw [hno hkey]; exact h.works hb
  | saves hkey hdisk hb =>
    rw [saves, hkey, hdisk]
    exact h.written hb
  | fails hkey hdisk hb =>
    have hrefused : a.saves (.event (.press key mods)) = false := by
      cases hreason : a.file.refusal with
      | none => rw [hreason] at hdisk; cases hdisk
      | some reason => rw [saves, hreason, Option.isNone_some, Bool.and_false]
    rw [hrefused]
    exact (h.failed hb).1
  | asks hkey hmodified hb => rw [hno hkey]; exact h.answered hb fun _ _ => hmodified
  | leaves hkey hmodified hb => rw [hno hkey]; exact h.answered hb fun _ hq => nomatch hq
  | declines hkey hanswer hb => rw [hno hkey]; exact h.answered hb fun _ hq => nomatch hq
  | stays hkey hb => rw [hno hkey]; exact h.answered hb fun hc => nomatch hc

theorem poll_continues (a : App) (now : Nat) :
    a.session.Continues (a.poll now).session ∧ (a.poll now).savedRevision = a.savedRevision ∧
      (a.poll now).shouldQuit = a.shouldQuit ∧ (a.poll now).confirmQuit = a.confirmQuit := by
  unfold poll
  dsimp only
  split_ifs
  · exact ⟨.op _ (.poll now) rfl, rfl, rfl, rfl⟩
  · exact ⟨.op _ (.poll now) rfl, rfl, rfl, rfl⟩

/-- **One thing happens**, and what was saved last is known again. -/
theorem Kept.happen (h : a.Kept saved) (x : Happening) :
    (a.happen x).Kept (if a.saves x then (a.happen x).session.text else saved) := by
  cases x with
  | event e =>
    cases e with
    | press key mods => exact h.pressKey key mods
    | paste t => exact h.works (a.works_paste t)
    | poll now =>
      obtain ⟨hcontinues, hsaved, hquit, hconfirm⟩ := a.poll_continues now
      exact (h.continues hcontinues hsaved fun hc hq => h.asked (hconfirm ▸ hc) (hquit ▸ hq)).1
    | render width height => exact h.works (a.works_render width height)
  | release key mods => exact h
  | disk content refusal => exact ⟨h.sound, h.behind, h.text, h.asked⟩

/-- **A run**: what was saved last is known all the time. -/
theorem Kept.happenAll (h : a.Kept saved) (hs : List Happening) : (a.happenAll hs).Kept (lastSaved saved a hs) := by
  induction hs generalizing a saved with
  | nil => exact h
  | cons x hs ih => exact ih (h.happen x)

/-- only a key leaves: with nothing modified, with the text just saved, or with the answer that
nothing is to be saved -/
theorem happen_shouldQuit {x : Happening} (hquit : a.shouldQuit = false) (hquits : (a.happen x).shouldQuit = true) :
    ∃ key mods, x = .event (.press key mods) ∧
      (a.declinesToSave key = true ∨ a.saves x = true ∨ (a.happen x).session = a.session ∧ a.isModified = false) := by
  have hstill : ∀ {b : App}, b.shouldQuit = a.shouldQuit → b.shouldQuit = true → False := by
    intro b hb hbquits
    rw [hb, hquit] at hbquits
    cases hbquits
  have hworks : ∀ {b : App}, a.Works b → b.shouldQuit = true → False := by
    rintro b ⟨s, -, hcore⟩
    exact hstill (congrArg Core.shouldQuit hcore)
  cases x with
  | event e =>
    cases e with
    | press key mods =>
      refine ⟨key, mods, rfl, ?_⟩
      cases a.pressKey_effect key mods with
      | works hb => exact (hworks hb hquits).elim
      | saves hkey hdisk => exact Or.inr (Or.inl (by rw [saves, hkey, hdisk]; rfl))
      | fails _ _ hb => exact (hstill (congrArg Core.shouldQuit hb) hquits).elim
      | asks _ _ hb => exact (hstill (congrArg Core.shouldQuit hb) hquits).elim
      | leaves _ hmodified hb => exact Or.inr (Or.inr ⟨congrArg Core.session hb, hmodified⟩)
      | declines _ hanswer => exact Or.inl hanswer
      | stays _ hb => exact (hstill (congrArg Core.shouldQuit hb) hquits).elim
    | paste t => exact (hworks (a.works_paste t) hquits).elim
    | poll now => exact (hstill (a.poll_continues now).2.2.1 hquits).elim
    | render width height => exact (hworks (a.works_render width height) hquits).elim
  | release key mods => exact (hstill rfl hquits).elim
  | disk content refusal => exact (hstill rfl hquits).elim

end

/-- **Unsaved text is not left.** A file is opened and anything happens: keys, pastes, polls, drawing, and changes on
disk, so that a save may work at one time and fail at another.

- An editor that shows no modification holds the text that was saved last, or the opened one if none was.
- Nothing but a key leaves, and unless it answers that nothing is to be saved, the text is then the one saved last, that
  very key counted.
- A key that saves leaves the text on disk as it stands in the buffer, with the line endings of the file.
- A key whose save fails does not leave, writes nothing, and what was modified is still modified; while the question
  whether to save is open there always is something to save. -/
theorem unsaved_text_is_not_left (file : File) (document : Option (Except Error Text)) (before : List Happening) :
    let start := ofFile file document
    let a := start.happenAll before
    let saved := lastSaved start.session.text start
    (a.isModified = false → a.session.text = saved before) ∧
    (∀ x, a.shouldQuit = false → (a.happen x).shouldQuit = true → ∃ key mods, x = .event (.press key mods) ∧
      (a.declinesToSave key = true ∨ (a.happen x).session.text = saved (before ++ [x]))) ∧
    (∀ key mods, a.asksToSave key mods = true → a.file.refusal = none →
      let b := a.pressKey key mods
      b.isModified = false ∧ b.file.content = some (b.session.lineEnding.write b.session.text)) ∧
    (∀ key mods, a.asksToSave key mods = true → a.file.refusal.isSome = true →
      let b := a.pressKey key mods
      b.shouldQuit = a.shouldQuit ∧ b.file = a.file ∧
        (a.isModified = true ∨ a.confirmQuit = true ∧ a.shouldQuit = false → b.isModified = true)) := by
  intro start a saved
  have ha : a.Kept (saved before) := (kept_ofFile file document).happenAll before
  refine ⟨fun hmodified => ha.text (isModified_eq_false_iff.1 hmodified), ?_, ?_, ?_⟩
  · intro x hquit hquits
    obtain ⟨key, mods, hx, hcases⟩ := happen_shouldQuit hquit hquits
    refine ⟨key, mods, hx, ?_⟩
    have hlast : saved (before ++ [x]) = if a.saves x then (a.happen x).session.text else saved before :=
      lastSaved_concat _ _ _ _
    rw [hlast]
    rcases hcases with hanswer | hsaves | ⟨hsession, hmodified⟩
    · exact Or.inl hanswer
    · rw [if_pos hsaves]
      exact Or.inr rfl
    · refine Or.inr ?_
      split_ifs
      · rfl
      · rw [hsession]
        exact ha.text (isModified_eq_false_iff.1 hmodified)
  · intro key mods hkey hdisk b
    have hb : b.core = a.core.saved := core_of_saves hkey hdisk
    have hsession : b.session = a.session.prepareForSave.2 := congrArg Core.session hb
    have hrevision : b.savedRevision = a.session.prepareForSave.2.buffer.revision := congrArg Core.savedRevision hb
    refine ⟨?_, ?_⟩
    · rw [isModified_eq_false_iff, hsession, hrevision]
    · rw [hsession]
      exact congrArg (fun c => c.file.content) hb
  · intro key mods hkey hdisk b
    have hb := core_of_fails hkey hdisk
    refine ⟨congrArg Core.shouldQuit hb, congrArg Core.file hb, ?_⟩
    rintro (hmodified | ⟨hconfirm, hquit⟩)
    · exact (ha.failed hb).2 hmodified
    · exact (ha.failed hb).2 (ha.asked hconfirm hquit)

/-- a letter typed into a file that cannot be written: leaving asks, saving fails, and the editor stays with the
modified text; once the file can be written, the same answer saves and leaves -/
theorem letter_is_saved_before_leaving :
    let start := ofFile ⟨"a".toList, some "b\n".toList, some "read-only".toList⟩ none
    let control : Modifiers := ⟨false, true, false, false⟩
    let leave : Happening := .event (.press (.key (.char 'x')) control)
    let yes : TerminalKey := .key (.char 'y')
    let before : List Happening := [.event (.press (.key (.char 'a')) .none), leave]
    let failed : List Happening := before ++ [.event (.press yes .none), .disk (some "b\n".toList) none, leave]
    let saved := lastSaved start.session.text start
    ((start.happenAll before).asksToSave yes .none = true ∧ (start.happenAll before).file.refusal.isSome = true) ∧
      ((start.happenAll before).pressKey yes .none).shouldQuit = false ∧
      ((start.happenAll before).pressKey yes .none).isModified = true ∧
      ((start.happenAll failed).shouldQuit = false ∧
        ((start.happenAll failed).happen (.event (.press yes .none))).shouldQuit = true ∧
        (start.happenAll failed).declinesToSave yes = false) ∧
      ((start.happenAll failed).happen (.event (.press yes .none))).session.text =
        saved (failed ++ [.event (.press yes .none)]) ∧
      saved (failed ++ [.event (.press yes .none)]) = "ab\n".toList := by
  intro start control leave yes before failed saved
  have hasks : (start.happenAll before).asksToSave yes .none = true := by decide
  have hdisk : (start.happenAll before).file.refusal.isSome = true := by decide
  obtain ⟨hstays, -, hmodified⟩ := (unsaved_text_is_not_left _ none before).2.2.2 yes .none hasks hdisk
  have hopen : (start.happenAll failed).shouldQuit = false := by decide
  have hquits : ((start.happenAll failed).happen (.event (.press yes .none))).shouldQuit = true := by decide
  have hanswer : (start.happenAll failed).declinesToSave yes = false := by decide
  obtain ⟨key, mods, hx, hleft⟩ := (unsaved_text_is_not_left _ none failed).2.1 _ hopen hquits
  cases hx
  have htext := hleft.resolve_left (by rw [hanswer]; decide)
  have hstart : (start.happenAll before).shouldQuit = false := by decide
  exact ⟨⟨hasks, hdisk⟩, hstays.trans hstart, hmodified (Or.inl (by decide)), ⟨hopen, hquits, hanswer⟩, htext,
    by decide⟩

end CodeEditor.App
