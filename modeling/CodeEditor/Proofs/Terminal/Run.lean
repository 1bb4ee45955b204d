import CodeEditor.Proofs.Session.Run
import CodeEditor.Terminal.Frame
/-!
Runs of the terminal editor, and of what goes on around it.

`App.Happening` lists what can happen: an event of the editor, a key that is let go, and a change on disk behind the
editor's back. Whatever happens, the session of the editor goes through operations of a session (`App.Works`), so its
revision never falls and tells whether the text has changed. Apart from that,

* a key has one of few effects (`App.KeyEffect`, `pressKey_effect`): the session is worked on, the text is saved or
  cannot be, the question whether to save is asked, answered or taken back, or the editor leaves;
* a paste and drawing only work on the session, and only a poll changes the pair of braces shown.
-/

namespace CodeEditor

namespace Session

variable {s s' : Session}

/-- an operation of the session is a run of operations of its buffer -/
theorem step_runs (hs : s.Sound) (op : Op) : s.buffer.Runs (s.step op).buffer := by
  have haffects : ∀ {s' : Session}, s.Affects s' → s.buffer.Runs s'.buffer := by
    rintro s' ⟨b, rfl | rfl, hruns, -⟩
    · exact hruns
    · exact hruns
  have hsync : s.buffer.Runs s.sync.buffer := by rw [sync_buffer]; exact .refl _
  have hfound : ∀ found, s.buffer.Runs (s.selectFound found).2.buffer := by
    intro found
    cases found with
    | none => exact .refl _
    | some o => exact .step _ (.select o.stop o.start)
  cases op with
  | command c => exact haffects (execute_affects hs.buffer.within c)
  | handle key mods => exact haffects (handleKey_affects hs.buffer.within key mods)
  | attach classify => exact .refl _
  | context => exact hsync
  | setUnit ch width =>
    simp only [step]
    cases IndentUnit.make ch width <;> exact .refl _
  | inferUnit =>
    simp only [step, inferUnit]
    split <;> exact .refl _
  | selectWord => exact (Buffer.acts_select _ _ _).runs
  | placeAtLine line column => exact (Buffer.acts_placeCursor _ _).runs
  | placeAt p =>
    simp only [step, placeAt]
    split_ifs
    · exact .refl _
    · exact (Buffer.acts_placeCursor _ _).runs
  | setSearch t options =>
    simp only [step, setSearch]
    split_ifs
    · exact .refl _
    · split <;> exact .refl _
  | searchForward => exact hfound _
  | searchBackward => exact hfound _
  | matchingBracket => exact hsync
  | poll now =>
    simp only [step, poll]
    split_ifs
    · exact .refl _
    · simp only [matchingBracket, sync_buffer]; exact .refl _
    · exact .refl _
  | buffer op => exact .step _ op

/-- without a classifier there is nothing to find -/
theorem sync_of_none (h : s.classifier = none) : s.sync = s := by
  rw [sync, h]

/-- without a classifier the spans stay what they are -/
theorem step_spans (hs : s.Sound) {op : Op} (hop : op.keepsClassifier = true) (h : s.classifier = none) :
    (s.step op).spans = s.spans := by
  have haffects : ∀ {s' : Session}, s.Affects s' → s'.spans = s.spans := by
    rintro s' ⟨b, rfl | rfl, -⟩
    · rfl
    · rw [sync_of_none h]
  have hfound : ∀ found, (s.selectFound found).2.spans = s.spans := by
    intro found
    cases found <;> rfl
  cases op with
  | command c => exact haffects (execute_affects hs.buffer.within c)
  | handle key mods => exact haffects (handleKey_affects hs.buffer.within key mods)
  | attach classify => cases hop
  | context => rw [step, sync_of_none h]
  | setUnit ch width =>
    simp only [step]
    cases IndentUnit.make ch width <;> rfl
  | inferUnit =>
    simp only [step, inferUnit]
    split <;> rfl
  | selectWord => rfl
  | placeAtLine line column => rfl
  | placeAt p =>
    simp only [step, placeAt]
    split_ifs <;> rfl
  | setSearch t options =>
    simp only [step, setSearch]
    split_ifs
    · rfl
    · split <;> rfl
  | searchForward => exact hfound _
  | searchBackward => exact hfound _
  | matchingBracket => rw [step, matchingBracket, sync_of_none h]
  | poll now =>
    simp only [step, poll]
    split_ifs
    · rfl
    · rw [matchingBracket, sync_of_none]
      exact h
    · rfl
  | buffer op => rfl

/-- a poll looks at the buffer only -/
theorem poll_buffer (s : Session) (now : Nat) : (s.poll now).2.buffer = s.buffer := by
  unfold poll
  dsimp only
  split_ifs
  · rfl
  · exact sync_buffer _
  · rfl

/-- operations that attach no classifier lead from one session to another -/
def Continues (s s' : Session) : Prop :=
  ∃ ops, (∀ op ∈ ops, op.keepsClassifier = true) ∧ s.run ops = s'

namespace Continues

theorem refl (s : Session) : s.Continues s :=
  ⟨[], fun _ h => (List.not_mem_nil h).elim, rfl⟩

theorem op (s : Session) (o : Op) (ho : o.keepsClassifier = true) : s.Continues (s.step o) :=
  ⟨[o], fun o' ho' => by rwa [List.mem_singleton.1 ho'], rfl⟩

theorem trans {s'' : Session} (h : s.Continues s') (h' : s'.Continues s'') : s.Continues s'' := by
  obtain ⟨xs, hxs, rfl⟩ := h
  obtain ⟨ys, hys, rfl⟩ := h'
  refine ⟨xs ++ ys, fun op hop => ?_, List.foldl_append⟩
  rcases List.mem_append.1 hop with hop | hop
  · exact hxs op hop
  · exact hys op hop

theorem sound (h : s.Continues s') (hs : s.Sound) : s'.Sound := by
  obtain ⟨ops, -, rfl⟩ := h
  exact run_sound hs ops

/-- **The revision tells whether the text has changed**, over any operations. -/
theorem advances (h : s.Continues s') (hs : s.Sound) : s.buffer.Advances s'.buffer := by
  obtain ⟨ops, -, rfl⟩ := h
  induction ops generalizing s with
  | nil => exact .refl _
  | cons op ops ih =>
    obtain ⟨bufferOps, hruns⟩ := step_runs hs op
    have hstep : s.buffer.Advances (s.step op).buffer := hruns ▸ Buffer.run_advances hs.buffer bufferOps
    exact hstep.trans (ih (step_sound hs op))

/-- **In the same revision the spans are the same**, once they are up to date. -/
theorem sync_spans (h : s.Continues s') (hs : s.Sound) (hrev : s'.buffer.revision = s.buffer.revision) :
    s'.sync.spans = s.sync.spans := by
  have htext : s'.text = s.text := (h.advances hs).2 hrev
  have hs' : s'.Sound := h.sound hs
  obtain ⟨ops, hops, rfl⟩ := h
  have hclassifier := run_classifier hs hops
  cases hc : s.classifier with
  | some classify => rw [hs'.sync_spans (hclassifier.trans hc), hs.sync_spans hc, htext]
  | none =>
    rw [sync_of_none (hclassifier.trans hc), sync_of_none hc]
    clear htext hs' hrev hclassifier
    induction ops generalizing s with
    | nil => rfl
    | cons op ops ih =>
      have hop := hops op List.mem_cons_self
      have hnone : (s.step op).classifier = none := (step_setting hs hop).classifier.trans hc
      have hrest : ((s.step op).run ops).spans = (s.step op).spans :=
        ih (step_sound hs op) (fun o ho => hops o (List.mem_cons_of_mem op ho)) hnone
      exact hrest.trans (step_spans hs hop hc)

end Continues

end Session

namespace App

/-! ## What happens -/

/-- what happens in and around the editor -/
inductive Happening where
  | event (e : Event)
  /-- a key is let go -/
  | release (key : TerminalKey) (mods : Modifiers)
  /-- the file changes behind the editor's back, or the reason why writing it fails -/
  | disk (content refusal : Option Text)
  deriving DecidableEq, Repr

/-- the editor after something happened -/
def happen (a : App) : Happening → App
  | .event e => a.step e
  | .release _ _ => a
  | .disk content refusal => { a with file := { a.file with content, refusal } }

/-- the editor after several things happened -/
def happenAll (a : App) (hs : List Happening) : App :=
  hs.foldl happen a

/-- the key asks for saving: `y` as an answer, or the shortcut -/
def asksToSave (a : App) (key : TerminalKey) (mods : Modifiers) : Bool :=
  if a.confirmQuit then key = .key (.char 'y') || key = .key (.char 'Y')
  else a.mode = .normal && key = .key (.char 's') && mods = ⟨false, true, false, false⟩

/-- the key is the answer that text need not be saved -/
def declinesToSave (a : App) (key : TerminalKey) : Bool :=
  a.confirmQuit && (key = .key (.char 'n') || key = .key (.char 'N'))

theorem sound_ofFile (file : File) (document : Option (Except Error Text)) : (ofFile file document).session.Sound := by
  have hopened := Session.sound_ofText (file.content.getD []) (.ofId (Language.guess? file.path))
    (loadConfig document).1
  show (classified _).Sound
  unfold classified
  split
  · rename_i c _
    exact Session.step_sound hopened (.attach c.classify)
  · exact hopened

/-! ## What a key does -/

/-- the part of the editor that counts for saving, leaving and the pair of braces shown -/
structure Core where
  session : Session
  file : File
  savedRevision : Nat
  shouldQuit : Bool
  confirmQuit : Bool
  bracketPair : Option (Nat × Nat)
  polled : Option (Nat × Nat)

/-- that part of an editor -/
def core (a : App) : Core :=
  ⟨a.session, a.file, a.savedRevision, a.shouldQuit, a.confirmQuit, a.bracketPair, a.polled⟩

/-- the session is worked on, and nothing else of the part that counts changes -/
def Works (a b : App) : Prop :=
  ∃ s, a.session.Continues s ∧ b.core = { a.core with session := s }

section

variable {a b c : App}

theorem Works.refl (a : App) : a.Works a :=
  ⟨a.session, .refl _, rfl⟩

theorem Works.trans (h : a.Works b) (h' : b.Works c) : a.Works c := by
  obtain ⟨s, hs, hb⟩ := h
  obtain ⟨s', hs', hc⟩ := h'
  have hsession : b.session = s := congrArg Core.session hb
  refine ⟨s', hs.trans (hsession ▸ hs'), ?_⟩
  rw [hc, hb]

/-- nothing of the part that counts changes -/
theorem Works.of_core (h : b.core = a.core) : a.Works b :=
  ⟨a.session, .refl _, h⟩

/-- one operation of the session -/
theorem Works.of_op (op : Session.Op) (hop : op.keepsClassifier = true)
    (h : b.core = { a.core with session := a.session.step op }) :
    a.Works b :=
  ⟨_, .op _ op hop, h⟩

theorem core_scrollToCursor (a : App) : a.scrollToCursor.core = a.core := by
  unfold scrollToCursor
  split_ifs <;> rfl

theorem works_scrollToCursor (a : App) : a.Works a.scrollToCursor :=
  .of_core a.core_scrollToCursor

theorem works_copy (a : App) : a.Works a.copy := by
  unfold copy
  dsimp only
  split_ifs <;> exact .of_core rfl

theorem works_paste (a : App) (t : Text) : a.Works (a.paste t) := by
  unfold paste
  split_ifs
  · exact .refl a
  · refine .of_op (.command (.paste t)) rfl ?_
    dsimp only
    rw [core_scrollToCursor]
    split_ifs <;> rfl

theorem works_applySearch (a : App) : a.Works a.applySearch.2 := by
  unfold applySearch
  split
  · rename_i count s h
    refine .of_op (.setSearch a.findPrompt.text ⟨a.caseSensitive, a.isPattern⟩) rfl ?_
    simp only [core, Session.step, h]
    rfl
  · exact .of_core rfl

theorem works_find (a : App) (forward : Bool) : a.Works (a.find forward) := by
  unfold find
  split_ifs
  · exact .of_core rfl
  · exact .of_op .searchForward rfl rfl
  · exact .of_op .searchBackward rfl rfl

theorem works_replaceNext (a : App) : a.Works a.replaceNext :=
  .of_op (.command (.replaceForward a.replacePrompt.text)) rfl rfl

theorem works_replaceAll (a : App) : a.Works a.replaceAll :=
  .of_op (.command (.replaceAll a.replacePrompt.text)) rfl rfl

theorem works_mapPrompt (a : App) (f : Prompt → Prompt) : a.Works (a.mapPrompt f) := by
  unfold mapPrompt
  split <;> exact .of_core rfl

theorem works_confirmPrompt (a : App) : a.Works a.confirmPrompt := by
  unfold confirmPrompt
  split
  · exact .refl a
  · have hconfirmed : a.Works { a.confirmFind with mode := .normal } := .of_core rfl
    have hsearched := hconfirmed.trans (works_applySearch _)
    split
    · rename_i b heq
      rw [heq] at hsearched
      exact hsearched.trans (b.works_find true)
    · rename_i b heq
      rw [heq] at hsearched
      exact hsearched
  · exact .of_core rfl
  · have hconfirmed : a.Works { a.confirmReplace with mode := .normal } := .of_core rfl
    have hsearched := hconfirmed.trans (works_applySearch _)
    split
    · rename_i b heq
      rw [heq] at hsearched
      exact hsearched.trans (.of_core rfl)
    · rename_i b heq
      rw [heq] at hsearched
      exact hsearched

theorem works_promptKey (a : App) (key : TerminalKey) (mods : Modifiers) : a.Works (a.promptKey key mods) := by
  unfold promptKey
  split
  · exact .of_core rfl
  · exact a.works_confirmPrompt
  · exact a.works_mapPrompt _
  · exact a.works_mapPrompt _
  · exact a.works_mapPrompt _
  · split_ifs
    · exact .of_core rfl
    · exact .of_core rfl
    · exact a.works_mapPrompt _
  · exact .refl a

/-- the part that counts, after the text was written to disk -/
def Core.saved (c : Core) : Core :=
  let (content, session) := c.session.prepareForSave
  { c with
    session, savedRevision := session.buffer.revision
    file := { c.file with content := some content }
    shouldQuit := c.shouldQuit || c.confirmQuit }

/-- everything that a key can do -/
inductive KeyEffect (a : App) (key : TerminalKey) (mods : Modifiers) (b : App) : Prop where
  /-- the session is worked on -/
  | works (h : a.Works b) (hkey : a.asksToSave key mods = false)
  /-- the text is saved; an answer to the question leaves, too -/
  | saves (hkey : a.asksToSave key mods = true) (hdisk : a.file.refusal = none) (h : b.core = a.core.saved)
  /-- the text cannot be saved, which also takes the question back -/
  | fails (hkey : a.asksToSave key mods = true) (hdisk : a.file.refusal.isSome = true)
      (h : b.core = { a.core with session := a.session.prepareForSave.2, confirmQuit := false })
  /-- the question whether to save -/
  | asks (hkey : a.asksToSave key mods = false) (hmodified : a.isModified = true)
      (h : b.core = { a.core with confirmQuit := true })
  /-- there is nothing to save -/
  | leaves (hkey : a.asksToSave key mods = false) (hmodified : a.isModified = false)
      (h : b.core = { a.core with shouldQuit := true })
  /-- the answer that nothing is to be saved -/
  | declines (hkey : a.asksToSave key mods = false) (hanswer : a.declinesToSave key = true)
      (h : b.core = { a.core with shouldQuit := true })
  /-- the question is taken back -/
  | stays (hkey : a.asksToSave key mods = false) (h : b.core = { a.core with confirmQuit := false })

theorem save_of_none (a : App) (h : a.file.refusal = none) :
    a.save = (none, { a with
      session := a.session.prepareForSave.2
      savedRevision := a.session.prepareForSave.2.buffer.revision
      file := { a.file with content := some a.session.prepareForSave.1 } }) := by
  simp only [save, h]

theorem save_of_some (a : App) {reason : Text} (h : a.file.refusal = some reason) :
    a.save = (some reason, { a with session := a.session.prepareForSave.2 }) := by
  simp only [save, h]

/-- what a key does while the question is open -/
theorem confirmKey_effect (a : App) (key : TerminalKey) (mods : Modifiers) (h : a.confirmQuit = true) :
    a.KeyEffect key mods (a.confirmKey key) := by
  unfold confirmKey
  cases key with
  | key k =>
    cases k with
    | char c =>
      dsimp only
      split_ifs with hyes hno
      · have hkey : a.asksToSave (.key (.char c)) mods = true := by
          simpa [asksToSave, h] using hyes
        cases hdisk : a.file.refusal with
        | none =>
          rw [save_of_none a hdisk]
          refine .saves hkey hdisk ?_
          simp [core, Core.saved, h]
        | some reason =>
          rw [save_of_some a hdisk]
          exact .fails hkey (by simp [hdisk]) rfl
      · refine .declines ?_ ?_ rfl
        · simpa [asksToSave, h] using hyes
        · simpa [declinesToSave, h] using hno
      · exact .works (.refl a) (by simpa [asksToSave, h] using hyes)
    | _ => exact .works (.refl a) (by simp [asksToSave, h])
  | escape => exact .stays (by simp [asksToSave, h]) rfl
  | _ => exact .works (.refl a) (by simp [asksToSave, h])

end

/-- the shortcuts with Control; `s` asks for saving, and no other one does -/
theorem controlKey?_effect {a b : App} {c : Char} {key : TerminalKey} {mods : Modifiers}
    (hconfirm : a.confirmQuit = false) (hkey : a.asksToSave key mods = (c == 's')) (h : a.controlKey? c = some b) :
    a.KeyEffect key mods b := by
  unfold controlKey? at h
  split at h
  · -- save
    cases hdisk : a.file.refusal with
    | none =>
      rw [save_of_none a hdisk] at h
      cases h
      refine .saves hkey hdisk ?_
      simp [core, Core.saved, say, hconfirm]
    | some reason =>
      rw [save_of_some a hdisk] at h
      cases h
      refine .fails hkey (by simp [hdisk]) ?_
      simp [core, say, hconfirm]
  · -- leave
    cases hmodified : a.isModified with
    | true =>
      simp only [hmodified, if_true, Option.some.injEq] at h
      exact .asks hkey hmodified (by rw [← h]; rfl)
    | false =>
      simp only [hmodified, Bool.false_eq_true, if_false, Option.some.injEq] at h
      exact .leaves hkey hmodified (by rw [← h]; rfl)
  · cases h; exact .works a.works_copy hkey
  · cases h; exact .works (a.works_paste _) hkey
  · -- undo
    refine .works (.of_op (.buffer .undo) rfl ?_) hkey
    split_ifs at h <;> (cases h; rfl)
  · -- redo
    refine .works (.of_op (.buffer .redo) rfl ?_) hkey
    split_ifs at h <;> (cases h; rfl)
  · cases h; exact .works (.of_op (.command .toggleComments) rfl rfl) hkey
  · cases h; exact .works (.of_op (.command .reindent) rfl rfl) hkey
  · cases h; exact .works (.of_op .selectWord rfl rfl) hkey
  · cases h; exact .works (.of_core rfl) hkey
  · cases h; exact .works (.of_core rfl) hkey
  · cases h; exact .works a.works_replaceNext hkey
  · cases h; exact .works a.works_replaceAll hkey
  · cases h

/-- in the text, the shortcut asks for saving -/
theorem asksToSave_of_normal {a : App} (hconfirm : a.confirmQuit = false) (hmode : a.mode = .normal) (key : TerminalKey)
    (mods : Modifiers) : a.asksToSave key mods = (key = .key (.char 's') && mods = ⟨false, true, false, false⟩) := by
  simp [asksToSave, hconfirm, hmode]

/-- what a shortcut does -/
theorem shortcut?_effect {a b : App} {key : TerminalKey} {mods : Modifiers} (hconfirm : a.confirmQuit = false)
    (hmode : a.mode = .normal) (h : a.shortcut? key mods = some b) : a.KeyEffect key mods b := by
  have hask := asksToSave_of_normal hconfirm hmode
  unfold shortcut? at h
  cases key with
  | key k =>
    cases k with
    | char c =>
      dsimp only at h
      split_ifs at h with hmods
      refine controlKey?_effect hconfirm ?_ h
      rw [hask, hmods]
      simp [Bool.beq_eq_decide_eq]
    | _ => cases h
  | function n =>
    rcases n with _ | _ | _ | _ | n
    case succ.succ.succ.zero =>
      change (if _ then _ else if _ then _ else _) = some b at h
      split_ifs at h
      · cases h
        exact .works (a.works_find true) (by simp [hask])
      · cases h
        exact .works (a.works_find false) (by simp [hask])
    all_goals cases h
  | _ => cases h

/-- what a key does in the text -/
theorem normalKey_effect (a : App) (key : TerminalKey) (mods : Modifiers) (hconfirm : a.confirmQuit = false)
    (hmode : a.mode = .normal) : a.KeyEffect key mods (a.normalKey key mods) := by
  unfold normalKey
  cases hshort : a.shortcut? key mods with
  | some b => exact shortcut?_effect hconfirm hmode hshort
  | none =>
    dsimp only
    have hother : a.asksToSave key mods = false := by
      rw [asksToSave_of_normal hconfirm hmode, Bool.eq_false_iff]
      intro hs
      simp only [Bool.and_eq_true, decide_eq_true_eq] at hs
      -- the shortcut that asks for saving is one, so it does not get here
      rw [hs.1, hs.2] at hshort
      change a.controlKey? 's' = none at hshort
      cases hshort
    split
    · rename_i k
      exact .works (.of_op (.command (.press k mods)) rfl rfl) hother
    · exact .works (.refl a) hother

/-- moving the view changes nothing of what a key does -/
theorem KeyEffect.scrollToCursor {a b : App} {key : TerminalKey} {mods : Modifiers} (h : a.KeyEffect key mods b) :
    a.KeyEffect key mods b.scrollToCursor := by
  have hcore := b.core_scrollToCursor
  cases h with
  | works h hkey => exact .works (h.trans b.works_scrollToCursor) hkey
  | saves hkey hdisk h => exact .saves hkey hdisk (hcore.trans h)
  | fails hkey hdisk h => exact .fails hkey hdisk (hcore.trans h)
  | asks hkey hmodified h => exact .asks hkey hmodified (hcore.trans h)
  | leaves hkey hmodified h => exact .leaves hkey hmodified (hcore.trans h)
  | declines hkey hanswer h => exact .declines hkey hanswer (hcore.trans h)
  | stays hkey h => exact .stays hkey (hcore.trans h)

/-- **What a key does**, wherever it goes. -/
theorem pressKey_effect (a : App) (key : TerminalKey) (mods : Modifiers) :
    a.KeyEffect key mods (a.pressKey key mods) := by
  unfold pressKey
  split_ifs with hconfirm hmode
  · exact a.confirmKey_effect key mods hconfirm
  · exact (a.normalKey_effect key mods (Bool.eq_false_iff.2 hconfirm) hmode).scrollToCursor
  · refine .works ((a.works_promptKey key mods).trans (works_scrollToCursor _)) ?_
    simp [asksToSave, Bool.eq_false_iff.2 hconfirm, hmode]

/-- drawing fits the view and brings the spans up to date -/
theorem works_render (a : App) (width height : Nat) : a.Works (a.render width height).2 := by
  have hview : a.Works { a with viewHeight := height - 4 } := .of_core rfl
  have hscrolled := hview.trans (works_scrollToCursor _)
  exact hscrolled.trans (.of_op .context rfl rfl)

end App

end CodeEditor
