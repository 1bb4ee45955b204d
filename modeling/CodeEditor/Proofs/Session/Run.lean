import CodeEditor.Proofs.Session.Commands
/-!
Runs of a session.

`Session.Op` lists what a host can do with a session: the commands that may edit the text, the other methods, and every
operation of the buffer, which the host can reach directly. A session is *reachable* if such a run leads to it from a
freshly opened text. Of every reachable session (`Sound`, `run_sound`) it holds that

* its buffer is the result of a run of buffer operations from a fresh buffer, so what holds of those holds of it;
* comment and string spans found in the present revision are those of the present text.

No operation changes the language, only one of them the classifier (`step_setting`), and only polls
the timer (`step_frame`).
-/

namespace CodeEditor

namespace Session

/-- the operations of a session -/
inductive Op where
  | command (c : Command)
  | handle (key : Key) (mods : Modifiers)
  | attach (classify : Text → Spans)
  /-- ask for the spans of the text -/
  | context
  | setUnit (ch : Char) (width : Nat)
  | inferUnit
  | selectWord
  | placeAtLine (line column : Nat)
  | placeAt (p : Position)
  | setSearch (t : Text) (options : SearchOptions)
  | searchForward
  | searchBackward
  | matchingBracket
  | poll (now : Nat)
  | buffer (op : Buffer.Op)

/-- one operation; one that fails changes nothing -/
def step (s : Session) : Op → Session
  | .command c => s.execute c
  | .handle key mods => (s.handleKey key mods).2
  | .attach classify => s.withClassifier classify
  | .context => s.sync
  | .setUnit ch width => (((IndentUnit.make ch width).toOption).map fun unit => { s with unit }).getD s
  | .inferUnit => s.inferUnit.2
  | .selectWord => s.selectWord
  | .placeAtLine line column => s.placeAtLine line column
  | .placeAt p => (s.placeAt p).toOption.getD s
  | .setSearch t options => (((s.setSearch t options).toOption).map Prod.snd).getD s
  | .searchForward => s.searchForward.2
  | .searchBackward => s.searchBackward.2
  | .matchingBracket => s.matchingBracket.2
  | .poll now => (s.poll now).2
  | .buffer op => s.mapBuffer (·.step op)

/-- a run of operations -/
def run (s : Session) (ops : List Op) : Session :=
  ops.foldl step s

/-- a run leads to the session from a freshly opened text -/
def Reachable (s : Session) : Prop :=
  ∃ t l c ops, (ofText t l c).run ops = s

/-! ## What holds of every reachable session -/

/-- **The invariant** of a session -/
structure Sound (s : Session) : Prop where
  buffer : s.buffer.Reachable
  /-- spans found in this revision are those of the text -/
  fresh : ∀ f r, s.classifier = some f → s.classified = some r →
    r ≤ s.buffer.revision ∧ (r = s.buffer.revision → s.spans = f s.text)

theorem sound_ofText (t : Text) (l : Language) (c : Config) : Sound (ofText t l c) where
  buffer := ⟨t.normalizeNewlines, [], rfl⟩
  fresh := fun f r h => by cases h

/-- after `sync` the spans are those of the text -/
theorem Sound.sync_spans {s : Session} (h : s.Sound) {f : Text → Spans} (hf : s.classifier = some f) :
    s.sync.spans = f s.text := by
  unfold sync
  rw [hf]
  dsimp only
  split_ifs with hrev
  · exact (h.fresh f _ hf hrev).2 rfl
  · rfl

/-- finding the spans again changes the spans, and the revision they are of -/
theorem sync_eq (s : Session) : ∃ spans classified, s.sync = { s with spans, classified } := by
  unfold sync
  split
  · exact ⟨_, _, rfl⟩
  · split_ifs <;> exact ⟨_, _, rfl⟩

theorem sync_unit (s : Session) : s.sync.unit = s.unit := by
  obtain ⟨_, _, hsync⟩ := s.sync_eq
  rw [hsync]

theorem sync_classifier (s : Session) : s.sync.classifier = s.classifier := by
  obtain ⟨_, _, hsync⟩ := s.sync_eq
  rw [hsync]

theorem sync_language (s : Session) : s.sync.language = s.language := by
  obtain ⟨_, _, hsync⟩ := s.sync_eq
  rw [hsync]

theorem Sound.sync {s : Session} (h : s.Sound) : s.sync.Sound where
  buffer := by rw [sync_buffer]; exact h.buffer
  fresh := by
    intro f r hf hr
    rw [sync_classifier] at hf
    have htext : s.sync.text = s.text := by rw [text, sync_buffer]; rfl
    rw [sync_buffer, htext]
    refine ⟨?_, fun _ => h.sync_spans hf⟩
    unfold Session.sync at hr
    rw [hf] at hr
    dsimp only at hr
    split_ifs at hr
    · exact (h.fresh f r hf hr).1
    · cases hr; exact le_rfl

theorem Sound.runs {s : Session} (h : s.Sound) {b : Buffer} (hb : s.buffer.Runs b) : Sound { s with buffer := b } := by
  obtain ⟨ops, rfl⟩ := hb
  obtain ⟨hle, htext⟩ := Buffer.run_advances h.buffer ops
  refine ⟨h.buffer.run ops, fun f r hf hr => ?_⟩
  obtain ⟨hr', hspans⟩ := h.fresh f r hf hr
  refine ⟨hr'.trans hle, fun heq => ?_⟩
  -- the revision did not move, so neither did the text
  have heq' : r = (s.buffer.run ops).revision := heq
  rw [show ({ s with buffer := s.buffer.run ops } : Session).text = s.text from htext (by omega)]
  exact hspans (by omega)

theorem Sound.affects {s s' : Session} (h : s.Sound) (hs : s.Affects s') : s'.Sound := by
  obtain ⟨b, rfl | rfl, hb, -⟩ := hs
  · exact h.runs hb
  · exact h.sync.runs (by rw [sync_buffer]; exact hb)

theorem Sound.acts {s : Session} (h : s.Sound) {b : Buffer} (hb : s.buffer.Acts b) : Sound { s with buffer := b } :=
  h.runs hb.runs

theorem Sound.placeAtLine {s : Session} (h : s.Sound) (line column : Nat) : (s.placeAtLine line column).Sound :=
  h.acts (Buffer.acts_placeCursor _ _)

theorem Sound.selectFound {s : Session} (h : s.Sound) (found : Option Occurrence) : (s.selectFound found).2.Sound := by
  unfold Session.selectFound
  split
  · exact h
  · exact h.acts (Buffer.acts_select _ _ _)

theorem Sound.poll {s : Session} (h : s.Sound) (now : Nat) : (s.poll now).2.Sound := by
  have hidle : ∀ idle, Sound { s with idle } := fun idle => ⟨h.buffer, h.fresh⟩
  unfold Session.poll
  dsimp only
  split_ifs
  · exact ⟨h.buffer, h.fresh⟩
  · exact (hidle _).sync
  · exact hidle _

theorem step_sound {s : Session} (h : s.Sound) (op : Op) : (s.step op).Sound := by
  cases op with
  | command c => exact h.affects (execute_affects h.buffer.within c)
  | handle key mods => exact h.affects (handleKey_affects h.buffer.within key mods)
  | attach classify => exact ⟨h.buffer, fun f r _ hr => by cases hr⟩
  | context => exact h.sync
  | setUnit ch width =>
    cases hmake : IndentUnit.make ch width with
    | error e => simp only [step, hmake]; exact h
    | ok unit => simp only [step, hmake]; exact ⟨h.buffer, h.fresh⟩
  | inferUnit =>
    simp only [step, inferUnit]
    split
    · exact h
    · exact ⟨h.buffer, h.fresh⟩
  | selectWord => exact h.acts (Buffer.acts_select _ _ _)
  | placeAtLine line column => exact h.placeAtLine line column
  | placeAt p =>
    simp only [step, placeAt]
    split_ifs
    · exact h
    · exact h.placeAtLine _ _
  | setSearch t options =>
    simp only [step, setSearch]
    split_ifs
    · exact ⟨h.buffer, h.fresh⟩
    · split
      · exact h
      · exact ⟨h.buffer, h.fresh⟩
  | searchForward => exact h.selectFound _
  | searchBackward => exact h.selectFound _
  | matchingBracket => exact h.sync
  | poll now => exact h.poll now
  | buffer op => exact h.runs (.step _ op)

theorem run_sound {s : Session} (h : s.Sound) (ops : List Op) : (s.run ops).Sound := by
  induction ops generalizing s with
  | nil => exact h
  | cons op ops ih => exact ih (step_sound h op)

theorem Reachable.sound {s : Session} (h : s.Reachable) : s.Sound := by
  obtain ⟨t, l, c, ops, rfl⟩ := h
  exact run_sound (sound_ofText t l c) ops

/-! ## What no operation changes -/

/-- the operation attaches no classifier -/
def Op.keepsClassifier : Op → Bool
  | .attach _ => false
  | _ => true

/-- the reading of the clock, if the operation is a poll -/
def Op.pollAt? : Op → Option Nat
  | .poll now => some now
  | _ => none

/-- the two sessions have the same language and the same classifier -/
structure SameSetting (s s' : Session) : Prop where
  language : s'.language = s.language
  classifier : s'.classifier = s.classifier

/-- and the same timer, and what the last poll saw -/
structure SameFrame (s s' : Session) : Prop extends SameSetting s s' where
  idle : s'.idle = s.idle
  polled : s'.polled = s.polled

section

variable {s s' : Session}

theorem sync_frame (s : Session) : s.SameFrame s.sync := by
  obtain ⟨_, _, hsync⟩ := s.sync_eq
  rw [hsync]
  exact ⟨⟨rfl, rfl⟩, rfl, rfl⟩

theorem Affects.frame (h : s.Affects s') : s.SameFrame s' := by
  obtain ⟨b, rfl | rfl, -⟩ := h
  · exact ⟨⟨rfl, rfl⟩, rfl, rfl⟩
  · obtain ⟨hsetting, hidle, hpolled⟩ := s.sync_frame
    exact ⟨⟨hsetting.language, hsetting.classifier⟩, hidle, hpolled⟩

theorem selectFound_frame (s : Session) (found : Option Occurrence) : s.SameFrame (s.selectFound found).2 := by
  unfold selectFound
  split <;> exact ⟨⟨rfl, rfl⟩, rfl, rfl⟩

theorem poll_setting (s : Session) (now : Nat) : s.SameSetting (s.poll now).2 := by
  unfold poll
  dsimp only
  split_ifs
  · exact ⟨rfl, rfl⟩
  · exact ⟨sync_language _, sync_classifier _⟩
  · exact ⟨rfl, rfl⟩

/-- **One operation** touches the text, the unit, the spans and the search at most, unless it attaches
a classifier or polls. -/
theorem step_frame (hs : s.Sound) {op : Op} (hop : op.keepsClassifier = true) (hpoll : op.pollAt? = none) :
    s.SameFrame (s.step op) := by
  cases op with
  | command c => exact (execute_affects hs.buffer.within c).frame
  | handle key mods => exact (handleKey_affects hs.buffer.within key mods).frame
  | attach classify => cases hop
  | context => exact s.sync_frame
  | setUnit ch width =>
    simp only [step]
    cases IndentUnit.make ch width <;> exact ⟨⟨rfl, rfl⟩, rfl, rfl⟩
  | inferUnit =>
    simp only [step, inferUnit]
    split <;> exact ⟨⟨rfl, rfl⟩, rfl, rfl⟩
  | selectWord => exact ⟨⟨rfl, rfl⟩, rfl, rfl⟩
  | placeAtLine line column => exact ⟨⟨rfl, rfl⟩, rfl, rfl⟩
  | placeAt p =>
    simp only [step, placeAt]
    split_ifs <;> exact ⟨⟨rfl, rfl⟩, rfl, rfl⟩
  | setSearch t options =>
    simp only [step, setSearch]
    split_ifs
    · exact ⟨⟨rfl, rfl⟩, rfl, rfl⟩
    · split <;> exact ⟨⟨rfl, rfl⟩, rfl, rfl⟩
  | searchForward => exact s.selectFound_frame _
  | searchBackward => exact s.selectFound_frame _
  | matchingBracket => exact s.sync_frame
  | poll now => cases hpoll
  | buffer op => exact ⟨⟨rfl, rfl⟩, rfl, rfl⟩

/-- **One operation** keeps the language, and the classifier unless it attaches one. -/
theorem step_setting (hs : s.Sound) {op : Op} (hop : op.keepsClassifier = true) : s.SameSetting (s.step op) := by
  cases hpoll : op.pollAt? with
  | none => exact (step_frame hs hop hpoll).toSameSetting
  | some now =>
    cases op with
    | poll now => exact s.poll_setting now
    | _ => cases hpoll

theorem step_language (hs : s.Sound) (op : Op) : (s.step op).language = s.language := by
  cases hop : op.keepsClassifier with
  | true => exact (step_setting hs hop).language
  | false =>
    cases op with
    | attach classify => rfl
    | _ => cases hop

/-- **A run of operations** that attach no classifier keeps the one there is. -/
theorem run_classifier (hs : s.Sound) {ops : List Op} (hops : ∀ op ∈ ops, op.keepsClassifier = true) :
    (s.run ops).classifier = s.classifier := by
  induction ops generalizing s with
  | nil => rfl
  | cons op ops ih =>
    have hrest := ih (step_sound hs op) fun op' hop' => hops op' (List.mem_cons_of_mem op hop')
    have hstep := (step_setting hs (hops op List.mem_cons_self)).classifier
    exact hrest.trans hstep

end

/-! ## One command, one step -/

/-- **A command is one step.** In a session without an open group, a command that makes no edit leaves the text,
the revision and the history as they were. One that edits leaves exactly one new step on the stack of steps to
undo (which forgets its oldest beyond the limit), nothing to redo and no open group, and one undo brings back
the text and both marks. -/
theorem command_is_one_step (s : Session) (c : Command) (hs : s.Reachable) (hgroup : s.buffer.inGroup = false) :
    let b := s.buffer
    let b' := (s.execute c).buffer
    (b'.text = b.text ∧ b'.revision = b.revision ∧ b'.history = b.history) ∨
      (b.revision < b'.revision ∧ b'.inGroup = false ∧ b'.history.redoStack = [] ∧
        (∃ step, b'.history.undoStack = (step :: b.history.undoStack).take History.limit) ∧
        ∃ d, b'.undo? = some d ∧ d.text = b.text ∧ d.marks = b.marks) := by
  intro b b'
  have hb : b.Reachable := hs.sound.buffer
  obtain ⟨d, hd, -, hone⟩ := execute_affects hb.within c
  have hb' : b' = d := by rcases hd with hd | hd <;> simp only [b', hd]
  have hidle : b.Idle := hb.idle hgroup
  rw [hb']
  rcases (hone hidle hb.within).cases hidle with hno | ⟨hrev, hclosed, hredo, hundo, e, he, hmoment⟩
  · exact Or.inl hno
  · exact Or.inr ⟨hrev, hclosed, hredo, hundo, e, he, congrArg Moment.text hmoment, congrArg Moment.marks hmoment⟩

/-- Enter behind an opening brace, in a fresh session: three edits, one step -/
theorem enter_is_one_step :
    let s := (ofText "if (a) \x7b".toList (.ofId (some "rust")) .default).run [.buffer (.placeCursor 8)]
    (s.Reachable ∧ s.buffer.inGroup = false) ∧
      let b := s.buffer
      let b' := (s.execute (.press .enter .none)).buffer
      (b'.text = b.text ∧ b'.revision = b.revision ∧ b'.history = b.history) ∨
        (b.revision < b'.revision ∧ b'.inGroup = false ∧ b'.history.redoStack = [] ∧
          (∃ step, b'.history.undoStack = (step :: b.history.undoStack).take History.limit) ∧
          ∃ d, b'.undo? = some d ∧ d.text = b.text ∧ d.marks = b.marks) := by
  intro s
  have hs : s.Reachable := ⟨_, _, _, _, rfl⟩
  have hgroup : s.buffer.inGroup = false := rfl
  exact ⟨⟨hs, hgroup⟩, command_is_one_step s (.press .enter .none) hs hgroup⟩

end Session

end CodeEditor
