import CodeEditor.Proofs.Terminal.Run
import CodeEditor.Proofs.Session.Idle
/-!
The pair of braces shown.

The editor keeps the pair that a poll has found, with the cursor and the revision it was found at, and so does the
session with its timer. The pair that is kept is the one of its cursor in the text of its revision (`Fresh`), whatever
happens in between: in the same revision the text is the same, and so are its spans. A poll drops a pair whose cursor or
revision is not the present one, so what is shown right after a poll is right (`pair_is_fresh_after_poll`).
-/

namespace CodeEditor

namespace Session

/-- the pair of braces that is reported with the cursor at an offset -/
def pairNear (s : Session) (cursor : Nat) : Option (Nat × Nat) :=
  let pairAt (offset : Nat) := (s.sync.partnerAt? offset).map fun partner => (offset, partner)
  pairAt cursor <|> (if cursor = 0 then none else pairAt (cursor - 1))

/-- the pair at an offset depends on the text and its spans only -/
theorem pairNear_congr {s s' : Session} (htext : s'.text = s.text) (hspans : s'.sync.spans = s.sync.spans)
    (cursor : Nat) :
    s'.pairNear cursor = s.pairNear cursor := by
  have hsync : s'.sync.text = s.sync.text := by
    rw [text, text, sync_buffer, sync_buffer]
    exact htext
  have hsame : ∀ offset, s'.sync.partnerAt? offset = s.sync.partnerAt? offset := by
    intro offset
    unfold partnerAt?
    rw [hsync, hspans]
  unfold pairNear
  simp only [hsame]

/-- the pair that a session reports is the one at its cursor -/
theorem matchingBracket_eq_pairNear (s : Session) : s.matchingBracket.1 = s.pairNear s.buffer.cursor := by
  rw [← s.sync_buffer]
  rfl

/-- what a poll of the session reports is the pair of braces at the cursor -/
theorem poll_eq_some {s : Session} {now : Nat} {pair : Nat × Nat} (h : (s.poll now).1 = some pair) :
    s.pairNear s.buffer.cursor = some pair := by
  have hfound : (Poll.mk now s).found = some pair := h
  rw [Poll.found_eq] at hfound
  split_ifs at hfound
  rw [← matchingBracket_eq_pairNear]
  exact hfound

end Session

namespace App

/-- **The invariant**: the pair kept belongs to the cursor of the last poll, and is right in the
revision of the last poll -/
structure Fresh (a : App) : Prop where
  sound : a.session.Sound
  seen : ∀ cursor revision, a.polled = some (cursor, revision) → revision ≤ a.session.buffer.revision
  pair : ∀ pair, a.bracketPair = some pair → ∃ cursor revision, a.polled = some (cursor, revision) ∧
    (revision = a.session.buffer.revision → a.session.pairNear cursor = some pair)

theorem fresh_ofFile (file : File) (document : Option (Except Error Text)) : (ofFile file document).Fresh where
  sound := sound_ofFile file document
  seen := fun _ _ h => nomatch h
  pair := fun _ h => nomatch h

section

variable {a b : App}

/-- working on the session keeps the pair right: its revision is over, or text and spans are the same -/
theorem Fresh.continues (h : a.Fresh) (hsession : a.session.Continues b.session) (hpair : b.bracketPair = a.bracketPair)
    (hpolled : b.polled = a.polled) : b.Fresh := by
  obtain ⟨hle, htext⟩ := hsession.advances h.sound
  refine ⟨hsession.sound h.sound, fun cursor revision hp => ?_, fun pair hb => ?_⟩
  · exact (h.seen cursor revision (hpolled ▸ hp)).trans hle
  · obtain ⟨cursor, revision, hp, hright⟩ := h.pair pair (hpair ▸ hb)
    refine ⟨cursor, revision, hpolled.trans hp, fun hrev => ?_⟩
    have hseen := h.seen cursor revision hp
    have hsame : b.session.buffer.revision = a.session.buffer.revision := by omega
    have hspans := hsession.sync_spans h.sound hsame
    rw [Session.pairNear_congr (htext hsame) hspans]
    exact hright (by omega)

theorem Fresh.works (h : a.Fresh) (hb : a.Works b) : b.Fresh := by
  obtain ⟨s, hs, hcore⟩ := hb
  obtain rfl : b.session = s := congrArg Core.session hcore
  exact h.continues hs (congrArg Core.bracketPair hcore) (congrArg Core.polled hcore)

theorem Fresh.pressKey (h : a.Fresh) (key : TerminalKey) (mods : Modifiers) : (a.pressKey key mods).Fresh := by
  have hsaved : a.session.Continues a.session.prepareForSave.2 := .op _ (.command .prepareForSave) rfl
  have hcore : ∀ {b : App} {c : Core}, b.core = c → a.session.Continues c.session → c.bracketPair = a.bracketPair →
      c.polled = a.polled → b.Fresh := by
    rintro b c rfl hsession hpair hpolled
    exact h.continues hsession hpair hpolled
  cases a.pressKey_effect key mods with
  | works hb => exact h.works hb
  | saves _ _ hb => exact hcore hb hsaved rfl rfl
  | fails _ _ hb => exact hcore hb hsaved rfl rfl
  | asks _ _ hb => exact hcore hb (.refl _) rfl rfl
  | leaves _ _ hb => exact hcore hb (.refl _) rfl rfl
  | declines _ _ hb => exact hcore hb (.refl _) rfl rfl
  | stays _ hb => exact hcore hb (.refl _) rfl rfl

/-- the state that a poll looks at -/
def state (a : App) : Nat × Nat :=
  (a.session.buffer.cursor, a.session.buffer.revision)

/-- a poll notes the present state, and keeps a pair only if it was found at this state or is found now -/
theorem poll_eq (a : App) (now : Nat) :
    (a.poll now).polled = some a.state ∧ (a.poll now).session = (a.session.poll now).2 ∧
      (a.poll now).bracketPair = ((a.session.poll now).1 <|> if a.polled = some a.state then a.bracketPair
        else none) := by
  rw [state]
  unfold poll
  dsimp only
  by_cases hseen : a.polled = some (a.session.buffer.cursor, a.session.buffer.revision)
  · rw [if_pos hseen, if_pos hseen]
    exact ⟨hseen, rfl, rfl⟩
  · rw [if_neg hseen, if_neg hseen]
    exact ⟨rfl, rfl, rfl⟩

/-- **A poll keeps the pair right**, and what it leaves is the pair at the cursor. -/
theorem Fresh.poll (h : a.Fresh) (now : Nat) :
    (a.poll now).Fresh ∧ ∀ pair, (a.poll now).bracketPair = some pair →
    (a.poll now).session.matchingBracket.1 = some pair := by
  obtain ⟨hpolled, hsession, hkept⟩ := a.poll_eq now
  have hcontinues : a.session.Continues (a.poll now).session := hsession ▸ .op _ (.poll now) rfl
  have hmarks : (a.poll now).session.buffer = a.session.buffer := by rw [hsession, Session.poll_buffer]
  have hspans := hcontinues.sync_spans h.sound (by rw [hmarks])
  have htext : (a.poll now).session.text = a.session.text := congrArg Buffer.text hmarks
  -- whichever way the pair came, it is the one at the cursor
  have hright : ∀ pair, (a.poll now).bracketPair = some pair →
    a.session.pairNear a.session.buffer.cursor = some pair := by
    intro pair hpair
    rw [hkept] at hpair
    cases hfound : (a.session.poll now).1 with
    | some found =>
      rw [hfound] at hpair
      obtain rfl : found = pair := Option.some.inj hpair
      exact Session.poll_eq_some hfound
    | none =>
      rw [hfound] at hpair
      have hpair' : (if a.polled = some a.state then a.bracketPair else none) = some pair := hpair
      split_ifs at hpair' with hseen
      obtain ⟨cursor, revision, hp, hold⟩ := h.pair pair hpair'
      rw [hseen] at hp
      cases hp
      exact hold rfl
  refine ⟨⟨hcontinues.sound h.sound, fun cursor revision hp => ?_, fun pair hpair => ?_⟩, fun pair hpair => ?_⟩
  · rw [hpolled] at hp
    cases hp
    rw [hmarks]
  · refine ⟨_, _, hpolled, fun _ => ?_⟩
    rw [Session.pairNear_congr htext hspans]
    exact hright pair hpair
  · rw [Session.matchingBracket_eq_pairNear, Session.pairNear_congr htext hspans, hmarks]
    exact hright pair hpair

/-- **One thing happens**, and the pair kept is still right. -/
theorem Fresh.happen (h : a.Fresh) (x : Happening) : (a.happen x).Fresh := by
  cases x with
  | event e =>
    cases e with
    | press key mods => exact h.pressKey key mods
    | paste t => exact h.works (a.works_paste t)
    | poll now => exact (h.poll now).1
    | render width height => exact h.works (a.works_render width height)
  | release key mods => exact h
  | disk content refusal => exact ⟨h.sound, h.seen, h.pair⟩

theorem Fresh.happenAll (h : a.Fresh) (hs : List Happening) : (a.happenAll hs).Fresh := by
  induction hs generalizing a with
  | nil => exact h
  | cons x hs ih => exact ih (h.happen x)

end

/-- **The pair of braces shown is fresh after a poll.** A file is opened and anything happens: keys, pastes, drawing,
changes on disk, and polls with any readings of the clock. Right after a poll no pair is kept, or the one that the
session reports for the present text and cursor. -/
theorem pair_is_fresh_after_poll (file : File) (document : Option (Except Error Text)) (before : List Happening)
    (now : Nat) :
    let a := ((ofFile file document).happenAll before).poll now
    a.bracketPair = none ∨ a.bracketPair = a.session.matchingBracket.1 := by
  intro a
  have hfresh : ((ofFile file document).happenAll before).Fresh := (fresh_ofFile file document).happenAll before
  cases hpair : a.bracketPair with
  | none => exact Or.inl rfl
  | some pair => exact Or.inr ((hfresh.poll now).2 pair hpair).symm

/-- a pair found outlives polls, a key that moves the cursor away, and is gone after the poll behind that -/
example :
    let start := ofFile ⟨"a".toList, some "{}".toList, none⟩ none
    let waited := start.happenAll [.event (.poll 0), .event (.poll 500)]
    let moved := waited.happenAll [.event (.press (.key .stop) .none)]
    waited.bracketPair = some (0, 1) ∧ moved.bracketPair = some (0, 1) ∧ (moved.poll 500).bracketPair = none := by
  decide

end App

end CodeEditor
