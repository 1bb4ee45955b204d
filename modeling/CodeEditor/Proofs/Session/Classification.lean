import CodeEditor.Proofs.Session.Run
/-!
Classification of the text of a session.

The spans of a session are found when they are asked for and kept until the revision moves. Whatever is done to the
session between two questions, the answer is what the classifier says of the present text (`spans_are_of_the_text`): an
operation that changes the text moves the revision (`Buffer.run_advances`), also one that brings an earlier text back,
and every operation but attaching another classifier keeps the one there is (`step_setting`).
-/

namespace CodeEditor.Session

/-- **The spans are those of the text.** A text is opened, a classifier is attached at any time, and any operations
follow: keys, commands, cursor moves, searches, polls, edits of the host in the buffer, undo and redo, and earlier
questions for the spans. The spans that the session then answers with are those the classifier finds in the text of that
moment, and asking changes nothing of the buffer. -/
theorem spans_are_of_the_text (t : Text) (l : Language) (c : Config) (before after : List Op) (classify : Text → Spans)
    (hafter : ∀ op ∈ after, op.keepsClassifier = true) :
    let s := (((ofText t l c).run before).withClassifier classify).run after
    s.sync.spans = classify s.text ∧ s.sync.buffer = s.buffer := by
  intro s
  have hopened : ((ofText t l c).run before).Sound := run_sound (sound_ofText t l c) before
  have hattached : (((ofText t l c).run before).withClassifier classify).Sound := step_sound hopened (.attach classify)
  have hs : s.Sound := run_sound hattached after
  have hclassifier : s.classifier = some classify := run_classifier hattached hafter
  exact ⟨hs.sync_spans hclassifier, s.sync_buffer⟩

/-- a classifier that takes the whole text for a comment -/
def wholeComment (t : Text) : Spans :=
  .ofRanges [⟨0, t.length, .comment⟩]

/-- the text `a`, classified, a letter typed, classified again, and the letter taken back: the text is the first one
again, its revision is not, and the spans are found anew -/
theorem spans_follow_undo :
    let after := [Op.context, .command (.press (.char 'b') .none), .context, .buffer .undo]
    let s := (((ofText ['a'] .plain .default).run []).withClassifier wholeComment).run after
    ((∀ op ∈ after, op.keepsClassifier = true) ∧ s.text = ['a'] ∧ s.spans = wholeComment ['b', 'a']) ∧
      s.sync.spans = wholeComment ['a'] ∧ s.sync.buffer = s.buffer := by
  intro after s
  have hafter : ∀ op ∈ after, op.keepsClassifier = true := by decide
  have htext : s.text = ['a'] := by decide
  have hfresh := spans_are_of_the_text ['a'] .plain .default [] after wholeComment hafter
  exact ⟨⟨hafter, htext, by cbv⟩, hfresh⟩

end CodeEditor.Session
