import CodeEditor.Proofs.Buffer.Cleanup
import CodeEditor.Session.Basic
/-!
Opening a text, saving it, and opening what was saved.

What is saved is the text with LF line ends, cleaned if configured, written with the ending that was detected when it
was opened (`prepareForSave_ofText`). Three loops meet here: the one that normalises line ends, the search for a CR LF,
and the one that writes line ends. They undo each other on a text with one kind of line ends
(`LineEnding.write_detect_normalizeNewlines`), and whatever is written has one kind (`LineEnding.write_detect_write`),
so from the first save on nothing changes any more.
-/

namespace CodeEditor.Session

open Text

/-- the text with LF line ends that a session opened with a text saves -/
def savedLines (t : Text) (c : Config) : Text :=
  if c.cleanupOnSave then t.normalizeNewlines.cleaned else t.normalizeNewlines

theorem normal_savedLines (t : Text) (c : Config) : (savedLines t c).Normal := by
  unfold savedLines
  split_ifs
  · exact (normal_normalizeNewlines t).cleaned
  · exact normal_normalizeNewlines t

/-- **What is saved** of a text that was opened. -/
theorem prepareForSave_ofText (t : Text) (l : Language) (c : Config) :
    (ofText t l c).prepareForSave.1 = (LineEnding.detect t).write (savedLines t c) := by
  have hcleaned : (ofText t l c).cleanup.2.text = t.normalizeNewlines.cleaned :=
    (Buffer.cleanup_eq (b := (ofText t l c).buffer.openGroup) (normal_normalizeNewlines t)).2
  unfold savedLines
  cases hcleanup : c.cleanupOnSave with
  | false =>
    have hconfig : (ofText t l c).config.cleanupOnSave = false := hcleanup
    rw [prepareForSave, hconfig]
    rfl
  | true =>
    have hconfig : (ofText t l c).config.cleanupOnSave = true := hcleanup
    rw [prepareForSave, hconfig]
    exact congrArg (LineEnding.detect t).write hcleaned

/-- **Opening and saving keeps uniform texts.** Without cleanup, a text without CR, or with each CR before an LF and
each LF behind a CR, is saved as it was opened. And whatever text is opened, what is saved of it is saved as it is when
it is opened again, in any language, and with any configuration that does not clean where the first one did not. -/
theorem saving_keeps_uniform_text (t : Text) (l : Language) (c : Config) :
    (c.cleanupOnSave = false → t.Normal ∨ t.CrlfOnly → (ofText t l c).prepareForSave.1 = t) ∧
      ∀ l' d, (d.cleanupOnSave = true → c.cleanupOnSave = true) →
        let saved := (ofText t l c).prepareForSave.1
        (ofText saved l' d).prepareForSave.1 = saved := by
  refine ⟨fun hcleanup huniform => ?_, fun l' d hcleanup => ?_⟩
  · rw [prepareForSave_ofText, savedLines, hcleanup]
    exact LineEnding.write_detect_normalizeNewlines huniform
  · intro saved
    have hnormal := normal_savedLines t c
    have hsaved : saved = (LineEnding.detect t).write (savedLines t c) := prepareForSave_ofText t l c
    have hlines : savedLines saved d = savedLines t c := by
      rw [savedLines, hsaved, LineEnding.normalizeNewlines_write _ hnormal]
      split_ifs with hd
      · -- what was cleaned is clean
        rw [savedLines, if_pos (hcleanup hd)]
        exact (normal_normalizeNewlines t).cleaned_cleaned
      · rfl
    rw [prepareForSave_ofText, hlines, hsaved]
    exact LineEnding.write_detect_write _ hnormal

/-- a CR LF text, saved as it is; and CR, CR LF, LF and a CR at the end in one text, which becomes a CR LF text, with
its blanks and without -/
theorem crlf_text_is_kept :
    let crlf : Text := "a\r\n\r\nb".toList
    let mixed : Text := "a \r\r\nb\nc\r".toList
    let cleaning : Config := { Config.default with cleanupOnSave := true }
    (crlf.CrlfOnly ∧ (ofText crlf .plain .default).prepareForSave.1 = crlf) ∧
      (ofText mixed .plain .default).prepareForSave.1 = "a \r\n\r\nb\r\nc\r\n".toList ∧
      (ofText "a \r\n\r\nb\r\nc\r\n".toList .plain .default).prepareForSave.1 = "a \r\n\r\nb\r\nc\r\n".toList ∧
      (ofText mixed .plain cleaning).prepareForSave.1 = "a\r\n\r\nb\r\nc\r\n".toList ∧
      (ofText "a\r\n\r\nb\r\nc\r\n".toList .plain cleaning).prepareForSave.1 = "a\r\n\r\nb\r\nc\r\n".toList := by
  intro crlf mixed cleaning
  have huniform : crlf.CrlfOnly := by decide
  have hmixed : (ofText mixed .plain .default).prepareForSave.1 = "a \r\n\r\nb\r\nc\r\n".toList := by decide
  have hcleaned : (ofText mixed .plain cleaning).prepareForSave.1 = "a\r\n\r\nb\r\nc\r\n".toList := by decide
  have hsaved := (saving_keeps_uniform_text crlf .plain .default).1 rfl (.inr huniform)
  have hagain := (saving_keeps_uniform_text mixed .plain .default).2 .plain .default id
  have hclean := (saving_keeps_uniform_text mixed .plain cleaning).2 .plain cleaning id
  rw [hmixed] at hagain
  rw [hcleaned] at hclean
  exact ⟨⟨huniform, hsaved⟩, hmixed, hagain, hcleaned, hclean⟩

end CodeEditor.Session
