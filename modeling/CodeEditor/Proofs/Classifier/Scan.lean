import CodeEditor.Classifier
import CodeEditor.Proofs.Pattern.Matches
import CodeEditor.Proofs.Scan.SpanTable
/-!
Classification as a scan.

The matches of a pattern that are not empty are those of a scan from left to right, which tries the pattern at each
place and goes on behind each match (`Regex.filter_allMatches`). If a classifier's pattern matches where one of some
rules does, and the groups of the match tell the kind of the first rule that does, then its spans are the ones that the
rules give in such a scan (`Classifier.classify_eq_scan`).
-/

namespace CodeEditor

namespace Regex

variable {r : Regex} {t : Text}

/-- the matches with characters in them from an offset on, each searched for behind the one before -/
def scanFrom (r : Regex) (t : Text) (offset : Nat) : List Match :=
  if offset ≤ t.length then
    match r.matchIn? t offset with
    | some m => if offset < m.stop then m :: scanFrom r t m.stop else scanFrom r t (offset + 1)
    | none => scanFrom r t (offset + 1)
  else []
termination_by t.length + 1 - offset

theorem scanFrom_of_length_lt {offset : Nat} (h : t.length < offset) : r.scanFrom t offset = [] := by
  rw [scanFrom, if_neg (by omega)]

/-- a search tries an offset, and then the ones behind it -/
theorem find?_eq {offset : Nat} (h : offset ≤ t.length) :
    r.find? t offset =
      match r.matchIn? t offset with
      | some m => some m
      | none => r.find? t (offset + 1) := by
  have hsearch : ∀ x, x ≤ t.length → r.find? t x = r.searchFrom? x (before? t x) (t.drop x) :=
    fun x hx => if_neg (by omega)
  rw [hsearch offset h, searchFrom?_eq]
  cases r.matchIn? t offset with
  | some m => rfl
  | none =>
    dsimp only
    split_ifs with hlt
    · rw [hsearch _ hlt]
    · rw [find?, if_pos (by omega)]

/-- a scan goes on behind the next match -/
theorem scanFrom_eq (r : Regex) (t : Text) (offset : Nat) :
    r.scanFrom t offset =
      match r.find? t offset with
      | some m => if m.isEmpty then r.scanFrom t (m.stop + 1) else m :: r.scanFrom t m.stop
      | none => [] := by
  induction hleft : t.length + 1 - offset using Nat.strong_induction_on generalizing offset with
  | _ left ih =>
    by_cases hlen : offset ≤ t.length
    · rw [scanFrom, if_pos hlen, find?_eq hlen]
      cases hin : r.matchIn? t offset with
      | some m =>
        obtain ⟨hstart, hle, -⟩ := matchIn?_within hin hlen
        have hempty : m.isEmpty = decide (m.stop ≤ m.start) := rfl
        dsimp only
        rw [hempty, hstart]
        by_cases hlt : offset < m.stop
        · rw [if_pos hlt, if_neg (by simpa using hlt)]
        · obtain rfl : m.stop = offset := by omega
          rw [if_neg hlt, if_pos (by simp)]
      | none => exact ih _ (by omega) (offset + 1) rfl
    · rw [scanFrom_of_length_lt (Nat.lt_of_not_le hlen), find?, if_pos (Nat.lt_of_not_le hlen)]

/-- of an empty match nothing is left, and a scan goes on behind its place -/
theorem scanFrom_stop_of_isEmpty {offset : Nat} {m : Match} (h : r.find? t offset = some m)
    (hempty : m.isEmpty = true) :
    r.scanFrom t m.stop = r.scanFrom t (m.stop + 1) := by
  obtain ⟨-, hlen, hin⟩ := find?_eq_some h
  obtain ⟨-, hle, -⟩ := matchIn?_within hin hlen
  have hstop : m.stop = m.start := le_antisymm (of_decide_eq_true hempty) hle
  rw [hstop, scanFrom, if_pos hlen, hin]
  dsimp only
  rw [if_neg (by omega)]

/-- the matches from the next one on, if those behind it are known -/
theorem filter_cons_of_find? {offset : Nat} {m : Match} {ms : List Match} (h : r.find? t offset = some m)
    (hms : ms.filter (!·.isEmpty) = r.scanFrom t m.stop) : (m :: ms).filter (!·.isEmpty) = r.scanFrom t offset := by
  rw [scanFrom_eq r t offset, h]
  dsimp only
  cases hempty : m.isEmpty with
  | true => rw [List.filter_cons_of_neg (by simp [hempty]), hms, if_pos rfl, scanFrom_stop_of_isEmpty h hempty]
  | false => rw [List.filter_cons_of_pos (by simp [hempty]), hms, if_neg Bool.false_ne_true]

/-- the matches with characters in them behind one that ended at `last`. Each match ends behind the one before it, so
`most` matches are enough -/
theorem filter_matchesAfter {last most : Nat} (hlast : last ≤ t.length) (hmost : t.length ≤ last + most) :
    (r.matchesAfter t (some last) most).filter (!·.isEmpty) = r.scanFrom t last := by
  induction most generalizing last with
  | zero =>
    rw [scanFrom_eq]
    cases hfind : r.find? t last with
    | none => rfl
    | some m =>
      obtain ⟨hle, hlen, hin⟩ := find?_eq_some hfind
      obtain ⟨-, hspan, hstop⟩ := matchIn?_within hin hlen
      have hempty : m.isEmpty = true := decide_eq_true (by omega)
      dsimp only
      rw [hempty, if_pos rfl, scanFrom_of_length_lt (by omega)]
      rfl
  | succ most ih =>
    have hbehind : ∀ {offset m}, r.find? t offset = some m → last < m.stop →
        (m :: r.matchesAfter t (some m.stop) most).filter (!·.isEmpty) = r.scanFrom t offset := by
      intro offset m hfind hlt
      obtain ⟨-, hlen, hin⟩ := find?_eq_some hfind
      exact filter_cons_of_find? hfind (ih (matchIn?_within hin hlen).2.2 (by omega))
    rw [matchesAfter, next?]
    dsimp only [Option.getD_some]
    cases hfind : r.find? t last with
    | none =>
      rw [scanFrom_eq, hfind]
      rfl
    | some m =>
      obtain ⟨hle, hlen, hin⟩ := find?_eq_some hfind
      obtain ⟨-, hspan, -⟩ := matchIn?_within hin hlen
      dsimp only
      split_ifs with hskip
      · obtain ⟨hempty, hlast⟩ := Bool.and_eq_true_iff.1 hskip
        obtain rfl := Option.some.inj (beq_iff_eq.1 hlast)
        rw [scanFrom_stop_of_isEmpty hfind hempty]
        cases hnext : r.find? t (m.stop + 1) with
        | none =>
          rw [scanFrom_eq, hnext]
          rfl
        | some m' =>
          obtain ⟨hle', hlen', hin'⟩ := find?_eq_some hnext
          exact hbehind hnext (by have := (matchIn?_within hin' hlen').2.1; omega)
      · refine hbehind hfind ?_
        by_contra hno
        refine hskip (Bool.and_eq_true_iff.2 ⟨decide_eq_true (by omega), beq_iff_eq.2 (congrArg some ?_)⟩)
        omega

/-- **The matches with characters in them are those of a scan.** -/
theorem filter_allMatches (r : Regex) (t : Text) : (r.allMatches t).filter (!·.isEmpty) = r.scanFrom t 0 := by
  rw [allMatches, matchesAfter, next?]
  dsimp only [Option.getD_none]
  cases hfind : r.find? t 0 with
  | none =>
    rw [scanFrom_eq, hfind]
    rfl
  | some m =>
    have hsome : (m.isEmpty && none == some m.stop) = false := Bool.and_false _
    obtain ⟨-, hlen, hin⟩ := find?_eq_some hfind
    simp only [hsome, Bool.false_eq_true, if_false]
    exact filter_cons_of_find? hfind (filter_matchesAfter (matchIn?_within hin hlen).2.2 (Nat.le_add_left _ _))

end Regex

/-- the offsets that a match takes up -/
def Match.place (m : Match) : Nat × Nat :=
  (m.start, m.stop)

/-! ## Rules -/

/-- what a rule alone finds at an offset -/
def Rule.spanAt? [UnicodeClasses] (rule : Rule) (t : Text) (offset : Nat) : Option Span :=
  (Regex.compile? .default rule.pattern).bind fun r => (r.matchIn? t offset).map fun m => ⟨m.start, m.stop, rule.kind⟩

namespace Classifier

/-- what the first of some rules finds that finds anything at an offset -/
def firstSpan? [UnicodeClasses] (rules : List Rule) (t : Text) (offset : Nat) : Option Span :=
  rules.findSome? (·.spanAt? t offset)

/-- the spans that rules give from an offset on: at each place the first rule that matches there decides, and the scan
goes on behind its match; an empty match gives no span -/
def scan [UnicodeClasses] (rules : List Rule) (t : Text) (offset : Nat) : List Span :=
  if offset ≤ t.length then
    match firstSpan? rules t offset with
    | some s => if offset < s.stop then s :: scan rules t s.stop else scan rules t (offset + 1)
    | none => scan rules t (offset + 1)
  else []
termination_by t.length + 1 - offset

/-- the span of a match -/
def spanOf? (c : Classifier) (m : Match) : Option Span :=
  (c.kindOf? m).map fun kind => ⟨m.start, m.stop, kind⟩

/-- the joined pattern finds what the first rule finds, and its groups tell the kind of that rule -/
def Joins [UnicodeClasses] (c : Classifier) (r : Regex) (rules : List Rule) : Prop :=
  ∀ t offset, offset ≤ t.length → (r.matchIn? t offset).map c.spanOf? = (firstSpan? rules t offset).map some

/-- the joined pattern finds something where the first rule does, and it is as long -/
def CoversRules [UnicodeClasses] (r : Regex) (rules : List Rule) : Prop :=
  ∀ t offset, offset ≤ t.length → (r.matchIn? t offset).map Match.place = (firstSpan? rules t offset).map Span.place

variable {c : Classifier} {r : Regex} {rules : List Rule} {t : Text}

/-- what a rule finds starts where it is searched for -/
theorem firstSpan?_start [UnicodeClasses] {offset : Nat} {s : Span} (h : firstSpan? rules t offset = some s) :
    s.start = offset := by
  obtain ⟨rule, -, hspan⟩ := List.exists_of_findSome?_eq_some h
  obtain ⟨r, -, hmatch⟩ := Option.bind_eq_some_iff.1 hspan
  obtain ⟨m, hin, rfl⟩ := Option.map_eq_some_iff.1 hmatch
  obtain ⟨found, -, rfl⟩ := Option.map_eq_some_iff.1 hin
  rfl

/-- the spans of a scan are in order, behind its start -/
theorem apart_scan [UnicodeClasses] (rules : List Rule) (t : Text) (offset : Nat) :
    Spans.Apart (scan rules t offset) ∧ ∀ s ∈ scan rules t offset, offset ≤ s.start := by
  induction hleft : t.length + 1 - offset using Nat.strong_induction_on generalizing offset with
  | _ left ih =>
    have hempty : Spans.Apart [] := ⟨List.forall_mem_nil _, List.Pairwise.nil⟩
    rw [scan]
    split_ifs with hlen
    · have hnext := ih _ (by omega) (offset + 1) rfl
      have hlater : Spans.Apart (scan rules t (offset + 1)) ∧ ∀ s ∈ scan rules t (offset + 1), offset ≤ s.start :=
        ⟨hnext.1, fun s hs => (Nat.le_succ offset).trans (hnext.2 s hs)⟩
      split
      · rename_i s hs
        have hstart := firstSpan?_start hs
        split_ifs with hlt
        · obtain ⟨⟨hnonempty, hpairwise⟩, hbehind⟩ := ih _ (by omega) s.stop rfl
          refine ⟨⟨?_, List.pairwise_cons.2 ⟨hbehind, hpairwise⟩⟩, ?_⟩
          · exact List.forall_mem_cons.2 ⟨hstart.trans_lt hlt, hnonempty⟩
          · exact List.forall_mem_cons.2 ⟨hstart.ge, fun s' hs' => hlt.le.trans (hbehind s' hs')⟩
        · exact hlater
      · exact hlater
    · exact ⟨hempty, List.forall_mem_nil _⟩

theorem spanOf?_eq_some {m : Match} {s : Span} (h : c.spanOf? m = some s) : s.start = m.start ∧ s.stop = m.stop := by
  obtain ⟨kind, -, rfl⟩ := Option.map_eq_some_iff.1 h
  exact ⟨rfl, rfl⟩

/-- if what the pattern finds and what the rules find agree in a view of them that shows where they
end, the two scans do -/
theorem map_scanFrom [UnicodeClasses] {α : Type} {f : Match → α} {g : Span → α}
    (hstop : ∀ m s, f m = g s → m.stop = s.stop)
    (h : ∀ offset, offset ≤ t.length → (r.matchIn? t offset).map f = (firstSpan? rules t offset).map g) (offset : Nat) :
    (r.scanFrom t offset).map f = (scan rules t offset).map g := by
  induction hleft : t.length + 1 - offset using Nat.strong_induction_on generalizing offset with
  | _ left ih =>
    rw [Regex.scanFrom, scan]
    split_ifs with hlen
    · have hsame := h offset hlen
      have hnext := ih _ (by omega) (offset + 1) rfl
      cases hin : r.matchIn? t offset with
      | none =>
        cases hfirst : firstSpan? rules t offset with
        | none => exact hnext
        | some s =>
          rw [hin, hfirst] at hsame
          cases hsame
      | some m =>
        cases hfirst : firstSpan? rules t offset with
        | none =>
          rw [hin, hfirst] at hsame
          cases hsame
        | some s =>
          rw [hin, hfirst] at hsame
          have hview : f m = g s := Option.some.inj hsame
          dsimp only
          rw [hstop m s hview]
          split_ifs with hlt
          · rw [List.map_cons, List.map_cons, hview, ih _ (by omega) s.stop rfl]
          · exact hnext
    · rfl

/-- only the matches with characters in them count -/
theorem classify_eq_ofRanges (hregex : c.regex = some r) (t : Text) :
    c.classify t = .ofRanges ((r.scanFrom t 0).filterMap c.spanOf?) := by
  have hfilter : ((r.allMatches t).filterMap c.spanOf?).filter (fun s => s.start < s.stop) =
      ((r.allMatches t).filter (!·.isEmpty)).filterMap c.spanOf? := by
    rw [List.filter_filterMap, List.filterMap_filter]
    refine List.filterMap_congr fun m _ => ?_
    cases hspan : c.spanOf? m with
    | none => simp
    | some s =>
      obtain ⟨hstart, hstop⟩ := spanOf?_eq_some hspan
      simp [Option.filter, Match.isEmpty, hstart, hstop]
  have hnonempty : ((r.scanFrom t 0).filterMap c.spanOf?).filter (fun s => s.start < s.stop) =
    (r.scanFrom t 0).filterMap c.spanOf? := by
    rw [← Regex.filter_allMatches, ← hfilter, List.filter_filter]
    simp only [Bool.and_self]
  rw [classify, hregex, ← hnonempty, Spans.ofRanges_filter, ← Regex.filter_allMatches, ← hfilter, Spans.ofRanges_filter]
  rfl

/-- **Classification is the scan of the rules**, if the joined pattern finds what the first rule finds. -/
theorem classify_eq_scan [UnicodeClasses] (hregex : c.regex = some r) (h : c.Joins r rules) (t : Text) :
    c.classify t = ⟨scan rules t 0⟩ := by
  have hspans := map_scanFrom (fun m s hspan => (spanOf?_eq_some hspan).2.symm) (h t) 0
  have hscan : (r.scanFrom t 0).filterMap c.spanOf? = scan rules t 0 := by
    calc (r.scanFrom t 0).filterMap c.spanOf? = ((r.scanFrom t 0).map c.spanOf?).filterMap id := by
          rw [List.filterMap_map]; rfl
      _ = ((scan rules t 0).map some).filterMap id := by rw [hspans]
      _ = scan rules t 0 := by rw [List.filterMap_map, Function.id_comp, List.filterMap_some]
  rw [classify_eq_ofRanges hregex, hscan, Spans.ofRanges_of_apart (apart_scan rules t 0).1]

/-- a span covers what its match covers -/
theorem map_place_filterMap_spanOf? (c : Classifier) (ms : List Match) :
    ((ms.filterMap c.spanOf?).map Span.place).Sublist (ms.map Match.place) := by
  induction ms with
  | nil => exact .slnil
  | cons m ms ih =>
    cases hspan : c.spanOf? m with
    | none =>
      rw [List.filterMap_cons_none hspan, List.map_cons]
      exact ih.cons _
    | some s =>
      obtain ⟨hstart, hstop⟩ := spanOf?_eq_some hspan
      have hplace : s.place = m.place := Prod.ext hstart hstop
      rw [List.filterMap_cons_some hspan, List.map_cons, List.map_cons, hplace]
      exact ih.cons_cons _

/-- **Classification covers nothing but what the scan of the rules does**, if the joined pattern matches
where the first rule does. -/
theorem map_place_classify [UnicodeClasses] (hregex : c.regex = some r) (h : CoversRules r rules) (t : Text) :
    ((c.classify t).toList.map Span.place).Sublist ((scan rules t 0).map Span.place) := by
  have hsub := map_place_filterMap_spanOf? c (r.scanFrom t 0)
  rw [map_scanFrom (fun m s hplace => congrArg Prod.snd hplace) (h t) 0] at hsub
  rw [classify_eq_ofRanges hregex, Spans.ofRanges_of_apart ((apart_scan rules t 0).1.of_sublist hsub)]
  exact hsub

end Classifier

end CodeEditor
