import CodeEditor.Proofs.Search.ReplaceAll
import Mathlib.Data.List.Rotate
/-!
Going from one occurrence to the next.

The occurrences of a search follow one another, and none of them is empty (`spaced_findAll`). So the first one that
starts at the end of an occurrence or behind it is the next one, the last one that ends at its start or before is the
one before, and at either end of the text the search goes around (`findForward?_stop`, `findBackward?_start`). Going
forward from anywhere visits them all, each once, in the order of the text, and going back undoes going forward
(`search_visits_every_occurrence`).
-/

namespace CodeEditor

/-- none of the stretches is empty, and each ends before the next one starts -/
structure Occurrence.Spaced (found : List Occurrence) : Prop where
  start_lt_stop : ∀ o ∈ found, o.start < o.stop
  apart : found.Pairwise fun o o' => o.stop ≤ o'.start

namespace Occurrence.Spaced

variable {found : List Occurrence} (h : Spaced found)
include h

theorem stop_le_start {i j : Nat} (hij : i < j) (hj : j < found.length) : found[i].stop ≤ found[j].start :=
  List.pairwise_iff_getElem.1 h.apart i j (hij.trans hj) hj hij

theorem start_le_start {i j : Nat} (hij : i ≤ j) (hj : j < found.length) : found[i].start ≤ found[j].start := by
  rcases hij.eq_or_lt with rfl | hlt
  · exact le_rfl
  · exact (h.start_lt_stop _ (List.getElem_mem _)).le.trans (h.stop_le_start hlt hj)

theorem nodup : found.Nodup := by
  refine List.pairwise_iff_getElem.2 fun i j hi hj hij heq => ?_
  have hstop := h.stop_le_start hij hj
  have hpos := h.start_lt_stop _ (List.getElem_mem hi)
  rw [← heq] at hstop
  omega

/-- behind the `i`-th stretch comes the next one -/
theorem findIdx_stop {i : Nat} (hi : i < found.length) : found.findIdx (found[i].stop ≤ ·.start) = i + 1 := by
  have hbefore : ∀ j (hj : j < i + 1) (_ : j < found.length), decide (found[i].stop ≤ found[j].start) = false := by
    intro j hj _
    have hle := h.start_le_start (Nat.le_of_lt_succ hj) hi
    have hlt := h.start_lt_stop _ (List.getElem_mem hi)
    exact decide_eq_false (by omega)
  rcases Nat.lt_or_ge (i + 1) found.length with hnext | hlast
  · exact (List.findIdx_eq hnext).2
      ⟨decide_eq_true (h.stop_le_start (Nat.lt_succ_self i) hnext), fun j hj => hbefore j hj (by omega)⟩
  · have hlen : found.length = i + 1 := by omega
    rw [← hlen, List.findIdx_eq_length]
    intro o ho
    obtain ⟨j, hj, rfl⟩ := List.getElem_of_mem ho
    exact hbefore j (by omega) hj

/-- before the `i + 1`-st stretch comes the `i`-th -/
theorem find?_reverse_start {i : Nat} (hi : i + 1 < found.length) :
    found.reverse.find? (·.stop ≤ found[i + 1].start) = some found[i] := by
  have hcut : found = found.take i ++ found[i] :: found.drop (i + 1) := by
    rw [← List.drop_eq_getElem_cons, List.take_append_drop]
  refine List.find?_eq_some_iff_append.2
    ⟨decide_eq_true (h.stop_le_start (Nat.lt_succ_self i) hi), (found.drop (i + 1)).reverse,
      (found.take i).reverse, ?_, ?_⟩
  · conv_lhs => rw [hcut]
    simp
  · intro o ho
    obtain ⟨j, hj, rfl⟩ := List.getElem_of_mem (List.mem_reverse.1 ho)
    rw [List.length_drop] at hj
    have hle := h.start_le_start (show i + 1 ≤ i + 1 + j by omega) (by omega)
    have hlt := h.start_lt_stop found[i + 1 + j] (List.getElem_mem _)
    simp only [List.getElem_drop, Bool.not_eq_true', decide_eq_false_iff_not]
    omega

/-- before the first stretch comes none -/
theorem find?_reverse_first (hpos : 0 < found.length) : found.reverse.find? (·.stop ≤ found[0].start) = none := by
  refine List.find?_eq_none.2 fun o ho => ?_
  obtain ⟨j, hj, rfl⟩ := List.getElem_of_mem (List.mem_reverse.1 ho)
  have hle := h.start_le_start (Nat.zero_le j) hj
  have hlt := h.start_lt_stop _ (List.getElem_mem hj)
  simp only [decide_eq_true_eq]
  omega

end Occurrence.Spaced

namespace Regex.InOrder

variable {t : Text} {start : Nat} {ms : List Match}

theorem bounds_of_mem (h : InOrder t start ms) {m : Match} (hm : m ∈ ms) :
    start ≤ m.start ∧ m.start ≤ m.stop ∧ m.stop ≤ t.length := by
  induction ms generalizing start with
  | nil => cases hm
  | cons m' ms ih =>
    obtain ⟨hstart, hspan, hrest⟩ := h
    rcases List.mem_cons.1 hm with rfl | hm
    · exact ⟨hstart, hspan, hrest.le_length⟩
    · obtain ⟨hle, hbounds⟩ := ih hrest hm
      exact ⟨by omega, hbounds⟩

theorem pairwise (h : InOrder t start ms) : ms.Pairwise fun m m' => m.stop ≤ m'.start := by
  induction ms generalizing start with
  | nil => exact List.Pairwise.nil
  | cons m ms ih => exact List.Pairwise.cons (fun m' hm' => (h.2.2.bounds_of_mem hm').1) (ih h.2.2)

end Regex.InOrder

namespace Query

variable {q : Query} {t : Text}

theorem inOrder_listed (q : Query) (t : Text) : Regex.InOrder t 0 ((q.regex.allMatches t).filter (!·.isEmpty)) :=
  (Regex.inOrder_allMatches q.regex t).filter _

/-- **The occurrences follow one another**, and none of them is empty. -/
theorem spaced_findAll (q : Query) (t : Text) : Occurrence.Spaced (q.findAll t) where
  start_lt_stop := by
    intro o ho
    obtain ⟨m, hm, rfl⟩ := List.mem_map.1 ho
    have hne := (List.mem_filter.1 hm).2
    simpa [Match.isEmpty] using hne
  apart := List.pairwise_map.2 (q.inOrder_listed t).pairwise

theorem stop_le_length {o : Occurrence} (ho : o ∈ q.findAll t) : o.stop ≤ t.length := by
  obtain ⟨m, hm, rfl⟩ := List.mem_map.1 ho
  exact ((q.inOrder_listed t).bounds_of_mem hm).2.2

/-- a search forward looks for the place from which the occurrences start behind it, and goes around if there is none -/
theorem findForward?_eq (q : Query) (t : Text) (offset : Nat) :
    q.findForward? t offset = (q.findAll t)[(q.findAll t).findIdx (offset ≤ ·.start) % (q.findAll t).length]? := by
  rw [findForward?, List.find?_eq_getElem?_findIdx]
  rcases List.findIdx_le_length.lt_or_eq with hlt | hend
  · rw [Nat.mod_eq_of_lt hlt, List.getElem?_eq_getElem hlt]
    rfl
  · rw [hend, Nat.mod_self, List.getElem?_eq_none le_rfl, List.head?_eq_getElem?]
    rfl

section

variable {i : Nat} (hi : i < (q.findAll t).length)
include hi

/-- **Forward from an occurrence** is the next one. -/
theorem findForward?_stop :
    q.findForward? t (q.findAll t)[i].stop = (q.findAll t)[(i + 1) % (q.findAll t).length]? := by
  rw [findForward?_eq, (q.spaced_findAll t).findIdx_stop hi]

/-- **Backward from an occurrence** is the one before. -/
theorem findBackward?_start :
    q.findBackward? t (q.findAll t)[i].start =
      (q.findAll t)[(i + ((q.findAll t).length - 1)) % (q.findAll t).length]? := by
  have h := q.spaced_findAll t
  have hpos : 0 < (q.findAll t).length := by omega
  cases i with
  | zero =>
    rw [findBackward?, h.find?_reverse_first hi, List.getLast?_eq_getElem?, Nat.zero_add, Nat.mod_eq_of_lt (by omega)]
    rfl
  | succ i =>
    have hmod : (i + 1 + ((q.findAll t).length - 1)) % (q.findAll t).length = i := by
      rw [show i + 1 + ((q.findAll t).length - 1) = i + (q.findAll t).length by omega, Nat.add_mod_right,
        Nat.mod_eq_of_lt (by omega)]
    rw [findBackward?, h.find?_reverse_start hi, hmod, List.getElem?_eq_getElem (by omega)]
    rfl

end

end Query

/-! ## In a session -/

namespace Session

/-- exactly the occurrence is selected -/
structure Selects (s : Session) (o : Occurrence) : Prop where
  start : s.buffer.selectionStart = o.start
  stop : s.buffer.selectionEnd = o.stop

/-- the answer of a search: the occurrence, and the same session with it selected, the cursor behind it -/
structure Finds (s : Session) (answer : Option Occurrence × Session) (o : Occurrence) : Prop where
  found : answer.1 = some o
  marks : answer.2.buffer.marks = ⟨o.stop, o.start⟩
  query : answer.2.query = s.query
  text : answer.2.text = s.text

variable {s : Session} {q : Query} {o : Occurrence}

theorem finds_selectFound (ho : o ∈ q.findAll s.text) : s.Finds (s.selectFound (some o)) o := by
  have hstop : o.stop ≤ s.buffer.length := Query.stop_le_length ho
  have hstart := (q.spaced_findAll s.text).start_lt_stop o ho
  refine ⟨rfl, ?_, rfl, rfl⟩
  simp only [selectFound, mapBuffer, Buffer.select, Buffer.clamp, min_eq_left hstop,
    min_eq_left (hstart.le.trans hstop)]

theorem Finds.selects {answer : Option Occurrence × Session} (h : s.Finds answer o) (ho : o ∈ q.findAll s.text) :
    answer.2.Selects o := by
  have hle := ((q.spaced_findAll s.text).start_lt_stop o ho).le
  exact ⟨by rw [Buffer.selectionStart, h.marks]; exact min_eq_right hle,
    by rw [Buffer.selectionEnd, h.marks]; exact max_eq_left hle⟩

section

variable (hq : s.query = some q) {i : Nat} (hi : i < (q.findAll s.text).length) (h : s.Selects (q.findAll s.text)[i])
include hq hi h

/-- one search forward from an occurrence finds the next one -/
theorem finds_searchForward (ho : (q.findAll s.text)[(i + 1) % (q.findAll s.text).length]? = some o) :
    s.Finds s.searchForward o := by
  rw [searchForward, forward?, hq, Option.bind_some, h.stop, Query.findForward?_stop hi, ho]
  exact finds_selectFound (List.mem_of_getElem? ho)

/-- one search backward from an occurrence finds the one before -/
theorem finds_searchBackward
    (ho : (q.findAll s.text)[(i + ((q.findAll s.text).length - 1)) % (q.findAll s.text).length]? = some o) :
    s.Finds s.searchBackward o := by
  rw [searchBackward, backward?, hq, Option.bind_some, h.start, Query.findBackward?_start hi, ho]
  exact finds_selectFound (List.mem_of_getElem? ho)

end

section

variable (hq : s.query = some q) (ho : o ∈ q.findAll s.text) (h : s.Selects o)
include hq ho h

/-- **Forward and back again** finds the same occurrence. -/
theorem finds_searchBackward_searchForward : s.Finds s.searchForward.2.searchBackward o := by
  obtain ⟨i, hi, rfl⟩ := List.getElem_of_mem ho
  have hmod : (i + 1) % (q.findAll s.text).length < (q.findAll s.text).length := Nat.mod_lt _ (by omega)
  have hforward := finds_searchForward hq hi h (List.getElem?_eq_getElem hmod)
  have hsame :
      ((i + 1) % (q.findAll s.text).length + ((q.findAll s.text).length - 1)) % (q.findAll s.text).length = i := by
    rw [Nat.mod_add_mod, show i + 1 + ((q.findAll s.text).length - 1) = i + (q.findAll s.text).length by omega,
      Nat.add_mod_right, Nat.mod_eq_of_lt hi]
  have hselects := hforward.selects (List.getElem_mem hmod)
  have hback := finds_searchBackward (i := (i + 1) % (q.findAll s.text).length) (o := (q.findAll s.text)[i])
    (hforward.query.trans hq) (by rw [hforward.text]; exact hmod) (by simpa only [hforward.text] using hselects)
    (by rw [hforward.text, hsame]; exact List.getElem?_eq_getElem hi)
  exact ⟨hback.found, hback.marks, hback.query.trans hforward.query, hback.text.trans hforward.text⟩

/-- **Back and forward again** finds the same occurrence. -/
theorem finds_searchForward_searchBackward : s.Finds s.searchBackward.2.searchForward o := by
  obtain ⟨i, hi, rfl⟩ := List.getElem_of_mem ho
  have hmod : (i + ((q.findAll s.text).length - 1)) % (q.findAll s.text).length < (q.findAll s.text).length :=
    Nat.mod_lt _ (by omega)
  have hback := finds_searchBackward hq hi h (List.getElem?_eq_getElem hmod)
  have hsame :
      ((i + ((q.findAll s.text).length - 1)) % (q.findAll s.text).length + 1) % (q.findAll s.text).length = i := by
    rw [Nat.mod_add_mod, show i + ((q.findAll s.text).length - 1) + 1 = i + (q.findAll s.text).length by omega,
      Nat.add_mod_right, Nat.mod_eq_of_lt hi]
  have hselects := hback.selects (List.getElem_mem hmod)
  have hforward := finds_searchForward (i := (i + ((q.findAll s.text).length - 1)) % (q.findAll s.text).length)
    (o := (q.findAll s.text)[i]) (hback.query.trans hq) (by rw [hback.text]; exact hmod)
    (by simpa only [hback.text] using hselects) (by rw [hback.text, hsame]; exact List.getElem?_eq_getElem hi)
  exact ⟨hforward.found, hforward.marks, hforward.query.trans hback.query, hforward.text.trans hback.text⟩

end

/-! ## One search after the other -/

/-- search forward some times -/
def forwardTimes (s : Session) (n : Nat) : Session :=
  (fun s : Session => s.searchForward.2)^[n] s

theorem forwardTimes_succ (s : Session) (n : Nat) : s.forwardTimes (n + 1) = (s.forwardTimes n).searchForward.2 :=
  Function.iterate_succ_apply' _ _ _

/-- searching keeps the search and the text -/
theorem forwardTimes_keeps (s : Session) (n : Nat) :
    (s.forwardTimes n).query = s.query ∧ (s.forwardTimes n).text = s.text := by
  have hkeeps : ∀ (s : Session) (found : Option Occurrence),
      (s.selectFound found).2.query = s.query ∧ (s.selectFound found).2.text = s.text := by
    rintro s (_ | _) <;> exact ⟨rfl, rfl⟩
  induction n with
  | zero => exact ⟨rfl, rfl⟩
  | succ n ih =>
    obtain ⟨hquery, htext⟩ :=
      hkeeps (s.forwardTimes n) ((s.forwardTimes n).forward? (s.forwardTimes n).buffer.selectionEnd)
    rw [forwardTimes_succ]
    exact ⟨hquery.trans ih.1, htext.trans ih.2⟩

/-- **One search after the other**: each finds the occurrence behind the one that the last one found. -/
theorem finds_forwardTimes (hq : s.query = some q) {j : Nat}
    (ho : (q.findAll s.text)[((q.findAll s.text).findIdx (s.buffer.selectionEnd ≤ ·.start) + j) %
      (q.findAll s.text).length]? = some o) : (s.forwardTimes j).Finds (s.forwardTimes j).searchForward o := by
  induction j generalizing o with
  | zero =>
    change s.Finds s.searchForward o
    rw [Nat.add_zero] at ho
    rw [searchForward, forward?, hq, Option.bind_some, Query.findForward?_eq, ho]
    exact finds_selectFound (List.mem_of_getElem? ho)
  | succ j ih =>
    set k := (q.findAll s.text).findIdx (s.buffer.selectionEnd ≤ ·.start)
    have hpos := List.length_pos_of_mem (List.mem_of_getElem? ho)
    have hmod : (k + j) % (q.findAll s.text).length < (q.findAll s.text).length := Nat.mod_lt _ hpos
    obtain ⟨hquery, htext⟩ := s.forwardTimes_keeps (j + 1)
    have hbefore := (s.forwardTimes_keeps j).2
    -- the search before selected the occurrence of that number
    have hselects := (ih (List.getElem?_eq_getElem hmod)).selects (q := q) (by rw [hbefore]; exact List.getElem_mem _)
    rw [← forwardTimes_succ] at hselects
    exact finds_searchForward (i := (k + j) % (q.findAll s.text).length) (hquery.trans hq) (by rw [htext]; exact hmod)
      (by simpa only [htext] using hselects) (by rw [htext, Nat.mod_add_mod, Nat.add_assoc, ho])

/-- **Searching visits every occurrence.** As many searches forward as there are occurrences find each of them once, in
the order of the text, from the first one that starts at the end of the selection or behind it, around the end of the
text; and one more finds the first of them again. Each search selects what it finds. From an occurrence that is
selected, in whichever direction, a search forward and one backward, in either order, find that occurrence again. -/
theorem search_visits_every_occurrence (s : Session) (q : Query) (hq : s.query = some q) :
    let found := q.findAll s.text
    found.Nodup ∧
    (List.range found.length).map (fun j => (s.forwardTimes j).searchForward.1) =
      (found.rotate (found.findIdx (s.buffer.selectionEnd ≤ ·.start))).map some ∧
    (s.forwardTimes found.length).searchForward.1 = s.searchForward.1 ∧
    (found ≠ [] → ∀ j, ∃ o ∈ found, (s.forwardTimes j).Finds (s.forwardTimes j).searchForward o) ∧
    (∀ o ∈ found, ∀ s' : Session, s'.query = some q → s'.text = s.text → s'.Selects o →
      s'.Finds s'.searchForward.2.searchBackward o ∧ s'.Finds s'.searchBackward.2.searchForward o) := by
  intro found
  refine ⟨(q.spaced_findAll s.text).nodup, ?_, ?_, fun hne j => ?_, fun o ho s' hq' htext hsel => ?_⟩
  · refine List.ext_getElem (by simp) fun j hj _ => ?_
    have hpos : 0 < found.length := by
      rw [List.length_map, List.length_range] at hj
      omega
    have hfinds := finds_forwardTimes hq (j := j) (List.getElem?_eq_getElem (Nat.mod_lt _ hpos))
    simp only [List.getElem_map, List.getElem_range, hfinds.found, List.getElem_rotate, Nat.add_comm j]
    rfl
  · rcases found.length.eq_zero_or_pos with hnone | hpos
    · rw [hnone]
      rfl
    · have hfirst := (finds_forwardTimes hq (j := 0) (List.getElem?_eq_getElem (Nat.mod_lt _ hpos))).found
      have hagain := (finds_forwardTimes hq (j := found.length) (List.getElem?_eq_getElem (Nat.mod_lt _ hpos))).found
      simp only [Nat.add_zero, found, Nat.add_mod_right] at hfirst hagain
      exact hagain.trans hfirst.symm
  · have hmod := Nat.mod_lt (found.findIdx (s.buffer.selectionEnd ≤ ·.start) + j) (List.length_pos_of_ne_nil hne)
    exact ⟨_, List.getElem_mem hmod, finds_forwardTimes hq (List.getElem?_eq_getElem hmod)⟩
  · have ho' : o ∈ q.findAll s'.text := by
      rw [htext]
      exact ho
    exact ⟨finds_searchBackward_searchForward hq' ho' hsel, finds_searchForward_searchBackward hq' ho' hsel⟩

/-- a search from a selection that covers a part of each of two words finds the first one, then the second one -/
theorem two_words_are_visited :
    let q : Query := ⟨"no".toList, .default, ⟨.seq (.set (.char 'n')) (.set (.char 'o')), []⟩⟩
    let s : Session := ({ ofText "no, no".toList (.ofId none) .default with query := some q } : Session).mapBuffer
      (·.select 5 1)
    s.query = some q ∧ Query.make "no".toList .default = .ok q ∧ q.findAll s.text = [⟨0, 2⟩, ⟨4, 6⟩] ∧
      (List.range 2).map (fun j => (s.forwardTimes j).searchForward.1) = [some ⟨0, 2⟩, some ⟨4, 6⟩] ∧
      (s.forwardTimes 2).searchForward.1 = some ⟨0, 2⟩ := by
  intro q s
  have hmake : Query.make "no".toList .default = .ok q := by cbv
  have hfound : q.findAll s.text = [⟨0, 2⟩, ⟨4, 6⟩] := by cbv
  obtain ⟨-, hvisits, hagain, -⟩ := search_visits_every_occurrence s q rfl
  rw [hfound] at hvisits hagain
  have hstop : s.buffer.selectionEnd = 5 := by decide
  rw [hstop] at hvisits
  have hfirst : s.searchForward.1 = some ⟨0, 2⟩ := by cbv
  exact ⟨rfl, hmake, hfound, hvisits, hagain.trans hfirst⟩

end Session

end CodeEditor
