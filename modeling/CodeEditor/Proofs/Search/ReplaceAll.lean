import CodeEditor.Proofs.Buffer.Plain
import CodeEditor.Proofs.Pattern.Literal
import CodeEditor.Proofs.Pattern.Matches
import CodeEditor.Session.Search
import Mathlib.Tactic
/-!
Replacing every match.

All matches are replaced in one pass that copies what lies between them. This is the same as replacing them one at a
time, from the last to the first (`drop_replaceEach`), and each gives way to what it expands to on its own
(`expandReplacement_occurrence`).

Only matches that are not empty are counted and listed, but the pass replaces the empty ones, too. So the listed
matches, and nothing else, are replaced exactly if no empty match expands to anything, or nothing is listed
(`replaceAll_text_iff`). A plain text has no empty match.
-/

namespace CodeEditor

namespace Text

/-- stretches replaced one at a time, from the last to the first, so that the offsets of those still to come hold -/
def replaceEach (t : Text) (replacement : Occurrence → Text) (found : List Occurrence) : Text :=
  found.foldr (fun o u => u.take o.start ++ replacement o ++ u.drop o.stop) t

variable {t : Text} {replacement : Occurrence → Text}

theorem replaceEach_cons (o : Occurrence) (found : List Occurrence) :
    t.replaceEach replacement (o :: found) =
      (t.replaceEach replacement found).take o.start ++ replacement o ++
        (t.replaceEach replacement found).drop o.stop :=
  rfl

end Text

/-- the stretch of a match -/
def Match.occurrence (m : Match) : Occurrence :=
  ⟨m.start, m.stop⟩

namespace Regex.InOrder

variable {t : Text} {start : Nat} {ms : List Match} {replacement : Occurrence → Text}

theorem le_length (h : InOrder t start ms) : start ≤ t.length := by
  induction ms generalizing start with
  | nil => exact h
  | cons m ms ih =>
    obtain ⟨hstart, hspan, hrest⟩ := h
    have := ih hrest
    omega

theorem mono {start' : Nat} (hle : start ≤ start') (h : InOrder t start' ms) : InOrder t start ms := by
  cases ms with
  | nil => exact hle.trans h
  | cons m ms => exact ⟨hle.trans h.1, h.2⟩

theorem filter (p : Match → Bool) (h : InOrder t start ms) : InOrder t start (ms.filter p) := by
  induction ms generalizing start with
  | nil => exact h
  | cons m ms ih =>
    obtain ⟨hstart, hspan, hrest⟩ := h
    rw [List.filter_cons]
    split_ifs
    · exact ⟨hstart, hspan, ih hrest⟩
    · exact (ih hrest).mono (hstart.trans hspan)

/-- what stands before the first match stays -/
theorem take_replaceEach (h : InOrder t start ms) (replacement : Occurrence → Text) :
    (t.replaceEach replacement (ms.map Match.occurrence)).take start = t.take start := by
  induction ms generalizing start with
  | nil => rfl
  | cons m ms ih =>
    obtain ⟨hstart, hspan, hrest⟩ := h
    have hlen : m.start ≤ t.length := hspan.trans hrest.le_length
    have hbefore := ih (hrest.mono hspan)
    rw [List.map_cons, Text.replaceEach_cons]
    change (List.take m.start _ ++ _ ++ _).take start = _
    rw [hbefore, List.append_assoc, List.take_append_of_le_length (by rw [List.length_take]; omega), List.take_take,
      min_eq_left hstart]

/-- one pass over the matches gives what stands behind `start` once each of them is replaced -/
theorem drop_replaceEach {f : Match → Text} (h : InOrder t start ms) (replacement : Occurrence → Text)
    (hf : ∀ m ∈ ms, f m = replacement m.occurrence) :
    (t.replaceEach replacement (ms.map Match.occurrence)).drop start = Query.spliceFrom t f start ms := by
  induction ms generalizing start with
  | nil => rfl
  | cons m ms ih =>
    obtain ⟨hstart, hspan, hrest⟩ := h
    have hlen : m.start ≤ t.length := hspan.trans hrest.le_length
    have hbefore := (hrest.mono hspan).take_replaceEach replacement
    rw [List.map_cons, Text.replaceEach_cons, Query.spliceFrom, hf m List.mem_cons_self,
      ← ih hrest fun m' hm' => hf m' (List.mem_cons_of_mem _ hm'), Text.slice, ← List.drop_take]
    change (List.take m.start _ ++ _ ++ List.drop m.stop _).drop start = _
    rw [hbefore, List.append_assoc, List.append_assoc, List.drop_append_of_le_length (by rw [List.length_take]; omega)]

/-- the length changes by what each replacement is longer than its match -/
theorem length_replaceEach (h : InOrder t start ms) (replacement : Occurrence → Text) :
    (t.replaceEach replacement (ms.map Match.occurrence)).length + (ms.map Match.length).sum =
      t.length + (ms.map fun m => (replacement m.occurrence).length).sum := by
  induction ms generalizing start with
  | nil => rfl
  | cons m ms ih =>
    obtain ⟨-, hspan, hrest⟩ := h
    have hlen : m.stop ≤ t.length := hrest.le_length
    have hbefore := congrArg List.length (hrest.take_replaceEach replacement)
    have hrecur := ih hrest
    rw [List.length_take, List.length_take] at hbefore
    rw [List.map_cons, Text.replaceEach_cons, List.map_cons, List.map_cons, List.sum_cons, List.sum_cons, Match.length]
    simp only [List.length_append, List.length_take, List.length_drop]
    simp only [Match.occurrence] at hrecur ⊢
    omega

/-- an empty match that expands to nothing is no replacement -/
theorem replaceEach_of_empty (h : InOrder t start ms)
    (hempty : ∀ m ∈ ms, m.isEmpty = true → replacement m.occurrence = []) :
    t.replaceEach replacement (ms.map Match.occurrence) =
      t.replaceEach replacement ((ms.filter (!·.isEmpty)).map Match.occurrence) := by
  induction ms generalizing start with
  | nil => rfl
  | cons m ms ih =>
    obtain ⟨-, hspan, hrest⟩ := h
    have hrecur := ih hrest fun m' hm' => hempty m' (List.mem_cons_of_mem _ hm')
    rw [List.map_cons, Text.replaceEach_cons, hrecur, List.filter_cons]
    cases hm : m.isEmpty with
    | false => rfl
    | true =>
      have hsame : m.stop = m.start := le_antisymm (of_decide_eq_true hm) hspan
      rw [hempty m List.mem_cons_self hm, List.append_nil, Match.occurrence]
      simp only [hsame, List.take_append_drop, Bool.not_true, Bool.false_eq_true, if_false]

/-- nothing but an expansion of no characters leaves the text as long as without the empty matches -/
theorem expands_to_nothing (h : InOrder t start ms)
    (hlen : (t.replaceEach replacement (ms.map Match.occurrence)).length =
      (t.replaceEach replacement ((ms.filter (!·.isEmpty)).map Match.occurrence)).length) {m : Match} (hm : m ∈ ms)
    (hempty : m.isEmpty = true) : replacement m.occurrence = [] := by
  have hall := h.length_replaceEach replacement
  have hlisted := (h.filter (!·.isEmpty)).length_replaceEach replacement
  have hsplit (g : Match → Nat) :
      (ms.map g).sum = ((ms.filter (·.isEmpty)).map g).sum + ((ms.filter (!·.isEmpty)).map g).sum := by
    rw [← List.sum_append, ← List.map_append]
    exact ((List.filter_append_perm _ ms).map g).sum_nat.symm
  have hspans : ((ms.filter (·.isEmpty)).map Match.length).sum = 0 := by
    refine List.sum_eq_zero_iff_forall_eq_nat.2 fun n hn => ?_
    obtain ⟨m', hm', rfl⟩ := List.mem_map.1 hn
    exact Nat.sub_eq_zero_of_le (of_decide_eq_true (List.mem_filter.1 hm').2)
  have hexpansions : ((ms.filter (·.isEmpty)).map fun m => (replacement m.occurrence).length).sum = 0 := by
    have := hsplit Match.length
    have := hsplit fun m => (replacement m.occurrence).length
    omega
  refine List.eq_nil_of_length_eq_zero (List.sum_eq_zero_iff_forall_eq_nat.1 hexpansions _ ?_)
  exact List.mem_map.2 ⟨m, List.mem_filter.2 ⟨hm, hempty⟩, rfl⟩

end Regex.InOrder

namespace Query

open Regex (InOrder)

variable {q : Query} {t : Text}

/-- the stretches of all matches, empty ones too -/
def stretches (q : Query) (t : Text) : List Occurrence :=
  (q.regex.allMatches t).map Match.occurrence

/-- **A match expands on its own to what the pass puts in its place.** The search from its start finds it again. -/
theorem expandReplacement_occurrence {m : Match} (h : m ∈ q.regex.allMatches t) (replacement : Text) :
    q.expandReplacement t m.occurrence replacement =
      if q.options.isPattern then q.regex.expand t m replacement else replacement := by
  have hstart : min m.occurrence.start t.length = m.start := min_eq_left (Regex.start_le_length h)
  rw [expandReplacement, hstart, Regex.find?_start h]
  cases q.options.isPattern <;> rfl

/-- the listed matches are counted -/
theorem replaceAll_count (q : Query) (t replacement : Text) :
    (q.replaceAll t replacement).2 = (q.findAll t).length := by
  simp only [replaceAll]
  by_cases hnone : (q.findAll t).length = 0
  · rw [if_pos hnone, hnone]
  · rw [if_neg hnone]

/-- **Every match is replaced**, empty ones too, if one is listed. -/
theorem replaceAll_text (q : Query) (t replacement : Text) :
    (q.replaceAll t replacement).1 =
      if q.findAll t = [] then t else t.replaceEach (q.expandReplacement t · replacement) (q.stretches t) := by
  have hpass := (Regex.inOrder_allMatches q.regex t).drop_replaceEach (q.expandReplacement t · replacement)
    fun m hm => (expandReplacement_occurrence hm replacement).symm
  simp only [List.drop_zero] at hpass
  simp only [replaceAll, List.length_eq_zero_iff]
  by_cases hnone : q.findAll t = []
  · rw [if_pos hnone, if_pos hnone]
  · rw [if_neg hnone, if_neg hnone, stretches, hpass]

/-- **Only the listed matches are replaced** exactly if nothing is listed, or no empty match expands to anything. -/
theorem replaceAll_text_iff (q : Query) (t replacement : Text) :
    (q.replaceAll t replacement).1 = t.replaceEach (q.expandReplacement t · replacement) (q.findAll t) ↔
      q.findAll t = [] ∨ ∀ o ∈ q.stretches t, o.isEmpty = true → q.expandReplacement t o replacement = [] := by
  have hlisted : q.findAll t = ((q.regex.allMatches t).filter (!·.isEmpty)).map Match.occurrence := rfl
  have horder := Regex.inOrder_allMatches q.regex t
  rw [replaceAll_text]
  by_cases hnone : q.findAll t = []
  · simp [hnone, Text.replaceEach]
  rw [if_neg hnone, or_iff_right hnone, hlisted, stretches]
  constructor
  · intro heq o ho hempty
    obtain ⟨m, hm, rfl⟩ := List.mem_map.1 ho
    exact horder.expands_to_nothing (congrArg List.length heq) hm hempty
  · intro hempty
    exact horder.replaceEach_of_empty fun m hm => hempty m.occurrence (List.mem_map_of_mem hm)

/-- a plain text is compiled unless it is empty or too large -/
theorem make_of_plain (u : Text) {options : SearchOptions} (hplain : options.isPattern = false) :
    make u options =
      if u = [] then .error .emptySearch
      else
        let p := Pattern.ofFactors (u.map (Pattern.Reader.literal (flags options)))
        if p.fits then .ok ⟨u, options, ⟨p, []⟩⟩ else .error (.invalidSearchPattern (Pattern.Escape.quote u)) := by
  have htext : patternText u options = Pattern.Escape.quote u := by rw [patternText, hplain, if_neg Bool.false_ne_true]
  rw [make, htext, Regex.compile?, Pattern.parse?_quote rfl]
  simp only [List.isEmpty_iff]
  split_ifs <;> rfl

/-- a plain text is not empty, and is compiled to one literal for each of its characters -/
theorem pattern_of_make {u : Text} {options : SearchOptions} (h : make u options = .ok q)
    (hplain : options.isPattern = false) :
    u ≠ [] ∧ q.options = options ∧ q.regex.pattern = Pattern.ofFactors
      (u.map (Pattern.Reader.literal (flags options))) := by
  rw [make_of_plain u hplain] at h
  dsimp only at h
  split_ifs at h with hu
  obtain rfl := Except.ok.inj h
  exact ⟨hu, rfl, rfl⟩

theorem reads_of_make {u : Text} {options : SearchOptions} (h : make u options = .ok q)
    (hplain : options.isPattern = false) :
    Matching.Reads 1 (q.regex.pattern.matcher 0) := by
  obtain ⟨hne, -, hpattern⟩ := pattern_of_make h hplain
  rw [hpattern]
  exact Pattern.reads_ofFactors (by simpa using hne) (Pattern.isSet_of_mem_literals _ u) 0

/-- **A plain text has no empty match.** -/
theorem isEmpty_of_make {u : Text} {options : SearchOptions} (h : make u options = .ok q)
    (hplain : options.isPattern = false) {o : Occurrence} (ho : o ∈ q.stretches t) : o.isEmpty = false := by
  obtain ⟨m, hm, rfl⟩ := List.mem_map.1 ho
  exact Regex.isEmpty_eq_false (reads_of_make h hplain) hm

end Query

/-! ## In a session -/

/-- a text in place of the whole -/
theorem Buffer.insert_erase_all (b : Buffer) (u : Text) : ((b.erase 0 b.length).insert 0 u).text = u := by
  rw [insert_text, erase_text b (Nat.zero_le _), length, List.drop_length]
  simp

/-- the session counts what is listed, and its text is the one with the matches replaced -/
theorem Session.replaceAll_query {s : Session} {q : Query} (h : s.query = some q) (replacement : Text) :
    (s.replaceAll replacement).1 = (q.findAll s.text).length ∧
      (s.replaceAll replacement).2.text = (q.replaceAll s.text replacement).1 := by
  have hcount := q.replaceAll_count s.text replacement
  have htext := q.replaceAll_text s.text replacement
  simp only [replaceAll, h, hcount, List.length_eq_zero_iff]
  split_ifs with hnone
  · rw [if_pos hnone] at htext
    exact ⟨by rw [hnone]; rfl, htext.symm⟩
  · exact ⟨rfl, Buffer.insert_erase_all s.buffer.openGroup _⟩

namespace Query

/-- **Replacing the matches of a text.** The matches follow one another, and the count is the number of the listed ones.
If there is none the text stays, and otherwise every match is replaced, the empty ones too, each by what it expands to
on its own. So the listed matches and nothing else are replaced exactly if nothing is listed or no empty match expands
to anything, which always holds for a plain text. A session counts the same and gets the same text. -/
theorem matches_are_replaced (q : Query) (t replacement : Text) :
    Regex.InOrder t 0 (q.regex.allMatches t) ∧
    (q.replaceAll t replacement).2 = (q.findAll t).length ∧
    (q.replaceAll t replacement).1 =
      (if q.findAll t = [] then t else t.replaceEach (q.expandReplacement t · replacement) (q.stretches t)) ∧
    ((q.replaceAll t replacement).1 = t.replaceEach (q.expandReplacement t · replacement) (q.findAll t) ↔
      q.findAll t = [] ∨ ∀ o ∈ q.stretches t, o.isEmpty = true → q.expandReplacement t o replacement = []) ∧
    (∀ (u : Text) (options : SearchOptions), make u options = .ok q → options.isPattern = false →
      (q.replaceAll t replacement).1 = t.replaceEach (q.expandReplacement t · replacement) (q.findAll t)) ∧
    (∀ s : Session, s.query = some q → s.text = t →
      (s.replaceAll replacement).1 = (q.findAll t).length ∧
        (s.replaceAll replacement).2.text = (q.replaceAll t replacement).1) := by
  refine ⟨Regex.inOrder_allMatches _ _, q.replaceAll_count t replacement, q.replaceAll_text t replacement,
    q.replaceAll_text_iff t replacement, fun u options h hplain => ?_, ?_⟩
  · refine (q.replaceAll_text_iff t replacement).2 (Or.inr fun o ho hempty => ?_)
    rw [isEmpty_of_make h hplain ho] at hempty
    cases hempty
  · rintro s hquery rfl
    exact Session.replaceAll_query hquery replacement

/-- two dots are replaced in a session, and the dollar sign of the replacement stands for itself -/
theorem dots_are_replaced :
    let q : Query := ⟨".".toList, .default, ⟨.set (.char '.'), []⟩⟩
    let s : Session := { Session.ofText "a.b.".toList (.ofId none) .default with query := some q }
    make ".".toList .default = .ok q ∧
      (q.replaceAll "a.b.".toList "$0".toList).1 =
        Text.replaceEach "a.b.".toList (q.expandReplacement "a.b.".toList · "$0".toList) [⟨1, 2⟩, ⟨3, 4⟩] ∧
      (s.replaceAll "$0".toList).1 = 2 ∧ (s.replaceAll "$0".toList).2.text = "a$0b$0".toList := by
  intro q s
  have hmake : make ".".toList .default = .ok q := by cbv
  have hlisted : q.findAll "a.b.".toList = [⟨1, 2⟩, ⟨3, 4⟩] := by cbv
  have hreplaced : (q.replaceAll "a.b.".toList "$0".toList).1 = "a$0b$0".toList := by cbv
  obtain ⟨-, -, -, -, hplain, hsession⟩ := matches_are_replaced q "a.b.".toList "$0".toList
  have htext := hplain _ _ hmake rfl
  obtain ⟨hcount, hsame⟩ := hsession s rfl (by decide)
  rw [hlisted] at htext hcount
  exact ⟨hmake, htext, hcount, hsame.trans hreplaced⟩

/-- **An empty match is replaced, too**, though it is neither listed nor counted -/
theorem empty_match_is_replaced :
    let q : Query := ⟨"a*".toList, ⟨true, true⟩, ⟨.times 0 none true (.set (.char 'a')), []⟩⟩
    make "a*".toList ⟨true, true⟩ = .ok q ∧ q.findAll "ba".toList = [⟨1, 2⟩] ∧
      q.replaceAll "ba".toList "x".toList = ("xbx".toList, 1) ∧
      Text.replaceEach "ba".toList (q.expandReplacement "ba".toList · "x".toList) [⟨1, 2⟩] = "bx".toList := by
  intro q
  refine ⟨?_, ?_, ?_, ?_⟩ <;> cbv

end Query

end CodeEditor
