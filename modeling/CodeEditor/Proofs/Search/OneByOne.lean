import CodeEditor.Proofs.Search.Plain
import CodeEditor.Proofs.Session.Commands
/-!
Replacing one by one, and all at once.

Replacing one by one searches again in the changed text each time, from the start of the last replacement on. As long as
each search finds the next match of the text that there was (`Query.FindsInTurn`), the calls give what replacing all at
once gives (`replaceTimes_of_findsInTurn`). Two things can come between: the search text begins inside a replacement, or
it reaches from before a replacement over the whole of it into the next occurrence. Where neither can be, every search
finds the next match, whatever the text is (`undisturbed_of_apart`). Where the search text can begin inside the
replacement, and is not the replacement itself, there is a text that shows the difference (`differs_of_beginsIn`).
-/

namespace CodeEditor

namespace SearchOptions

/-- the search text can begin inside the replacement: from some character of it on, the two agree as far as both go -/
def BeginsIn (options : SearchOptions) (u replacement : Text) : Prop :=
  ∃ i < replacement.length, ∀ (k : Nat) c d, u[k]? = some c → replacement[i + k]? = some d →
    (options.standsFor c).contains d = true

/-- the search text can reach over the replacement: with some of its characters before it, it holds the replacement, and
some of its last characters can be the first ones of another occurrence -/
def ReachesOver (options : SearchOptions) (u replacement : Text) : Prop :=
  ∃ i j, 0 < i ∧ i + replacement.length ≤ j ∧ j < u.length ∧
    (∀ (k : Nat) c d, u[i + k]? = some c → replacement[k]? = some d → (options.standsFor c).contains d = true) ∧
    ∀ (k : Nat) c c', u[j + k]? = some c → u[k]? = some c' →
      ∃ d, (options.standsFor c).contains d = true ∧ (options.standsFor c').contains d = true

variable {options : SearchOptions} {u replacement before behind : Text}

/-- a character of the replacement, in the text that has it -/
theorem getElem?_replacement {k : Nat} {d : Char} (h : replacement[k]? = some d) :
    (before ++ replacement ++ behind)[before.length + k]? = some d := by
  have hk := (List.getElem?_eq_some_iff.1 h).1
  rw [List.append_assoc, List.getElem?_append_right (Nat.le_add_right _ _), Nat.add_sub_cancel_left,
    List.getElem?_append_left hk, h]

theorem beginsIn_of_reads {x : Nat} (hle : before.length ≤ x) (hlt : x < (before ++ replacement).length)
    (h : options.reads u ((before ++ replacement ++ behind).drop x) = true) : options.BeginsIn u replacement := by
  obtain ⟨i, rfl⟩ := Nat.exists_eq_add_of_le hle
  rw [List.length_append] at hlt
  refine ⟨i, by omega, fun k c d hc hd => ?_⟩
  obtain ⟨d', hd', hcontains⟩ := reads_iff.1 h k c hc
  rw [List.getElem?_drop, Nat.add_assoc, getElem?_replacement hd] at hd'
  cases hd'
  exact hcontains

/-- what starts before the replacement and ends behind the start of the next occurrence reaches over it -/
theorem reachesOver_of_reads {x n : Nat} (hx : x < before.length)
    (h : options.reads u ((before ++ replacement ++ behind).drop x) = true)
    (hnext : options.reads u (behind.drop n) = true) (hover : (before ++ replacement).length + n < x + u.length) :
    options.ReachesOver u replacement := by
  obtain ⟨i, hi⟩ := Nat.exists_eq_add_of_le hx.le
  have hlen : (before ++ replacement).length = before.length + replacement.length := List.length_append
  refine ⟨i, i + replacement.length + n, by omega, by omega, by omega, fun k c d hc hd => ?_, fun k c c' hc hc' => ?_⟩
  · obtain ⟨d', hd', hcontains⟩ := reads_iff.1 h _ c hc
    rw [List.getElem?_drop, ← Nat.add_assoc, ← hi, getElem?_replacement hd] at hd'
    cases hd'
    exact hcontains
  · obtain ⟨d, hd, hcontains⟩ := reads_iff.1 h _ c hc
    obtain ⟨d', hd', hcontains'⟩ := reads_iff.1 hnext k c' hc'
    have hplace : x + (i + replacement.length + n + k) = (before ++ replacement).length + (n + k) := by omega
    rw [List.getElem?_drop, hplace, List.getElem?_append_right (Nat.le_add_right _ _), Nat.add_sub_cancel_left,
      ← List.getElem?_drop, hd'] at hd
    cases hd
    exact ⟨d, hcontains, hcontains'⟩

/-- where case matters, what of the search text reaches beyond the replacement completes it -/
theorem BeginsIn.completes (h : options.BeginsIn u replacement) (hcase : options.caseSensitive = true) :
    ∃ i < replacement.length, u <+: (replacement ++ u.drop (replacement.length - i)).drop i := by
  obtain ⟨i, hi, hagree⟩ := h
  refine ⟨i, hi, ?_⟩
  rw [List.prefix_iff_getElem?]
  intro k hk
  rw [List.getElem?_drop]
  by_cases hinside : i + k < replacement.length
  · have hcontains := hagree k _ _ (List.getElem?_eq_getElem hk) (List.getElem?_eq_getElem hinside)
    have hsame := (standsFor_of_caseSensitive hcase).1 hcontains
    rw [List.getElem?_append_left hinside, List.getElem?_eq_getElem hinside, hsame]
  · rw [List.getElem?_append_right (by omega), List.getElem?_drop,
      show replacement.length - i + (i + k - replacement.length) = k by omega, List.getElem?_eq_getElem hk]

end SearchOptions

namespace Query

/-- **Each search finds the next match.** `done` is the text as far as it is replaced, behind it stands what `t` has
from `last` on, and the search is from `start`. -/
def FindsInTurn (q : Query) (t replacement : Text) (done : Text) (start last : Nat) : List Match → Prop
  | [] => True
  | m :: rest =>
    let before := done ++ t.slice last m.start
    q.findForward? (done ++ t.drop last) start = some ⟨before.length, before.length + m.length⟩ ∧
      FindsInTurn q t replacement (before ++ replacement) before.length m.stop rest

/-- replacing from the start of the text, each search finds the next match of the text that there was -/
def Undisturbed (q : Query) (t replacement : Text) : Prop :=
  q.FindsInTurn t replacement [] 0 0 (q.regex.allMatches t)

variable {q : Query} {u t replacement : Text} {options : SearchOptions}

theorem mem_of_findForward? {offset : Nat} {o : Occurrence} (h : q.findForward? t offset = some o) :
    o ∈ q.findAll t := by
  rw [findForward?_eq] at h
  exact List.mem_of_getElem? h

/-- from the start of the text, a search forward finds the first occurrence -/
theorem findForward?_zero (q : Query) (t : Text) : q.findForward? t 0 = (q.findAll t).head? := by
  rw [findForward?]
  cases q.findAll t with
  | nil => rfl
  | cons o rest =>
    rw [List.find?_cons_of_pos (by simp)]
    rfl

theorem exists_head_of_mem_findAll {o : Occurrence} (ho : o ∈ q.findAll t) :
    ∃ first, (q.findAll t).head? = some first ∧ first.start ≤ o.start := by
  have hspaced := q.spaced_findAll t
  cases hfound : q.findAll t with
  | nil =>
    rw [hfound] at ho
    cases ho
  | cons first rest =>
    rw [hfound] at ho hspaced
    refine ⟨first, rfl, ?_⟩
    rcases List.mem_cons.1 ho with rfl | hmem
    · exact le_rfl
    · have hlt := hspaced.start_lt_stop first List.mem_cons_self
      have hapart := (List.pairwise_cons.1 hspaced.apart).1 o hmem
      omega

section

variable (hmake : make u options = .ok q) (hplain : options.isPattern = false)
include hmake hplain

/-- a search finds the next match of `t` if the search text begins at none of the offsets before what is left of `t`,
and no occurrence reaches from before the search over the start of that match -/
theorem findForward?_of_next (done : Text) (start : Nat) {last : Nat} {m : Match} (hm : q.regex.find? t last = some m)
    (hinside : ∀ x, start ≤ x → x < done.length → options.reads u ((done ++ t.drop last).drop x) = false)
    (hfree : ∀ o ∈ q.findAll (done ++ t.drop last), o.start < start → o.stop ≤ (done ++ t.slice last m.start).length) :
    q.findForward? (done ++ t.drop last) start =
      some ⟨(done ++ t.slice last m.start).length, (done ++ t.slice last m.start).length + m.length⟩ := by
  obtain ⟨hle, hlen, hin⟩ := Regex.find?_eq_some hm
  obtain ⟨hstands, heq⟩ := matchIn?_eq_some hmake hplain hin
  have hy : (done ++ t.slice last m.start).length = done.length + (m.start - last) := by
    rw [List.length_append, Text.length_slice t hlen]
  have hdrop : ∀ j, (done ++ t.drop last).drop (done.length + j) = t.drop (last + j) := by
    intro j
    rw [List.drop_length_add_append, List.drop_drop]
  have hmlen : m.length = u.length := by
    rw [heq, Match.length]
    exact Nat.add_sub_cancel_left _ _
  rw [hmlen]
  refine findForward?_of_first hmake hplain ?_ (fun x hstart hx => ?_) hfree
  · rw [hy, hdrop, Nat.add_sub_cancel' hle]
    exact hstands
  · rcases Nat.lt_or_ge x done.length with hbefore | hbehind
    · exact hinside x hstart hbefore
    · obtain ⟨j, rfl⟩ : ∃ j, x = done.length + j := ⟨x - done.length, by omega⟩
      have hnone : q.regex.matchIn? t (last + j) = none :=
        Regex.find?_leftmost (Nat.le_add_right _ _) (by omega) fun m' hm' => by
          rw [hm] at hm'
          cases hm'
          omega
      rw [matchIn?_of_make hmake hplain] at hnone
      rw [hdrop]
      by_contra hreads
      rw [Bool.not_eq_false] at hreads
      rw [if_pos hreads] at hnone
      cases hnone

/-- behind a replacement in which the search text cannot begin, and over which it cannot reach,
the next match is found -/
theorem findForward?_behind (hbegins : ¬ options.BeginsIn u replacement)
    (hreaches : ¬ options.ReachesOver u replacement) (before : Text) {last : Nat} {m : Match}
    (hm : q.regex.find? t last = some m) :
    let before' := before ++ replacement ++ t.slice last m.start
    q.findForward? (before ++ replacement ++ t.drop last) before.length =
      some ⟨before'.length, before'.length + m.length⟩ := by
  obtain ⟨hle, hlen, hin⟩ := Regex.find?_eq_some hm
  have hstands := (matchIn?_eq_some hmake hplain hin).1
  refine findForward?_of_next hmake hplain _ _ hm (fun x hstart hx => ?_) fun o ho hstart => ?_
  · by_contra hreads
    rw [Bool.not_eq_false] at hreads
    exact hbegins (SearchOptions.beginsIn_of_reads hstart hx hreads)
  · by_contra hover
    obtain ⟨hreads, hstop⟩ := stands_of_mem_findAll hmake hplain ho
    have hnext : options.reads u ((t.drop last).drop (m.start - last)) = true := by
      rw [List.drop_drop, Nat.add_sub_cancel' hle]
      exact hstands
    rw [List.length_append, Text.length_slice t hlen] at hover
    exact hreaches (SearchOptions.reachesOver_of_reads hstart hreads hnext (by omega))

/-- **Where the search text can neither begin inside the replacement nor reach over it**, each search finds the next
match, whatever the text is. -/
theorem undisturbed_of_apart (hbegins : ¬ options.BeginsIn u replacement)
    (hreaches : ¬ options.ReachesOver u replacement) (t : Text) : q.Undisturbed t replacement := by
  have hnext := Regex.next?_of_reads (reads_of_make hmake hplain) t
  have hrest : ∀ (most : Nat) (before : Text) (last : Nat),
      q.FindsInTurn t replacement (before ++ replacement) before.length last
        (q.regex.matchesAfter t (some last) most) := by
    intro most
    induction most with
    | zero => exact fun _ _ => trivial
    | succ most ih =>
      intro before last
      rw [Regex.matchesAfter, hnext]
      cases hm : q.regex.find? t ((some last).getD 0) with
      | none => exact trivial
      | some m => exact ⟨findForward?_behind hmake hplain hbegins hreaches before hm, ih _ m.stop⟩
  rw [Undisturbed, Regex.allMatches, Regex.matchesAfter, hnext]
  cases hm : q.regex.find? t ((none : Option Nat).getD 0) with
  | none => exact trivial
  | some m =>
    have hfirst := findForward?_of_next hmake hplain [] 0 hm (fun x _ hx => absurd hx (Nat.not_lt_zero x))
      fun o _ ho => absurd ho (Nat.not_lt_zero _)
    exact ⟨hfirst, hrest _ _ m.stop⟩

end

/-! ## The search text as its own replacement, and inside the replacement -/

/-- matches replaced by the characters they have -/
theorem spliceFrom_self {start : Nat} {ms : List Match} (h : Regex.InOrder t start ms)
    (hself : ∀ m ∈ ms, t.slice m.start m.stop = replacement) :
    spliceFrom t (fun _ => replacement) start ms = t.drop start := by
  induction ms generalizing start with
  | nil => rfl
  | cons m ms ih =>
    obtain ⟨hstart, hspan, hrest⟩ := h
    have hbetween := t.drop_eq_slice_append start (m.start - start)
    have hmatch := t.drop_eq_slice_append m.start (m.stop - m.start)
    rw [Nat.add_sub_cancel' hstart] at hbetween
    rw [Nat.add_sub_cancel' hspan, hself m List.mem_cons_self] at hmatch
    rw [spliceFrom, ih hrest fun m' hm' => hself m' (List.mem_cons_of_mem _ hm'), hbetween, hmatch, List.append_assoc]

section

variable (hmake : make u options = .ok q) (hplain : options.isPattern = false) (hcase : options.caseSensitive = true)
include hmake hplain hcase

/-- where case matters, an occurrence holds the search text -/
theorem slice_of_mem_findAll {o : Occurrence} (ho : o ∈ q.findAll t) : t.slice o.start o.stop = u := by
  obtain ⟨hreads, hstop⟩ := stands_of_mem_findAll hmake hplain ho
  obtain ⟨z, hz⟩ := (SearchOptions.reads_of_caseSensitive hcase).1 hreads
  rw [hstop, Text.slice, ← hz, Nat.add_sub_cancel_left, List.take_left]

/-- replacing the search text by itself changes nothing -/
theorem replaceAll_self (t : Text) : (q.replaceAll t u).1 = t := by
  rw [replaceAll_of_make hmake hplain]
  refine spliceFrom_self (Regex.inOrder_allMatches q.regex t) fun m hm => ?_
  have ho : m.occurrence ∈ q.findAll t := by
    rw [findAll_of_make hmake hplain]
    exact List.mem_map_of_mem hm
  exact slice_of_mem_findAll hmake hplain hcase ho

/-- a text with two occurrences: the search text, what of it reaches beyond the replacement, and behind a character that
is not in it the search text again -/
theorem allMatches_twice {v : Text} (hv : v.length < u.length) {z : Char} (hz : z ∉ u) :
    q.regex.allMatches (u ++ v ++ z :: u) =
      [⟨0, u.length, []⟩, ⟨(u ++ v ++ [z]).length, (u ++ v ++ [z]).length + u.length, []⟩] := by
  have hpos := length_pos_of_make hmake hplain
  have hnext := Regex.next?_of_reads (reads_of_make hmake hplain) (u ++ v ++ z :: u)
  have hsplit : u ++ v ++ z :: u = u ++ v ++ [z] ++ u := by rw [List.append_assoc (u ++ v), List.singleton_append]
  have hlen : (u ++ v ++ [z]).length = u.length + v.length + 1 := by
    rw [List.length_append, List.length_append, List.length_singleton]
  have hfirst : q.regex.find? (u ++ v ++ z :: u) 0 = some ⟨0, 0 + u.length, []⟩ := by
    refine find?_of_first hmake hplain le_rfl ?_ fun x _ hx => absurd hx (Nat.not_lt_zero x)
    rw [SearchOptions.reads_of_caseSensitive hcase, List.drop_zero, List.append_assoc]
    exact List.prefix_append _ _
  have hsecond : q.regex.find? (u ++ v ++ z :: u) u.length =
      some ⟨(u ++ v ++ [z]).length, (u ++ v ++ [z]).length + u.length, []⟩ := by
    refine find?_of_first hmake hplain (by omega) ?_ fun x hle hx => ?_
    · rw [SearchOptions.reads_of_caseSensitive hcase, hsplit, List.drop_left]
    · -- the search text would have to hold `z`
      by_contra hreads
      rw [Bool.not_eq_false, SearchOptions.reads_of_caseSensitive hcase, List.prefix_iff_getElem?] at hreads
      have hk : u.length + v.length - x < u.length := by omega
      have hget := hreads _ hk
      rw [List.getElem?_drop, Nat.add_sub_cancel' (by omega), List.getElem?_append_right (by rw [List.length_append]),
        List.length_append, Nat.sub_self] at hget
      exact hz (Option.some.inj hget ▸ List.getElem_mem hk)
  have hnone : q.regex.find? (u ++ v ++ z :: u) ((u ++ v ++ [z]).length + u.length) = none := by
    refine find?_of_none hmake hplain fun x hx => ?_
    have hdrop : (u ++ v ++ z :: u).drop x = [] := List.drop_eq_nil_of_le (by
      rw [hsplit, List.length_append]
      exact hx)
    by_contra hreads
    rw [Bool.not_eq_false, hdrop] at hreads
    have hle := SearchOptions.length_le_of_reads hreads
    rw [List.length_nil] at hle
    omega
  obtain ⟨most, hmost⟩ : ∃ most, (u ++ v ++ z :: u).length + 1 = most + 3 := by
    refine ⟨(u ++ v ++ z :: u).length - 2, ?_⟩
    rw [hsplit, List.length_append]
    omega
  rw [Regex.allMatches, hmost]
  simp only [Regex.matchesAfter, hnext, Option.getD_none, Option.getD_some, hfirst, Nat.zero_add, hsecond, hnone]

theorem findAll_twice {v : Text} (hv : v.length < u.length) {z : Char} (hz : z ∉ u) :
    q.findAll (u ++ v ++ z :: u) =
      [⟨0, u.length⟩, ⟨(u ++ v ++ [z]).length, (u ++ v ++ [z]).length + u.length⟩] := by
  rw [findAll_of_make hmake hplain, allMatches_twice hmake hplain hcase hv hz]
  rfl

theorem replaceAll_twice {v : Text} (hv : v.length < u.length) {z : Char} (hz : z ∉ u) (replacement : Text) :
    (q.replaceAll (u ++ v ++ z :: u) replacement).1 = replacement ++ v ++ z :: replacement := by
  have hsplit : u ++ v ++ z :: u = u ++ (v ++ [z] ++ u) := by simp
  have hlen : (u ++ v ++ [z]).length - u.length = (v ++ [z]).length := by
    rw [List.append_assoc, List.length_append, Nat.add_sub_cancel_left]
  have hend : (u ++ v ++ z :: u).drop ((u ++ v ++ [z]).length + u.length) = [] :=
    List.drop_eq_nil_of_le (by simp only [List.length_append, List.length_cons, List.length_nil]; omega)
  rw [replaceAll_of_make hmake hplain, allMatches_twice hmake hplain hcase hv hz]
  simp only [spliceFrom, hend, List.append_nil, Text.slice, Nat.sub_self, List.take_zero, List.nil_append, hlen]
  rw [hsplit, List.drop_left, List.take_left]
  simp

end

end Query

/-! ## In a session -/

theorem Buffer.selectionStart_of_cursor_eq_zero {b : Buffer} (h : b.cursor = 0) : b.selectionStart = 0 := by
  rw [selectionStart, ← cursor, h, Nat.zero_min]

namespace Session

/-- replace the next occurrence some times -/
def replaceTimes (s : Session) (replacement : Text) (n : Nat) : Session :=
  (fun s : Session => (s.replaceForward replacement).2)^[n] s

theorem replaceTimes_succ (s : Session) (replacement : Text) (n : Nat) :
    s.replaceTimes replacement (n + 1) = (s.replaceForward replacement).2.replaceTimes replacement n := rfl

/-- an occurrence gives way to the replacement, which is selected then; the search stays -/
structure Replaces (s s' : Session) (o : Occurrence) (replacement : Text) : Prop where
  text : s'.text = s.text.take o.start ++ replacement ++ s.text.drop o.stop
  start : s'.buffer.selectionStart = o.start
  query : s'.query = s.query

section

variable {s : Session} {q : Query} {t replacement : Text} (hplain : q.options.isPattern = false)
include hplain

/-- **One call** replaces the occurrence that the search forward finds. -/
theorem replaces_replaceForward (replacement : Text) (hq : s.query = some q) {o : Occurrence}
    (ho : q.findForward? s.text s.buffer.selectionStart = some o) :
    s.Replaces (s.replaceForward replacement).2 o replacement := by
  have hmem := Query.mem_of_findForward? ho
  have hspan := (q.spaced_findAll s.text).start_lt_stop o hmem
  have hstop := Query.stop_le_length hmem
  have hexpand : q.expandReplacement s.text o replacement = replacement := by
    rw [Query.expandReplacement, hplain]
    rfl
  set b := (s.buffer.openGroup.erase o.start o.stop).insert o.start replacement with hb
  have htext : b.text = s.text.take o.start ++ replacement ++ s.text.drop o.stop := by
    have htake : (s.text.take o.start).length = o.start := by rw [List.length_take, min_eq_left (by omega)]
    have herase : (s.buffer.openGroup.erase o.start o.stop).text = s.text.take o.start ++ s.text.drop o.stop :=
      Buffer.erase_text _ hspan.le
    rw [hb, Buffer.insert_text, herase, List.take_append_of_le_length htake.ge, List.drop_append_of_le_length htake.ge,
      List.take_take, min_self, List.drop_of_length_le htake.le, List.nil_append]
  have hanswer : (s.replaceForward replacement).2 = s.grouped fun b =>
      ((b.erase o.start o.stop).insert o.start replacement).select (o.start + replacement.length) o.start := by
    simp only [replaceForward, forward?, hq, Option.bind_some, ho, replaceFound, hexpand]
  have hlen : o.start + replacement.length ≤ b.length := by
    rw [Buffer.length, htext, List.length_append, List.length_append, List.length_take]
    omega
  rw [hanswer]
  refine ⟨htext, ?_, rfl⟩
  have hinsert : b.clamp (o.start + replacement.length) = o.start + replacement.length := min_eq_left hlen
  have hbound : b.clamp o.start = o.start := min_eq_left (by omega)
  change min (b.clamp (o.start + replacement.length)) (b.clamp o.start) = o.start
  rw [hinsert, hbound]
  exact min_eq_right (Nat.le_add_right _ _)

/-- **As long as each search finds the next match**, the calls give the text with every match replaced. -/
theorem replaceTimes_of_findsInTurn (done : Text) {last : Nat} {ms : List Match} (horder : Regex.InOrder t last ms)
    (hq : s.query = some q) (htext : s.text = done ++ t.drop last)
    (h : q.FindsInTurn t replacement done s.buffer.selectionStart last ms) :
    (s.replaceTimes replacement ms.length).text = done ++ Query.spliceFrom t (fun _ => replacement) last ms := by
  induction ms generalizing s done last with
  | nil => exact htext
  | cons m ms ih =>
    obtain ⟨hfound, hrest⟩ := h
    obtain ⟨hstart, hspan, horder⟩ := horder
    rw [← htext] at hfound
    have hreplaces := replaces_replaceForward hplain replacement hq hfound
    set before := done ++ t.slice last m.start with hbefore
    have hsplit : s.text = before ++ t.drop m.start := by
      have hbetween := t.drop_eq_slice_append last (m.start - last)
      rw [Nat.add_sub_cancel' hstart] at hbetween
      rw [htext, hbetween, hbefore, List.append_assoc]
    have hnext : (s.replaceForward replacement).2.text = before ++ replacement ++ t.drop m.stop := by
      rw [hreplaces.text, hsplit, List.take_left, List.drop_length_add_append, List.drop_drop, Match.length,
        Nat.add_sub_cancel' hspan]
    have hselected : (s.replaceForward replacement).2.buffer.selectionStart = before.length := hreplaces.start
    rw [← hselected] at hrest
    rw [List.length_cons, replaceTimes_succ, ih _ horder (hreplaces.query.trans hq) hnext hrest, hbefore,
      Query.spliceFrom]
    simp only [List.append_assoc]

end

section

variable {s : Session} {q : Query} {u replacement : Text} {options : SearchOptions}
  (hmake : Query.make u options = .ok q) (hplain : options.isPattern = false) (hq : s.query = some q)
include hmake hplain hq

theorem replaceAll_of_make (replacement : Text) :
    (s.replaceAll replacement).2.text = Query.spliceFrom s.text (fun _ => replacement) 0
      (q.regex.allMatches s.text) := by
  rw [(replaceAll_query hq replacement).2, Query.replaceAll_of_make hmake hplain]

/-- replacing the search text by itself leaves the text, where case matters -/
theorem replaceTimes_self (hcase : options.caseSensitive = true) (n : Nat) : (s.replaceTimes u n).text = s.text := by
  induction n generalizing s with
  | zero => rfl
  | succ n ih =>
    rw [replaceTimes_succ]
    cases hfound : q.findForward? s.text s.buffer.selectionStart with
    | none =>
      have hsame : (s.replaceForward u).2 = s := by
        simp only [replaceForward, forward?, hq, Option.bind_some, hfound, replaceFound]
      rw [hsame, ih hq]
    | some o =>
      have hreplaces := replaces_replaceForward (Query.isPattern_of_make hmake hplain) u hq hfound
      have hmem := Query.mem_of_findForward? hfound
      have hspan := (q.spaced_findAll s.text).start_lt_stop o hmem
      have hslice := s.text.drop_eq_slice_append o.start (o.stop - o.start)
      rw [Nat.add_sub_cancel' hspan.le, Query.slice_of_mem_findAll hmake hplain hcase hmem] at hslice
      rw [ih (hreplaces.query.trans hq), hreplaces.text, List.append_assoc, ← hslice, List.take_append_drop]

end

section

variable {q : Query} {u replacement : Text} {options : SearchOptions} (hmake : Query.make u options = .ok q)
  (hplain : options.isPattern = false) (hcase : options.caseSensitive = true)
include hmake hplain hcase

/-- a call from the start of the text, where the search text stands in the first part of it, leaves the rest -/
theorem replaceForward_within {s : Session} {t rest : Text} (hq : s.query = some q) (htext : s.text = t ++ rest)
    (hstart : s.buffer.selectionStart = 0) {i : Nat} (hi : i ≤ t.length) (hstands : u <+: t.drop i)
    (replacement : Text) :
    ∃ t', (s.replaceForward replacement).2.text = t' ++ rest := by
  have hreads : options.reads u (s.text.drop i) = true := by
    rw [SearchOptions.reads_of_caseSensitive hcase, htext, List.drop_append_of_le_length hi]
    exact hstands.trans (List.prefix_append _ _)
  obtain ⟨o, ho, hle, -⟩ := Query.covered_of_make hmake hplain hreads
  obtain ⟨first, hhead, hfirst⟩ := Query.exists_head_of_mem_findAll ho
  have hfound : q.findForward? s.text s.buffer.selectionStart = some first := by
    rw [hstart, Query.findForward?_zero, hhead]
  have hreplaces := replaces_replaceForward (Query.isPattern_of_make hmake hplain) replacement hq hfound
  -- the occurrence starts no later than the search text does in the first part
  have hstop := (Query.stands_of_mem_findAll hmake hplain (List.mem_of_head? hhead)).2
  have hlen := hstands.length_le
  rw [List.length_drop] at hlen
  refine ⟨t.take first.start ++ replacement ++ t.drop first.stop, ?_⟩
  rw [hreplaces.text, htext, List.take_append_of_le_length (by omega), List.drop_append_of_le_length (by omega),
    List.append_assoc _ _ rest]

/-- **Where the search text can begin inside the replacement**, and is not the replacement itself, the second call
replaces within the first replacement, and some text shows it. -/
theorem differs_of_beginsIn (hne : replacement ≠ u) (hbegins : options.BeginsIn u replacement) {z : Char} (hz : z ∉ u)
    (hz' : z ∉ replacement) : ∃ t : Text, ∀ s : Session, s.query = some q → s.text = t → s.buffer.cursor = 0 →
      (s.replaceTimes replacement (q.findAll t).length).text ≠ (s.replaceAll replacement).2.text := by
  obtain ⟨i, hi, hprefix⟩ := hbegins.completes hcase
  set v := u.drop (replacement.length - i) with hv
  have hlt : v.length < u.length := by
    have hpos := Query.length_pos_of_make hmake hplain
    rw [hv, List.length_drop]
    omega
  have hfound := Query.findAll_twice hmake hplain hcase hlt hz
  refine ⟨u ++ v ++ z :: u, fun s hq htext hcursor => ?_⟩
  -- the first call
  have hfirst : q.findForward? s.text s.buffer.selectionStart = some ⟨0, u.length⟩ := by
    rw [Buffer.selectionStart_of_cursor_eq_zero hcursor, htext, Query.findForward?_zero, hfound]
    rfl
  have hreplaces := replaces_replaceForward (Query.isPattern_of_make hmake hplain) replacement hq hfirst
  have hafter : (s.replaceForward replacement).2.text = replacement ++ v ++ z :: u := by
    rw [hreplaces.text, htext, List.take_zero, List.nil_append, List.append_assoc u, List.drop_left, List.append_assoc]
  -- the second one replaces before the `z`
  obtain ⟨t, hone⟩ := replaceForward_within hmake hplain hcase (hreplaces.query.trans hq) hafter hreplaces.start
    (by rw [List.length_append]; omega) hprefix replacement
  have hall : (s.replaceAll replacement).2.text = replacement ++ v ++ z :: replacement := by
    rw [(replaceAll_query hq replacement).2, htext, Query.replaceAll_twice hmake hplain hcase hlt hz]
  -- behind the last `z`, one has the search text and the other the replacement
  intro heq
  rw [hfound, hall] at heq
  replace heq := hone.symm.trans heq
  rcases List.append_eq_append_iff.1 heq with ⟨w, -, hw⟩ | ⟨w, -, hw⟩
  · cases w with
    | nil => exact hne (List.cons.inj hw).2.symm
    | cons c w => exact hz (by rw [(List.cons.inj hw).2]; simp)
  · cases w with
    | nil => exact hne (List.cons.inj hw).2
    | cons c w => exact hz' (by rw [(List.cons.inj hw).2]; simp)

end

/-- **One by one and all at once.** With the cursor at the start, as many calls as there are occurrences of a plain
search text give the text that replacing all gives, if each search finds the next match of the text that there was.
Whatever the text is, they do so if the search text can neither begin inside the replacement nor reach over it into the
next occurrence, and, where case matters, if it is the replacement. Where case matters and another replacement is one in
which the search text can begin, they do not for some text, provided that some character is in neither of the two. -/
theorem one_by_one_is_all_at_once {s : Session} {q : Query} {u : Text} {options : SearchOptions} (replacement : Text)
    (hmake : Query.make u options = .ok q) (hplain : options.isPattern = false) (hq : s.query = some q)
    (hcursor : s.buffer.cursor = 0) :
    let one := (s.replaceTimes replacement (q.findAll s.text).length).text
    let all := (s.replaceAll replacement).2.text
    (q.Undisturbed s.text replacement → one = all) ∧
    (¬ options.BeginsIn u replacement → ¬ options.ReachesOver u replacement → one = all) ∧
    (options.caseSensitive = true → replacement = u → one = all) ∧
    (options.caseSensitive = true → replacement ≠ u → options.BeginsIn u replacement → ∀ z, z ∉ u → z ∉ replacement →
      ∃ t : Text, ∀ s' : Session, s'.query = some q → s'.text = t → s'.buffer.cursor = 0 →
        (s'.replaceTimes replacement (q.findAll t).length).text ≠ (s'.replaceAll replacement).2.text) := by
  intro one all
  have hturn : q.Undisturbed s.text replacement → one = all := by
    intro h
    have hrun := replaceTimes_of_findsInTurn (Query.isPattern_of_make hmake hplain) []
      (Regex.inOrder_allMatches q.regex s.text) hq rfl
        (by rw [Buffer.selectionStart_of_cursor_eq_zero hcursor]; exact h)
    have hcount : (q.findAll s.text).length = (q.regex.allMatches s.text).length := by
      rw [Query.findAll_of_make hmake hplain, List.length_map]
    calc one = (s.replaceTimes replacement (q.regex.allMatches s.text).length).text := by rw [← hcount]
      _ = Query.spliceFrom s.text (fun _ => replacement) 0 (q.regex.allMatches s.text) := hrun
      _ = all := (replaceAll_of_make hmake hplain hq replacement).symm
  refine ⟨hturn, fun hbegins hreaches =>
    hturn (Query.undisturbed_of_apart hmake hplain hbegins hreaches s.text), ?_, ?_⟩
  · rintro hcase rfl
    calc one = s.text := replaceTimes_self hmake hplain hq hcase _
      _ = (q.replaceAll s.text replacement).1 := (Query.replaceAll_self hmake hplain hcase s.text).symm
      _ = all := (replaceAll_query hq replacement).2.symm
  · exact fun hcase hne hbegins z hz hz' => differs_of_beginsIn hmake hplain hcase hne hbegins hz hz'

/-- across the edge of the first replacement an occurrence appears, but the search is behind its
start and does not find it -/
theorem two_are_replaced_one_by_one :
    let q : Query := ⟨"ab".toList, .default, ⟨.seq (.set (.char 'a')) (.set (.char 'b')), []⟩⟩
    let s : Session := { ofText "aab ab".toList (.ofId none) .default with query := some q }
    (Query.make "ab".toList .default = .ok q ∧ s.query = some q ∧ s.buffer.cursor = 0 ∧
      q.findAll s.text = [⟨1, 3⟩, ⟨4, 6⟩] ∧
      ¬ SearchOptions.default.BeginsIn "ab".toList ['b'] ∧ ¬ SearchOptions.default.ReachesOver "ab".toList ['b']) ∧
      (s.replaceTimes ['b'] 2).text = (s.replaceAll ['b']).2.text ∧ (s.replaceAll ['b']).2.text = "ab b".toList := by
  intro q s
  have hmake : Query.make "ab".toList .default = .ok q := by cbv
  have hfound : q.findAll s.text = [⟨1, 3⟩, ⟨4, 6⟩] := by cbv
  have hall : (s.replaceAll ['b']).2.text = "ab b".toList := by cbv
  have hbegins : ¬ SearchOptions.default.BeginsIn "ab".toList ['b'] := by
    rintro ⟨i, hi, hagree⟩
    obtain rfl : i = 0 := by simpa using hi
    exact absurd (hagree 0 'a' 'b' rfl rfl) (by decide)
  have hreaches : ¬ SearchOptions.default.ReachesOver "ab".toList ['b'] := by
    rintro ⟨i, j, hi, hij, hj, -⟩
    simp at hij hj
    omega
  have hsame := (one_by_one_is_all_at_once (s := s) ['b'] hmake rfl rfl rfl).2.1 hbegins hreaches
  rw [hfound] at hsame
  exact ⟨⟨hmake, rfl, rfl, hfound, hbegins, hreaches⟩, hsame, hall⟩

/-- **A letter replaced by two of it**: the second call replaces the first of the two, and the second
letter of the text stays. -/
theorem doubled_letter_is_replaced_twice :
    let q : Query := ⟨"a".toList, .default, ⟨.set (.char 'a'), []⟩⟩
    let s : Session := { ofText "a a".toList (.ofId none) .default with query := some q }
    Query.make "a".toList .default = .ok q ∧ s.buffer.cursor = 0 ∧ (q.findAll s.text).length = 2 ∧
      (s.replaceTimes "aa".toList 2).text = "aaa a".toList ∧ (s.replaceAll "aa".toList).2.text = "aa aa".toList ∧
      (s.replaceTimes "aa".toList (q.findAll s.text).length).text ≠ (s.replaceAll "aa".toList).2.text := by
  intro q s
  have hcount : (q.findAll s.text).length = 2 := by cbv
  have hone : (s.replaceTimes "aa".toList 2).text = "aaa a".toList := by cbv
  have hall : (s.replaceAll "aa".toList).2.text = "aa aa".toList := by cbv
  refine ⟨by cbv, rfl, hcount, hone, hall, ?_⟩
  rw [hcount, hone, hall]
  decide

end Session

end CodeEditor
