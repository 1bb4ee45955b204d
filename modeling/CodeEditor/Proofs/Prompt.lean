import CodeEditor.Prompt
import Mathlib.Data.List.Destutter
/-!
Prompts that share a history.

Any number of prompts work on one store, in any order, and texts may also be recorded directly. Whatever happens, the
entries of a key are the texts recorded under it, newest first, with repetitions of the newest collapsed
(`HistoryStore.entries_record`), and every prompt that shows an entry shows one that is there, because a list only
grows, and at its front (`Consistent`). So browsing never runs out of the list (`histories_stay_consistent`).
-/

namespace CodeEditor

namespace HistoryStore

/-! ## The store -/

theorem lookup_cons_eq (k key : Text) (texts : List Text) (lists : List (Text × List Text)) :
    ((key, texts) :: lists).lookup k = if k = key then some texts else lists.lookup k := by
  rw [List.lookup_cons]
  by_cases hk : k = key
  · rw [if_pos hk, hk, beq_self_eq_true]
  · rw [if_neg hk, beq_false_of_ne hk]

theorem lookup_replace (key : Text) (texts : List Text) (lists : List (Text × List Text)) (k : Text) :
    (replace key texts lists).lookup k = if k = key then some texts else lists.lookup k := by
  induction lists with
  | nil => exact lookup_cons_eq k key texts []
  | cons entry lists ih =>
    obtain ⟨key', old⟩ := entry
    rw [replace]
    by_cases hkey : key' = key
    · rw [if_pos hkey, lookup_cons_eq, lookup_cons_eq, hkey]
      split_ifs <;> rfl
    · rw [if_neg hkey, lookup_cons_eq, lookup_cons_eq, ih]
      by_cases hk : k = key'
      · rw [if_pos hk, if_neg (hk ▸ hkey)]
        exact (if_pos hk).symm
      · rw [if_neg hk, if_neg hk]

/-- **Recording** adds a text to the front of its key's list, unless it is there already, and touches no other key. -/
theorem entries_record (s : HistoryStore) (key text k : Text) :
    (s.record key text).entries k =
      if k = key ∧ (s.entries k).head? ≠ some text then text :: s.entries k else s.entries k := by
  unfold record
  by_cases hnewest : (s.entries key).head? = some text
  · rw [if_pos hnewest, if_neg]
    rintro ⟨rfl, hne⟩
    exact hne hnewest
  · rw [if_neg hnewest]
    unfold entries
    rw [lookup_replace]
    by_cases hk : k = key
    · subst hk
      rw [if_pos rfl, if_pos ⟨rfl, hnewest⟩]
      rfl
    · rw [if_neg hk, if_neg fun h => hk h.1]

/-- what was there stays, behind what is new -/
theorem entries_suffix_record (s : HistoryStore) (key text k : Text) :
    s.entries k <:+ (s.record key text).entries k := by
  rw [entries_record]
  split_ifs
  · exact List.suffix_cons _ _
  · exact List.suffix_rfl

end HistoryStore

/-! ## Collapsing repetitions -/

theorem head?_destutter' {α : Type} [DecidableEq α] (a : α) (l : List α) : (l.destutter' (· ≠ ·) a).head? = some a := by
  induction l with
  | nil => rfl
  | cons b l ih =>
    rw [List.destutter'_cons]
    split_ifs
    · rfl
    · exact ih

/-- one more in front counts unless it is the same as the first -/
theorem destutter_cons {α : Type} [DecidableEq α] (a : α) (l : List α) :
    (a :: l).destutter (· ≠ ·) =
      if (l.destutter (· ≠ ·)).head? = some a then l.destutter (· ≠ ·) else a :: l.destutter (· ≠ ·) := by
  cases l with
  | nil => simp
  | cons b l =>
    rw [List.destutter_cons_cons, List.destutter_cons']
    simp only [head?_destutter', Option.some.injEq]
    by_cases hab : a = b
    · rw [if_neg (not_not.2 hab), if_pos hab.symm, hab]
    · rw [if_pos hab, if_neg (Ne.symm hab)]

/-! ## One prompt -/

namespace Prompt

/-- the entry that is shown, if one is, is there -/
def ShowsEntry (p : Prompt) (s : HistoryStore) : Prop :=
  ∀ i, p.shown = some i → i < (s.entries p.placeholder).length

variable {p q : Prompt} {s : HistoryStore}

theorem showsEntry_of_none (h : p.shown = none) : p.ShowsEntry s := by
  intro i hi
  rw [h] at hi
  cases hi

/-- a prompt that shows the `i`-th entry of its history -/
structure ShowsAt (p q : Prompt) (s : HistoryStore) (i : Nat) : Prop where
  placeholder : q.placeholder = p.placeholder
  shown : q.shown = some i
  text : (s.entries p.placeholder)[i]? = some q.text

theorem ShowsAt.showsEntry {i : Nat} (h : p.ShowsAt q s i) : q.ShowsEntry s := by
  intro j hj
  obtain rfl := Option.some.inj (h.shown.symm.trans hj)
  exact h.placeholder ▸ (List.getElem?_eq_some_iff.1 h.text).1

theorem up?_eq_none_iff : p.up? s = none ↔ s.entries p.placeholder = [] := by
  unfold up?
  cases s.entries p.placeholder with
  | nil => simp
  | cons newest older => simp

/-- **Going up** shows an entry. -/
theorem showsAt_up? (h : p.up? s = some q) : ∃ i, p.ShowsAt q s i := by
  unfold up? at h
  cases hentries : s.entries p.placeholder with
  | nil =>
    rw [hentries] at h
    cases h
  | cons newest older =>
    -- however far up, the entry is not past the oldest
    have hentry : ∀ next, (newest :: older)[min next older.length]? =
      some ((newest :: older).getD (min next older.length) newest) := by
      intro next
      have hlt : min next older.length < (newest :: older).length := Nat.lt_succ_of_le (Nat.min_le_right _ _)
      rw [List.getD_eq_getElem?_getD, List.getElem?_eq_getElem hlt, Option.getD_some]
    rw [hentries] at h
    cases h
    refine ⟨_, rfl, rfl, ?_⟩
    rw [hentries]
    exact hentry _

/-- **Going down** shows an entry, if one was shown. -/
theorem showsAt_down? (h : p.down? s = some q) : ∃ i, p.ShowsAt q s i := by
  unfold down? at h
  cases hshown : p.shown with
  | none =>
    rw [hshown] at h
    cases h
  | some i =>
    rw [hshown] at h
    obtain ⟨text, htext, rfl⟩ := Option.map_eq_some_iff.1 h
    exact ⟨_, rfl, rfl, htext⟩

theorem down?_eq_none_iff (hp : p.ShowsEntry s) : p.down? s = none ↔ p.shown = none := by
  unfold down?
  cases hshown : p.shown with
  | none => simp
  | some i =>
    have hlt := hp i hshown
    simp only [Option.map_eq_none_iff, List.getElem?_eq_none_iff, reduceCtorEq, iff_false]
    omega

end Prompt

/-! ## Prompts that share a store -/

/-- prompts, and the store they share -/
structure Prompts where
  store : HistoryStore
  all : List Prompt

namespace Prompts

/-- nothing recorded, and no prompt -/
def initial : Prompts :=
  ⟨.empty, []⟩

/-- what can happen; prompts are told apart by their place in the list -/
inductive Event where
  /-- one more prompt is opened -/
  | add (placeholder text : Text)
  | setText (i : Nat) (text : Text)
  | pushChar (i : Nat) (c : Char)
  | popChar (i : Nat)
  | confirm (i : Nat)
  | up (i : Nat)
  | down (i : Nat)
  /-- a text is recorded without a prompt -/
  | record (key text : Text)

/-- change one prompt, if it is there -/
def change (s : Prompts) (i : Nat) (f : Prompt → Prompt) : Prompts :=
  match s.all[i]? with
  | some p => { s with all := s.all.set i (f p) }
  | none => s

/-- one thing happens; a prompt that cannot go up or down stays as it is -/
def step (s : Prompts) : Event → Prompts
  | .add placeholder text => { s with all := s.all ++ [.make placeholder text] }
  | .setText i text => s.change i (·.setText text)
  | .pushChar i c => s.change i (·.pushChar c)
  | .popChar i => s.change i (·.popChar.2)
  | .confirm i =>
    match s.all[i]? with
    | some p => { store := (p.confirm s.store).2, all := s.all.set i (p.confirm s.store).1 }
    | none => s
  | .up i => s.change i fun p => (p.up? s.store).getD p
  | .down i => s.change i fun p => (p.down? s.store).getD p
  | .record key text => { s with store := s.store.record key text }

/-- one thing after another -/
def run (s : Prompts) (es : List Event) : Prompts :=
  es.foldl step s

/-- the key and the text that are recorded when something happens -/
def recorded? (s : Prompts) : Event → Option (Text × Text)
  | .confirm i => s.all[i]?.map fun p => (p.placeholder, p.text)
  | .record key text => some (key, text)
  | _ => none

/-- all that is recorded, in order -/
def records (s : Prompts) : List Event → List (Text × Text)
  | [] => []
  | e :: es => (s.recorded? e).toList ++ (s.step e).records es

/-- the texts among the records of a key, newest first -/
def textsOf (key : Text) (records : List (Text × Text)) : List Text :=
  ((records.filter (·.1 = key)).map Prod.snd).reverse

theorem textsOf_concat (key : Text) (records : List (Text × Text)) (k text : Text) :
    textsOf key (records ++ [(k, text)]) = if k = key then text :: textsOf key records else textsOf key records := by
  by_cases hk : k = key <;> simp [textsOf, hk]

/-- **The invariant**, behind some records: the lists hold the records, and the entries that prompts show are there -/
structure Consistent (records : List (Text × Text)) (s : Prompts) : Prop where
  entries : ∀ key, s.store.entries key = (textsOf key records).destutter (· ≠ ·)
  shown : ∀ p ∈ s.all, p.ShowsEntry s.store

theorem consistent_initial : Consistent [] initial where
  entries := fun _ => rfl
  shown := fun _ h => nomatch h

section

variable {s : Prompts} {records : List (Text × Text)}

/-- recording keeps the invariant, if every prompt is as it was or shows no entry -/
theorem Consistent.record (h : Consistent records s) (key text : Text) {all : List Prompt}
    (hall : ∀ p ∈ all, p ∈ s.all ∨ p.shown = none) :
    Consistent (records ++ [(key, text)]) ⟨s.store.record key text, all⟩ where
  entries := by
    intro k
    rw [HistoryStore.entries_record, textsOf_concat, h.entries]
    by_cases hk : key = k
    · rw [if_pos hk, destutter_cons]
      by_cases hnewest : ((textsOf k records).destutter (· ≠ ·)).head? = some text
      · rw [if_pos hnewest, if_neg fun hne => hne.2 hnewest]
      · rw [if_neg hnewest, if_pos ⟨hk.symm, hnewest⟩]
    · rw [if_neg hk, if_neg fun hne => hk hne.1.symm]
  shown := by
    intro p hp
    rcases hall p hp with hp | hnone
    · exact fun i hi => (h.shown p hp i hi).trans_le (s.store.entries_suffix_record key text p.placeholder).length_le
    · exact Prompt.showsEntry_of_none hnone

/-- changing one prompt keeps the invariant, if the entry that it then shows is there -/
theorem Consistent.change (h : Consistent records s) (i : Nat) {f : Prompt → Prompt}
    (hf : ∀ p, p.ShowsEntry s.store → (f p).ShowsEntry s.store) : Consistent records (s.change i f) := by
  unfold Prompts.change
  cases hi : s.all[i]? with
  | none => exact h
  | some p =>
    refine ⟨h.entries, fun q hq => ?_⟩
    rcases List.mem_or_eq_of_mem_set hq with hq | rfl
    · exact h.shown q hq
    · exact hf p (h.shown p (List.mem_of_getElem? hi))

/-- **One thing happens**, and the invariant is kept. -/
theorem Consistent.step (h : Consistent records s) (e : Event) :
    Consistent (records ++ (s.recorded? e).toList) (s.step e) := by
  have hquiet : s.recorded? e = none → Consistent records (s.step e) →
      Consistent (records ++ (s.recorded? e).toList) (s.step e) := by
    intro hnone hstep
    rwa [hnone, Option.toList_none, List.append_nil]
  cases e with
  | add placeholder text =>
    refine hquiet rfl ⟨h.entries, fun p hp => ?_⟩
    rcases List.mem_append.1 hp with hp | hp
    · exact h.shown p hp
    · exact Prompt.showsEntry_of_none (List.mem_singleton.1 hp ▸ rfl)
  | setText i text => exact hquiet rfl (h.change i fun p hp => hp)
  | pushChar i c => exact hquiet rfl (h.change i fun p hp => hp)
  | popChar i => exact hquiet rfl (h.change i fun p hp => hp)
  | confirm i =>
    simp only [Prompts.step, recorded?] at hquiet ⊢
    cases hi : s.all[i]? with
    | none =>
      rw [hi] at hquiet
      exact hquiet rfl h
    | some p =>
      refine h.record p.placeholder p.text fun q hq => ?_
      rcases List.mem_or_eq_of_mem_set hq with hq | rfl
      · exact .inl hq
      · exact .inr rfl
  | up i =>
    refine hquiet rfl (h.change i fun p hp => ?_)
    cases hup : p.up? s.store with
    | none => exact hp
    | some q =>
      obtain ⟨k, hk⟩ := Prompt.showsAt_up? hup
      exact hk.showsEntry
  | down i =>
    refine hquiet rfl (h.change i fun p hp => ?_)
    cases hdown : p.down? s.store with
    | none => exact hp
    | some q =>
      obtain ⟨k, hk⟩ := Prompt.showsAt_down? hdown
      exact hk.showsEntry
  | record key text => exact h.record key text fun p hp => .inl hp

theorem Consistent.run (h : Consistent records s) (es : List Event) :
    Consistent (records ++ s.records es) (s.run es) := by
  induction es generalizing s records with
  | nil =>
    rw [Prompts.records, List.append_nil]
    exact h
  | cons e es ih =>
    rw [Prompts.records, ← List.append_assoc]
    exact ih (h.step e)

end

/-- **Histories stay consistent.** Prompts are opened, typed in, confirmed and browsed up and down in any order, and
texts are recorded besides. Then the entries of every key are the texts recorded under it, newest first, each run of the
same text collapsed to one, and recording under one key leaves the others alone. A prompt that goes up or down shows an
entry of its own key; it cannot go up only if there is none, and it cannot go down only if it shows none. -/
theorem histories_stay_consistent (es : List Event) :
    let s := initial.run es
    (∀ key, s.store.entries key = (textsOf key (initial.records es)).destutter (· ≠ ·)) ∧
      (∀ key text k, k ≠ key → (s.store.record key text).entries k = s.store.entries k) ∧
      ∀ p ∈ s.all,
        (∀ q, p.up? s.store = some q → q.placeholder = p.placeholder ∧ q.text ∈ s.store.entries p.placeholder) ∧
        (∀ q, p.down? s.store = some q → q.placeholder = p.placeholder ∧ q.text ∈ s.store.entries p.placeholder) ∧
        (p.up? s.store = none ↔ s.store.entries p.placeholder = []) ∧
        (p.down? s.store = none ↔ p.shown = none) := by
  intro s
  have hs : Consistent (initial.records es) s := consistent_initial.run es
  refine ⟨hs.entries, fun key text k hk => ?_, fun p hp => ⟨fun q hq => ?_, fun q hq => ?_, ?_, ?_⟩⟩
  · rw [HistoryStore.entries_record, if_neg fun h => hk h.1]
  · obtain ⟨i, hi⟩ := Prompt.showsAt_up? hq
    exact ⟨hi.placeholder, List.mem_of_getElem? hi.text⟩
  · obtain ⟨i, hi⟩ := Prompt.showsAt_down? hq
    exact ⟨hi.placeholder, List.mem_of_getElem? hi.text⟩
  · exact Prompt.up?_eq_none_iff
  · exact Prompt.down?_eq_none_iff (hs.shown p hp)

/-- while a prompt shows the older of two texts another one confirms a third, and down leads to that -/
example :
    let confirmed := initial.run [.add ['f'] ['a'], .add ['f'] [], .confirm 0, .confirm 0, .setText 0 ['b'], .confirm 0]
    let browsed := confirmed.run [.up 1, .up 1, .setText 0 ['c'], .confirm 0]
    (confirmed.store.entries ['f'] = [['b'], ['a']] ∧ browsed.store.entries ['f'] = [['c'], ['b'], ['a']]) ∧
      browsed.all.map Prompt.text = [['c'], ['a']] ∧ (browsed.step (.down 1)).all.map Prompt.text = [['c'], ['c']] := by
  decide

end Prompts

end CodeEditor
