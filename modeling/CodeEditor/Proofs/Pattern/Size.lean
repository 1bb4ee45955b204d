import CodeEditor.Proofs.Pattern.Literal
import Mathlib.Tactic
/-!
Which plain texts can be compiled.

A quoted text is always a pattern, but its machines may be too large. Every byte of the text in UTF-8 takes one
state in either direction, and a few states come before and behind them. So a blueprint is taken for what it
adds to a machine (`Blueprint.Adds`), and the literals of a text that is not empty fit exactly up to a number of
bytes (`fits_ofText_iff`).
-/

namespace CodeEditor

/-- number of bytes in UTF-8 -/
def Text.byteLength (t : Text) : Nat :=
  (t.map Char.utf8Size).sum

namespace Machine

variable {m : Machine}

theorem add_add (m : Machine) (states extra states' extra' : Nat) :
    (m.add states extra).add states' extra' = m.add (states + states') (extra + extra') := by
  simp only [add, Nat.add_assoc]

theorem size_le_size_add (m : Machine) (states extra : Nat) : m.size ≤ (m.add states extra).size := by
  simp only [add, size, stateSize]
  omega

/-- what has grown too large stays so -/
theorem checked?_add_of_none (h : m.checked? = none) (states extra : Nat) : (m.add states extra).checked? = none := by
  have hle := m.size_le_size_add states extra
  rw [checked?] at h ⊢
  split_ifs at h with hfits
  exact if_neg (by omega)

theorem eq_of_checked? {n : Machine} (h : m.checked? = some n) : n = m := by
  rw [checked?] at h
  split_ifs at h
  exact (Option.some.inj h).symm

end Machine

namespace Blueprint

variable {direction : Direction} {p q : Blueprint} {states extra states' extra' : Nat}

/-- building adds that much to a machine, unless it gets too large -/
def Adds (direction : Direction) (p : Blueprint) (states extra : Nat) : Prop :=
  ∀ m : Machine, p.build? direction m = (m.add states extra).checked?

theorem adds_part (direction : Direction) (states extra : Nat) :
    (part states extra).Adds direction states extra := fun _ => rfl

/-- one part behind another -/
theorem Adds.both (hp : p.Adds direction states extra) (hq : q.Adds direction states' extra') :
    (Blueprint.both p q).Adds direction (states + states') (extra + extra') := by
  intro m
  rw [build?, hp, ← m.add_add]
  cases hfirst : (m.add states extra).checked? with
  | none => rw [Machine.checked?_add_of_none hfirst, Option.bind_none]
  | some n => rw [Option.bind_some, hq, Machine.eq_of_checked? hfirst]

end Blueprint

namespace Pattern

/-- the characters of a text, one after the other -/
def ofText (u : Text) : Pattern :=
  ofFactors (u.map fun c => .set (.char c))

variable {u : Text}

theorem ofText_cons (c d : Char) (u : Text) : ofText (c :: d :: u) = seq (.set (.char c)) (ofText (d :: u)) := rfl

/-- **Every byte takes a state.** -/
theorem adds_ofText (direction : Direction) (hu : u ≠ []) :
    (assemble direction (ofText u) ((ofText u).blueprints direction)).Adds direction u.byteLength 0 := by
  induction u with
  | nil => exact absurd rfl hu
  | cons c u ih =>
    have hfirst := Blueprint.adds_part direction c.utf8Size 0
    cases u with
    | nil => exact hfirst
    | cons d u =>
      have hrest := ih (List.cons_ne_nil _ _)
      rw [ofText_cons]
      cases direction with
      | forward => exact hfirst.both hrest
      | backward =>
        have hlen : Text.byteLength (c :: d :: u) = Text.byteLength (d :: u) + c.utf8Size := by
          rw [Text.byteLength, List.map_cons, List.sum_cons, Nat.add_comm]
          rfl
        rw [hlen]
        exact hrest.both hfirst

theorem startsAt_ofText (a : Anchor) (u : Text) : (ofText u).startsAt a = false := by
  induction u with
  | nil => rfl
  | cons c u ih =>
    cases u with
    | nil => rfl
    | cons d u => rfl

theorem endsAt_ofText (a : Anchor) (u : Text) : (ofText u).endsAt a = false := by
  induction u with
  | nil => rfl
  | cons c u ih =>
    cases u with
    | nil => rfl
    | cons d u =>
      rw [ofText_cons, endsAt, ih]
      simp [endsAt]

/-- **The texts that fit**: one state for each byte, and six more with sixteen bytes beside them -/
theorem fits_ofText_iff (hu : u ≠ []) :
    (ofText u).fits = true ↔ (u.byteLength + 6) * Machine.stateSize + 16 ≤ Machine.maxSize := by
  have hbuilt {direction : Direction} {p : Blueprint} {states extra : Nat} (h : p.Adds direction states extra) :
      (p.build? direction .empty).isSome = true ↔ states * Machine.stateSize + extra ≤ Machine.maxSize := by
    rw [h, Machine.checked?, Machine.size, Machine.add, Machine.empty]
    simp
  have hforward : ((ofText u).blueprint .forward).Adds .forward (3 + (1 + (u.byteLength + (2 + 0))))
    (16 + (0 + (0 + (0 + 0)))) := by
    rw [blueprint, startsAt_ofText]
    exact (Blueprint.adds_part _ 3 16).both ((Blueprint.adds_part _ 1 0).both ((adds_ofText _ hu).both
      ((Blueprint.adds_part _ 2 0).both (Blueprint.adds_part _ 0 0))))
  have hbackward : ((ofText u).blueprint .backward).Adds .backward (3 + (u.byteLength + (1 + 0)))
    (16 + (0 + (0 + 0))) := by
    rw [blueprint, endsAt_ofText]
    exact (Blueprint.adds_part _ 3 16).both
      ((adds_ofText _ hu).both ((Blueprint.adds_part _ 1 0).both (Blueprint.adds_part _ 0 0)))
  rw [fits, Bool.and_eq_true, hbuilt hforward, hbuilt hbackward]
  simp only [Machine.stateSize]
  omega

end Pattern

end CodeEditor
