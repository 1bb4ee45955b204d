/-!
A one-shot timer driven by clock readings in milliseconds.

Arming it again moves the deadline back, so that a burst of events fires once, `delay` after the last of them.
-/

namespace CodeEditor

/-- fires once, `delay` after it was armed last -/
structure Timer where
  delay : Nat
  deadline : Option Nat
  deriving DecidableEq, Repr

namespace Timer

/-- not armed -/
def ofDelay (delay : Nat) : Timer :=
  ⟨delay, none⟩

/-- arm at a clock reading -/
def schedule (t : Timer) (now : Nat) : Timer :=
  { t with deadline := some (now + t.delay) }

/-- disarm -/
def cancel (t : Timer) : Timer :=
  { t with deadline := none }

/-- armed -/
def isPending (t : Timer) : Bool :=
  t.deadline.isSome

/-- fire if the deadline has passed, which disarms the timer -/
def fireIfDue (t : Timer) (now : Nat) : Bool × Timer :=
  match t.deadline with
  | none => (false, t)
  | some deadline => if deadline ≤ now then (true, t.cancel) else (false, t)

end Timer

end CodeEditor
