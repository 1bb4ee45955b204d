/-!
Keys and modifiers as a host reports them.
-/

namespace CodeEditor

/-- the keys that the editor knows -/
inductive Key where
  | enter
  | tab
  | backTab
  | backspace
  | delete
  | home
  /-- the End key -/
  | stop
  | up
  | down
  | left
  | right
  | char (c : Char)
  deriving DecidableEq, Repr

/-- modifier keys held down -/
structure Modifiers where
  shift : Bool
  control : Bool
  alt : Bool
  command : Bool
  deriving DecidableEq, Repr

/-- no modifier -/
def Modifiers.none : Modifiers :=
  ⟨false, false, false, false⟩

/-- Tab with Shift, in either of the two ways terminals report it -/
def Key.isUnindent (key : Key) (mods : Modifiers) : Bool :=
  key == .backTab || (key == .tab && mods.shift)

/-- what a key handler did -/
inductive KeyOutcome where
  /-- the key has had its effect -/
  | handled
  /-- the key has its usual effect -/
  | passThrough
  deriving DecidableEq, Repr

end CodeEditor
