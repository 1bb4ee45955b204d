import CodeEditor.Text.Quoted
/-!
What can go wrong.

Editing never fails. Errors come from values that a host passes in: an indent unit, a line to go to, a search text, a
classifier rule, a configuration document, a file.
-/

namespace CodeEditor

/-- the causes of failure -/
inductive Error where
  /-- an indent unit must be one or more spaces, or one or more tabs -/
  | invalidIndentUnit (ch : Char) (width : Nat)
  /-- a line past the last one was asked for -/
  | lineOutOfRange (line lineCount : Nat)
  /-- a search for nothing -/
  | emptySearch
  /-- a search pattern that is not a pattern, as it was compiled -/
  | invalidSearchPattern (pattern : Text)
  /-- a classifier rule that is not a pattern -/
  | invalidRule
  /-- a configuration document that cannot be read -/
  | invalidConfig
  /-- a file that cannot be read -/
  | unreadable
  deriving DecidableEq, Repr

/-- the text shown for an error -/
def Error.message : Error → Text
  | .invalidIndentUnit ch width =>
    "invalid indent unit: ".toList ++ Text.ofNat width ++ " x ".toList ++ Quoted.char ch
  | .lineOutOfRange line lineCount =>
    "line ".toList ++ Text.ofNat line ++ " is out of range (buffer has ".toList ++ Text.ofNat lineCount ++
      " lines)".toList
  | .emptySearch => "search pattern is empty".toList
  | .invalidSearchPattern pattern => "regex compile error for pattern '".toList ++ pattern ++ ['\'']
  | .invalidRule => "regex compile error".toList
  | .invalidConfig => "config parse error".toList
  | .unreadable => "I/O error".toList

end CodeEditor
