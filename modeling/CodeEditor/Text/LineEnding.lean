import CodeEditor.Text.Basic
/-!
Line endings on disk.

In memory a line ends in LF. Text from outside is normalised first: CR LF and a lone CR become LF. Saving writes the
ending that was detected on opening: one CR LF anywhere makes a text a CR LF text.
-/

namespace CodeEditor

/-- the ending that saving writes -/
inductive LineEnding where
  | lf
  | crlf
  deriving DecidableEq, Repr

namespace Text

/-- CR LF and lone CR become LF -/
def normalizeNewlines : Text → Text
  | [] => []
  | '\r' :: '\n' :: t => '\n' :: normalizeNewlines t
  | '\r' :: t => '\n' :: normalizeNewlines t
  | c :: t => c :: normalizeNewlines t

/-- some CR is followed by an LF -/
def hasCrlf : Text → Bool
  | [] => false
  | '\r' :: '\n' :: _ => true
  | _ :: t => hasCrlf t

end Text

namespace LineEnding

/-- CR LF if the text holds any, else LF -/
def detect (t : Text) : LineEnding :=
  if t.hasCrlf then .crlf else .lf

/-- a text with LF line ends, written with this ending -/
def write : LineEnding → Text → Text
  | .lf, t => t
  | .crlf, t => t.flatMap fun c => if c = '\n' then ['\r', '\n'] else [c]

end LineEnding

end CodeEditor
