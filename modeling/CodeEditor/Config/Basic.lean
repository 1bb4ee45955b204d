import CodeEditor.Config.Json
import CodeEditor.Indent.Unit
/-!
Configuration of a session.

A document is an object with any of the six fields, or an array of their values in order; what is missing keeps its
default. Unknown fields of an object are skipped, whatever they hold. A known field given twice is an error, and so is
an array of more than six values. The indent unit that the document gives has to be one.
-/

namespace CodeEditor

/-- how a session behaves -/
structure Config where
  tabChar : Char
  tabSize : Nat
  /-- infer the indent unit from the text on opening -/
  inferUnit : Bool
  /-- Tab indents the whole line; otherwise, without a selection, it inserts at the cursor -/
  tabIndentsLine : Bool
  /-- clean whitespace before saving -/
  cleanupOnSave : Bool
  /-- milliseconds that the text has to be left alone before idle work is done -/
  idleDelay : Nat
  deriving DecidableEq, Repr

namespace Config

/-- the values of fields that are not given -/
def default : Config :=
  ⟨' ', 2, true, true, false, 100⟩

/-- the configured indent unit, two spaces if it is none -/
def indentUnit (c : Config) : IndentUnit :=
  match IndentUnit.make c.tabChar c.tabSize with
  | .ok unit => unit
  | .error _ => IndentUnit.default

/-! ## Documents -/

/-- a string of one character -/
def charOf? : Json → Option Char
  | .string pieces =>
    match Json.text? pieces with
    | some [c] => some c
    | _ => none
  | _ => none

/-- an unsigned 64-bit number, written in digits alone -/
def natOf? : Json → Option Nat
  | .number written =>
    if written.all Char.isDigit then Text.toWord? written else none
  | _ => none

/-- `true` or `false` -/
def boolOf? : Json → Option Bool
  | .bool b => some b
  | _ => none

/-- the fields by name, in the order of an array, each with how it is set -/
def setters : List (Text × (Config → Json → Option Config)) :=
  [("default_tab_char".toList, fun c v => (charOf? v).map fun x => { c with tabChar := x }),
   ("default_tab_size".toList, fun c v => (natOf? v).map fun x => { c with tabSize := x }),
   ("auto_tab_char_and_size".toList, fun c v => (boolOf? v).map fun x => { c with inferUnit := x }),
   ("tab_indents_line".toList, fun c v => (boolOf? v).map fun x => { c with tabIndentsLine := x }),
   ("cleanup_whitespace_characters".toList, fun c v => (boolOf? v).map fun x => { c with cleanupOnSave := x }),
   ("idle_delay_ms".toList, fun c v => (natOf? v).map fun x => { c with idleDelay := x })]

/-- set fields in the order of an array -/
def ofItems? (c : Config) : List (Text × (Config → Json → Option Config)) → List Json → Option Config
  | _, [] => some c
  | [], _ :: _ => none
  | (_, set) :: rest, v :: vs =>
    match set c v with
    | none => none
    | some c => ofItems? c rest vs

/-- set fields by name; `seen` are the names given so far -/
def ofFields? (c : Config) (seen : List Text) : List (List Json.Piece × Json) → Option Config
  | [] => some c
  | (key, v) :: rest =>
    match Json.text? key with
    | none => none
    | some name =>
      match setters.lookup name with
      | none => ofFields? c seen rest
      | some set =>
        if seen.contains name then none
        else match set c v with
          | none => none
          | some c => ofFields? c (name :: seen) rest

/-- the configuration of a document, its unit not looked at -/
def ofJson? : Json → Option Config
  | .array items => ofItems? default setters items
  | .object fields => ofFields? default [] fields
  | _ => none

/-- the configuration that a document gives -/
def ofDocument (document : Text) : Except Error Config :=
  match (Json.ofText? document).bind ofJson? with
  | none => .error .invalidConfig
  | some c =>
    match IndentUnit.make c.tabChar c.tabSize with
    | .error e => .error e
    | .ok _ => .ok c

end Config

end CodeEditor
