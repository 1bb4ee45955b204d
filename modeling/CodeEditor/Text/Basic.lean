/-!
Text as a list of characters, and the few ways the editor cuts it.

Every offset, column and length of this library counts characters. Reading past the end is allowed everywhere and gives
the NUL character (`Text.charAt`); cutting clamps to the text (`Text.slice`). *Blanks* are the space and the tab, the
only characters that count as indentation.
-/

namespace CodeEditor

/-- a text: its characters in order -/
abbrev Text := List Char

/-- a space or a tab -/
def isBlank (c : Char) : Bool :=
  c == ' ' || c == '\t'

/-- a character of a class is none of those outside -/
theorem ne_of_class {p : Char → Bool} {c d : Char} (h : p c = true) (hd : p d = false) : c ≠ d := by
  rintro rfl
  rw [h] at hd
  cases hd

/-- what reading at or after the end of a text gives -/
def nul : Char := '\x00'

namespace Text

/-- the character at an offset, NUL at and after the end -/
def charAt (t : Text) (offset : Nat) : Char :=
  t.getD offset nul

/-- the characters in `[start, stop)`, both clamped to the text -/
def slice (t : Text) (start stop : Nat) : Text :=
  (t.drop start).take (stop - start)

/-- every character is a blank -/
def allBlank (t : Text) : Bool :=
  t.all isBlank

/-- the leading run of blanks -/
def indentation (t : Text) : Text :=
  t.takeWhile isBlank

/-- the text without its leading run of blanks -/
def content (t : Text) : Text :=
  t.dropWhile isBlank

/-- the text without its longest ending of characters that satisfy `p` -/
def dropEndWhile (p : Char → Bool) (t : Text) : Text :=
  (t.reverse.dropWhile p).reverse

/-- the text without its trailing blanks -/
def trimEnd (t : Text) : Text :=
  t.dropEndWhile isBlank

/-- what follows `start` when the text starts with it -/
def after? (start t : Text) : Option Text :=
  if start.isPrefixOf t then some (t.drop start.length) else none

/-- the pieces between the separators: one more piece than separators -/
def splitOn (separator : Char) : Text → List Text
  | [] => [[]]
  | c :: t =>
    if c = separator then [] :: splitOn separator t
    else match splitOn separator t with
      | [] => [[c]]
      | piece :: pieces => (c :: piece) :: pieces

/-- the offset of a character counted from `start`, or `none` -/
def find? (c : Char) (t : Text) : Option Nat :=
  t.findIdx? (· == c)

/-- a natural number in decimal digits -/
def ofNat (n : Nat) : Text :=
  (toString n).toList

/-- the number that decimal digits stand for -/
def toNat (digits : Text) : Nat :=
  digits.foldl (fun n c => n * 10 + (c.toNat - '0'.toNat)) 0

/-- the number that decimal digits stand for, if it is an unsigned 64-bit number -/
def toWord? (digits : Text) : Option Nat :=
  if toNat digits < UInt64.size then some (toNat digits) else none

end Text

end CodeEditor
