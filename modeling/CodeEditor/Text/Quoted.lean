import CodeEditor.Text.Basic
import CodeEditor.Text.Unprintable
/-!
Quoted display of characters and texts.

A character stands between single quotes and a text between double quotes. The quote in use, the backslash and the four
characters NUL, tab, LF and CR are escaped by a letter, unprintable characters by their code point in hexadecimal, and
all others stand for themselves.
-/

namespace CodeEditor.Quoted

/-- one digit of a hexadecimal number -/
def hexDigit (n : Nat) : Char :=
  if n < 10 then Char.ofNat ('0'.toNat + n) else Char.ofNat ('a'.toNat + (n - 10))

/-- a number in hexadecimal, without leading zeros -/
def hex (n : Nat) : Text :=
  if _h : n < 16 then [hexDigit n] else hex (n / 16) ++ [hexDigit (n % 16)]
termination_by n
decreasing_by omega

/-- a character inside the given quotes -/
def escape (quote c : Char) : Text :=
  if c = quote || c = '\\' then ['\\', c]
  else if c = nul then ['\\', '0']
  else if c = '\t' then ['\\', 't']
  else if c = '\n' then ['\\', 'n']
  else if c = '\r' then ['\\', 'r']
  else if Ranges.unprintable.has c.toNat then '\\' :: 'u' :: '{' :: hex c.toNat ++ ['}']
  else [c]

/-- a character between single quotes -/
def char (c : Char) : Text :=
  '\'' :: escape '\'' c ++ ['\'']

/-- a text between double quotes -/
def text (t : Text) : Text :=
  '"' :: t.flatMap (escape '"') ++ ['"']

end CodeEditor.Quoted
