import CodeEditor.Pattern.CharSet
/-!
Sets of characters that have names, such as `\p{Alphabetic}` in a pattern.

Which names there are, and which characters have them, the tables of the Unicode Standard say: hundreds of properties,
categories and scripts. They are a parameter of everything that reads patterns (`UnicodeClasses`). A program that runs
has the few tables of `UnicodeClasses.standard`: the sets that patterns need anyway, under each of their names.
-/

namespace CodeEditor

/-- the named sets of the Unicode Standard -/
class UnicodeClasses where
  /-- the set with a name, given as it is written: a single letter, or what stands between the braces. How a property
  and its value are told apart in it is for the tables to say -/
  ranges? (name : Text) : Option Ranges

namespace UnicodeClasses

/-- a name in its plain spelling: case, spaces, underscores and hyphens do not count, nor does `is` at the start -/
def plainName (name : Text) : Text :=
  let name := match name with
    | i :: s :: rest => if i.toLower == 'i' && s.toLower == 's' then rest else name
    | name => name
  (name.filter fun c => isAscii c && c != ' ' && c != '_' && c != '-').map Char.toLower

/-- the sets that have a table, under their plain names -/
def known : List (List String × Ranges) :=
  [(["any"], .characters 0 0x110000),
   (["ascii"], [(0, 0x7f)]),
   (["alphabetic", "alpha"], .alphabetic),
   (["whitespace", "wspace", "space"], .whiteSpace),
   (["decimalnumber", "digit", "nd"], .decimalDigits),
   (["connectorpunctuation", "pc"], .connectors),
   (["joincontrol", "joinc"], .joiners),
   (["control", "cntrl", "cc"], [(0, 0x1f), (0x7f, 0x9f)])]

/-- the named sets of a program that runs; all other names are errors there -/
instance standard : UnicodeClasses where
  ranges? name := (known.find? fun entry => entry.1.contains (String.ofList (plainName name))).map (·.2)

end UnicodeClasses

end CodeEditor
