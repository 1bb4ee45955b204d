import CodeEditor.Text.Basic
import CodeEditor.Text.CellWidth
import CodeEditor.Text.Emoji
/-!
How many cells of a terminal row a text takes.

Mostly that is the sum over its characters, but some characters are drawn as one: an emoji with its variation selector,
skin tone or joined neighbours, and the ligatures that some scripts always have. So a text is measured from its end:
each character adds to the cells of what follows it, and may take back cells that have been counted
(`Measure.addChar`). Controls count one.
-/

namespace CodeEditor

/-- a letter that ends a ligature, or the part of one that has been read -/
inductive LigatureEnd where
  | alef
  | lamed
  | ya
  /-- the vowel sign before a joined `ya` -/
  | vowelYa
  | tifinagh
  /-- the consonant joiner before a `tifinagh` -/
  | joinedTifinagh
  | lisuTone
  | orkhon
  | khmer
  | kiratE
  | kiratAi
  deriving DecidableEq, Repr

/-- what follows a character, as far as it changes the cells of the character -/
inductive Follower where
  | other
  | lineFeed
  | skinTone
  | emoji
  /-- a joiner and an emoji -/
  | joinedEmoji
  /-- a keycap, a joiner and an emoji -/
  | joinedKeycap
  | indicator
  /-- several regional indicators -/
  | indicators
  /-- regional indicators before a joiner and an emoji; all in pairs if `paired` -/
  | joinedIndicators (first paired : Bool)
  /-- the end of a ligature; there is a joiner before it if `joined` -/
  | ligature (letter : LigatureEnd) (joined : Bool)
  deriving DecidableEq, Repr

/-- a variation selector between a character and what follows -/
inductive Selector where
  | text
  | emoji
  deriving DecidableEq, Repr

/-- the end of a text, as far as it has been measured -/
structure Measure where
  cells : Int
  follower : Follower
  selector : Option Selector
  deriving DecidableEq, Repr

namespace Follower

/-- the end of a ligature; marks that draw nothing do not part it from what comes before -/
def isLigature : Follower → Bool
  | ligature _ _ => true
  | _ => false

/-- a joiner and an emoji, perhaps with a keycap before -/
def isJoined : Follower → Bool
  | joinedEmoji | joinedKeycap => true
  | _ => false

end Follower

/-! ## Single characters -/

/-- a mark that draws nothing and does not part a ligature -/
def isLigatureMark (c : Char) : Bool :=
  let n := c.toNat
  n = 0x34f || n = 0x17b4 || n = 0x17b5 || (0x180b ≤ n && n ≤ 0x180d) || n = 0x180f || (0xfe00 ≤ n && n ≤ 0xfe0f) ||
    (0xe0100 ≤ n && n ≤ 0xe01ef)

/-- the Arabic letters that make a ligature with an alef behind them -/
def isLam (c : Char) : Bool :=
  let n := c.toNat
  n = 0x644 || (0x6b5 ≤ n && n ≤ 0x6b8) || n = 0x76a || n = 0x8a6 || n = 0x8c7

/-- the Arabic letter alef with its variants -/
def isAlef (c : Char) : Bool :=
  let n := c.toNat
  n = 0x622 || n = 0x623 || n = 0x625 || n = 0x627 || (0x671 ≤ n && n ≤ 0x673) || n = 0x675 || n = 0x773 || n = 0x774 ||
    (0x870 ≤ n && n ≤ 0x882)

/-- a mark between two Arabic letters that lets them join -/
def isTransparent (c : Char) : Bool :=
  cellWidth c = 0 && !Ranges.unjoining.has c.toNat

/-- a consonant of Tifinagh -/
def isTifinagh (c : Char) : Bool :=
  let n := c.toNat
  (0x2d31 ≤ n && n ≤ 0x2d65) || n = 0x2d6f

/-- a letter of Khmer that can stand below another one -/
def isKhmerSubscript (c : Char) : Bool :=
  let n := c.toNat
  Ranges.has [(0x1780, 0x1782), (0x1784, 0x1787), (0x1789, 0x178c), (0x178e, 0x1793), (0x1795, 0x1798),
    (0x179b, 0x179d),
    (0x17a0, 0x17a0), (0x17a2, 0x17a2), (0x17a7, 0x17a7), (0x17ab, 0x17ac), (0x17af, 0x17af)] n

/-- the ligature that a letter can end -/
def ligatureEnd? (c : Char) : Option LigatureEnd :=
  let n := c.toNat
  if isAlef c then some .alef
  else if n = 0x5dc then some .lamed
  else if n = 0x1a10 then some .ya
  else if isTifinagh c then some .tifinagh
  else if n = 0xa4fc || n = 0xa4fd then some .lisuTone
  else if n = 0x10c03 then some .orkhon
  else if isKhmerSubscript c then some .khmer
  else if n = 0x16d67 then some .kiratE
  else if n = 0x16d68 then some .kiratAi
  else none

/-- a character as it is seen from the one before it -/
def Follower.ofChar (c : Char) : Follower :=
  if isIndicator c then .indicator
  else if isSkinTone c then .skinTone
  else if Ranges.emoji.has c.toNat then .emoji
  else match ligatureEnd? c with
    | some letter => .ligature letter false
    | none => .other

/-- asked for text, the emoji takes one cell -/
def hasTextStyle (c : Char) : Bool :=
  Ranges.styled.has c.toNat && Ranges.emoji.has c.toNat && !(0x1f200 ≤ c.toNat && c.toNat ≤ 0x1f2ff)

/-! ## Pairs -/

/-- a letter before the end of a ligature: the cells that it adds, and what both are seen as -/
def LigatureEnd.join? (c : Char) (letter : LigatureEnd) (joined : Bool) : Option (Int × Follower) :=
  let n := c.toNat
  match letter with
  | .alef =>
    if joined then none
    else if isLam c then some (0, .other)
    else if isTransparent c then some (0, .ligature .alef false)
    else none
  | .lamed => if joined && n = 0x5d0 then some (0, .other) else none
  | .ya => if joined && n = 0x1a17 then some (0, .ligature .vowelYa false) else none
  | .vowelYa => if n = 0x1a15 then some (0, .other) else none
  | .tifinagh =>
    if n = 0x2d7f then some (1, .ligature .joinedTifinagh false)
    else if joined && isTifinagh c then some (0, .other)
    else none
  | .joinedTifinagh => if isTifinagh c then some (-1, .other) else none
  | .lisuTone => if 0xa4f8 ≤ n && n ≤ 0xa4fb then some (0, .other) else none
  | .orkhon => if joined && n = 0x10c32 then some (0, .other) else none
  | .khmer => if n = 0x17d2 then some (-1, .other) else none
  | .kiratE =>
    if n = 0x16d67 then some (0, .ligature .kiratAi false)
    else if n = 0x16d63 || n = 0x16d69 then some (0, .other)
    else none
  | .kiratAi => if n = 0x16d63 then some (0, .other) else none

/-- a character before another one that it is drawn as one with: the cells that it adds, and what both are seen as -/
def Follower.join? (c : Char) : Follower → Option (Int × Follower)
  | .ligature letter joined =>
    if c = zeroWidthJoiner then some (0, .ligature letter true)
    else if isLigatureMark c then some (0, .ligature letter joined)
    else letter.join? c joined
  | .skinTone =>
    if c = zeroWidthJoiner then some (0, .joinedEmoji)
    else if Ranges.toned.has c.toNat then some (0, .emoji)
    else none
  | .emoji => if c = zeroWidthJoiner then some (0, .joinedEmoji) else none
  | .joinedEmoji =>
    if c.toNat = 0x20e3 then some (0, .joinedKeycap)
    else match Follower.ofChar c with
      | .indicator => some (1, .joinedIndicators true false)
      | .skinTone => some (0, .skinTone)
      | .emoji => some (0, .emoji)
      | _ => none
  | .indicator => if isIndicator c then some (1, .indicators) else none
  | .indicators =>
    if isIndicator c then some (1, .indicators)
    else if c = zeroWidthJoiner then some (0, .joinedEmoji)
    else none
  | .joinedIndicators first paired =>
    if isIndicator c then some (if paired then (3, .joinedIndicators false false)
      else (-1, .joinedIndicators false true))
    else if c = zeroWidthJoiner && !first then some (0, .joinedEmoji)
    else none
  | .other | .lineFeed | .joinedKeycap => none

namespace Measure

/-- nothing measured yet -/
def empty : Measure :=
  ⟨0, .other, none⟩

/-- count a character of which the cells and the look from before are known -/
def add (m : Measure) (cells : Int) (follower : Follower) : Measure :=
  ⟨m.cells + cells, follower, none⟩

/-- leave out a selector that the character before it has no use for -/
def dropSelector (m : Measure) : Measure :=
  match m.selector with
  | none => m
  | some _ => ⟨m.cells, if m.follower.isLigature then m.follower else .other, none⟩

/-- add a selector; what follows it is seen through it only if it belongs to a ligature or, for an emoji, is joined -/
def select (m : Measure) (s : Selector) : Measure :=
  let seen := m.follower.isLigature || (s == .emoji && m.follower.isJoined)
  ⟨m.cells, if seen then m.follower else .other, some s⟩

/-- count a character that no selector bears on -/
def addPlain (m : Measure) (c : Char) : Measure :=
  if c.toNat ≤ 0xa0 then
    if c = '\n' then m.add 1 .lineFeed
    else if c = '\r' && m.follower == .lineFeed then m.add 0 .other
    else m.add 1 .other
  else match m.follower.join? c with
    | some (cells, follower) => m.add cells follower
    | none => m.add (cellWidth c) (.ofChar c)

/-- count the character before the measured end of a text -/
def addChar (c : Char) (m : Measure) : Measure :=
  if m.selector == some .emoji && Ranges.styled.has c.toNat then m.add (if m.follower.isJoined then 0 else 2) .emoji
  else
    let m := if m.selector == some .emoji then m.dropSelector else m
    if c = emojiSelector then m.select .emoji
    else if c = textSelector then m.select .text
    else if m.selector == some .text && hasTextStyle c then m.add 1 .other
    else m.dropSelector.addPlain c

end Measure

/-- measure a text from its end -/
def Measure.ofText (t : Text) : Measure :=
  t.foldr addChar empty

/-- number of cells of a text -/
def textWidth (t : Text) : Nat :=
  (Measure.ofText t).cells.toNat

end CodeEditor
