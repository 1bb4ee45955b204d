import CodeEditor.Error
import CodeEditor.Language
import CodeEditor.Pattern.Regex
import CodeEditor.Spans
/-!
Finding comments and strings by patterns.

A classifier has a list of rules, each a pattern with the kind of span it stands for. Its patterns are joined into one,
each in a group of its own, so that the leftmost match decides, an earlier rule wins at the same place, and a mark of
one rule inside a match of another one does not count.

`Classifier.forLanguage` has the usual rules of a language: block comments, line comments and strings in double quotes.
A block comment without an end goes to the end of the text, a string without an end to the end of its line.
-/

namespace CodeEditor

/-- a pattern and what its matches are -/
structure Rule where
  pattern : Text
  kind : SpanKind
  deriving DecidableEq, Repr

namespace Rule

/-- a rule whose pattern compiles -/
def make [UnicodeClasses] (pattern : Text) (kind : SpanKind) : Except Error Rule :=
  match Regex.compile? .default pattern with
  | none => .error .invalidRule
  | some _ => .ok ⟨pattern, kind⟩

end Rule

/-- a joined pattern and the group of each rule; without rules there is no pattern -/
structure Classifier where
  regex : Option Regex
  groups : List (Nat × SpanKind)
  deriving DecidableEq, Repr

namespace Classifier

/-- the groups of rules in a joined pattern: each takes one for itself and as many as its pattern
has; `next` is the first -/
def groupsFrom [UnicodeClasses] (next : Nat) : List Rule → Except Error (List (Nat × SpanKind))
  | [] => .ok []
  | rule :: rest =>
    match Regex.compile? .default rule.pattern with
    | none => .error .invalidRule
    | some r =>
      match groupsFrom (next + 1 + r.pattern.groups) rest with
      | .error e => .error e
      | .ok groups => .ok ((next, rule.kind) :: groups)

/-- the joined pattern of some rules -/
def join (rules : List Rule) : Text :=
  ['|'].intercalate (rules.map fun rule => '(' :: rule.pattern ++ [')'])

/-- the classifier of some rules -/
def make [UnicodeClasses] (rules : List Rule) : Except Error Classifier :=
  if rules.isEmpty then .ok ⟨none, []⟩
  else match groupsFrom 1 rules with
    | .error e => .error e
    | .ok groups =>
      match Regex.compile? .default (join rules) with
      | none => .error .invalidRule
      | some r => .ok ⟨some r, groups⟩

/-- a block comment, up to its end or the end of the text -/
def blockCommentPattern (start stop : Text) : Text :=
  "(?s:".toList ++ Pattern.Escape.quote start ++ ".*?(?:".toList ++ Pattern.Escape.quote stop ++ "|\\z))".toList

/-- a line comment, up to the end of its line -/
def lineCommentPattern (mark : Text) : Text :=
  Pattern.Escape.quote mark ++ "[^\\n]*".toList

/-- a string in double quotes, with escapes, up to its end or the end of its line -/
def stringPattern : Text :=
  "\"(?:\\\\.|[^\"\\\\\\n])*\"?".toList

/-- the patterns for a language, each with its kind -/
def languageRules (l : Language) : List Rule :=
  let block := match l.comment.blockStart, l.comment.blockEnd with
    | some start, some stop => if l.comment.hasBlock then [⟨blockCommentPattern start stop, .comment⟩] else []
    | _, _ => []
  let line := match l.lineComment? with
    | some mark => [⟨lineCommentPattern mark, .comment⟩]
    | none => []
  block ++ line ++ if l.id.isSome then [⟨stringPattern, .string⟩] else []

/-- rules checked one by one -/
def checkRules [UnicodeClasses] : List Rule → Except Error (List Rule)
  | [] => .ok []
  | rule :: rest =>
    match Rule.make rule.pattern rule.kind with
    | .error e => .error e
    | .ok rule =>
      match checkRules rest with
      | .error e => .error e
      | .ok rules => .ok (rule :: rules)

/-- the classifier of a language; text without a language has no comments and no strings -/
def forLanguage [UnicodeClasses] (l : Language) : Except Error Classifier :=
  match checkRules (languageRules l) with
  | .error e => .error e
  | .ok rules => make rules

/-- the kind of the first rule whose group took part in a match -/
def kindOf? (c : Classifier) (m : Match) : Option SpanKind :=
  (c.groups.find? fun group => (m.group? group.1).isSome).map (·.2)

/-- the comments and strings of a text -/
def classify (c : Classifier) (t : Text) : Spans :=
  match c.regex with
  | none => .empty
  | some r => .ofRanges ((r.allMatches t).filterMap fun m => (c.kindOf? m).map fun kind => ⟨m.start, m.stop, kind⟩)

end Classifier

end CodeEditor
