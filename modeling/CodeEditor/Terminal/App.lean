import CodeEditor.Classifier
import CodeEditor.Prompt
import CodeEditor.Session.Keys
import CodeEditor.Session.Search
/-!
The terminal editor: a session with prompts, a clipboard, a status line and a view.

Keys go to the quit confirmation while one is pending, to the prompt while one is open, and else to the editor's own
shortcuts or to the session. The file on disk is part of the state (`File`): saving writes it, and may fail.

A modified text is one whose revision differs from the one saved last. Leaving it asks first.
-/

namespace CodeEditor

/-- a file as the editor sees it -/
structure File where
  path : Text
  /-- what is on disk, if the file exists -/
  content : Option Text
  /-- why writing fails, if it does -/
  refusal : Option Text
  deriving DecidableEq, Repr

/-- a key of the terminal -/
inductive TerminalKey where
  | key (k : Key)
  | escape
  | function (n : Nat)
  | insert
  deriving DecidableEq, Repr

/-- what keys go to -/
inductive InputMode where
  | normal
  | find
  | replaceFind
  | replaceWith
  deriving DecidableEq, Repr

/-- the editor -/
structure App where
  session : Session
  file : File
  savedRevision : Nat
  shouldQuit : Bool
  confirmQuit : Bool
  status : Text
  clipboard : Text
  findPrompt : Prompt
  replacePrompt : Prompt
  history : HistoryStore
  caseSensitive : Bool
  isPattern : Bool
  mode : InputMode
  bracketPair : Option (Nat × Nat)
  polled : Option (Nat × Nat)
  /-- first line shown -/
  scrollTop : Nat
  /-- number of lines shown -/
  viewHeight : Nat

namespace App

/-- a number in a sentence -/
def number (n : Nat) : Text :=
  Text.ofNat n

/-- the configuration of the document that was named, if one was, and what to say if it is refused or cannot be read -/
def loadConfig (document : Option (Except Error Text)) : Config × Text :=
  match document with
  | none => (Config.default, [])
  | some d =>
    match d.bind Config.ofDocument with
    | .ok c => (c, [])
    | .error e => (Config.default, "配置加载失败: ".toList ++ e.message)

/-- a session with the classifier of its language, if there is one -/
def classified (s : Session) : Session :=
  match Classifier.forLanguage s.language with
  | .ok c => s.withClassifier c.classify
  | .error _ => s

/-- open a file, or an empty text for one that does not exist -/
def ofFile (file : File) (document : Option (Except Error Text)) : App :=
  let (config, status) := loadConfig document
  let language := Language.ofId (Language.guess? file.path)
  let session := classified (Session.ofText (file.content.getD []) language config)
  { session, file, status
    savedRevision := session.buffer.revision
    shouldQuit := false
    confirmQuit := false
    clipboard := []
    findPrompt := Prompt.make "Find".toList []
    replacePrompt := Prompt.make "Replace".toList []
    history := HistoryStore.empty
    caseSensitive := false
    isPattern := false
    mode := .normal
    bracketPair := none
    polled := none
    scrollTop := 0
    viewHeight := 0 }

/-- the text differs from the one saved last -/
def isModified (a : App) : Bool :=
  a.session.buffer.revision != a.savedRevision

/-- show a message -/
def say (a : App) (message : Text) : App :=
  { a with status := message }

/-- move the view so that it shows the line of the cursor -/
def scrollToCursor (a : App) : App :=
  if a.viewHeight = 0 then a
  else
    let line := a.session.buffer.cursorPosition.line
    let top := min a.scrollTop line
    { a with scrollTop := if top + a.viewHeight ≤ line then line + 1 - a.viewHeight else top }

/-! ## Files and clipboard -/

/-- write the text to disk; `none` if that worked, else why not. Cleaning the text before saving stays either way -/
def save (a : App) : Option Text × App :=
  let (content, session) := a.session.prepareForSave
  match a.file.refusal with
  | some reason => (some reason, { a with session })
  | none =>
    (none, { a with
      session, savedRevision := session.buffer.revision, file := { a.file with content := some content } })

/-- a failed save -/
def saveFailed (reason : Text) : Text :=
  "保存失败: ".toList ++ reason

/-- copy the selection -/
def copy (a : App) : App :=
  let b := a.session.buffer
  if b.selectionStart = b.selectionEnd then a.say "没有选中文本".toList
  else
    { a with
      clipboard := b.text.slice b.selectionStart b.selectionEnd
      status := "已复制 ".toList ++ number (b.selectionEnd - b.selectionStart) ++ " 个字符".toList }

/-- paste a text -/
def paste (a : App) (t : Text) : App :=
  if t.isEmpty then a
  else
    let (mode, session) := a.session.paste t
    let a := { a with session }
    (if mode = .reindented then a.say "已按当前缩进粘贴".toList else a).scrollToCursor

/-! ## Search -/

/-- how the search options are shown -/
def optionsLabel (a : App) : Text :=
  (if a.caseSensitive then "Aa " else "aa ").toList ++ (if a.isPattern then ['R'] else ['-'])

/-- make the text of the find prompt the active search; the flag says whether it occurs -/
def applySearch (a : App) : Bool × App :=
  match a.session.setSearch a.findPrompt.text ⟨a.caseSensitive, a.isPattern⟩ with
  | .ok (count, session) => (count > 0, { a with session, status := "匹配: ".toList ++ number count })
  | .error e => (false, a.say ("查找失败: ".toList ++ e.message))

/-- an occurrence as a pair of offsets, after a word -/
def reportFound (word : Text) (found : Option Occurrence) : Text :=
  match found with
  | some o => word ++ number o.start ++ "..".toList ++ number o.stop
  | none => "未找到".toList

/-- go to the next or previous occurrence -/
def find (a : App) (forward : Bool) : App :=
  if a.session.query.isNone then a.say "查找内容为空（Ctrl+F 输入）".toList
  else
    let (found, session) := if forward then a.session.searchForward else a.session.searchBackward
    { a with session, status := reportFound "找到: ".toList found }

/-- replace the next occurrence by the text of the replace prompt -/
def replaceNext (a : App) : App :=
  let (found, session) := a.session.replaceForward a.replacePrompt.text
  { a with session, status := reportFound "已替换: ".toList found }

/-- replace every occurrence by the text of the replace prompt -/
def replaceAll (a : App) : App :=
  let (count, session) := a.session.replaceAll a.replacePrompt.text
  { a with session, status := "全部替换: ".toList ++ number count ++ " 处".toList }

/-! ## Prompts -/

/-- open a prompt -/
def startPrompt (a : App) (mode : InputMode) : App :=
  { a with mode, status := [] }

/-- change the prompt that keys go to -/
def mapPrompt (a : App) (f : Prompt → Prompt) : App :=
  match a.mode with
  | .replaceWith => { a with replacePrompt := f a.replacePrompt }
  | _ => { a with findPrompt := f a.findPrompt }

/-- confirm the find prompt -/
def confirmFind (a : App) : App :=
  let (findPrompt, history) := a.findPrompt.confirm a.history
  { a with findPrompt, history }

/-- confirm the replace prompt -/
def confirmReplace (a : App) : App :=
  let (replacePrompt, history) := a.replacePrompt.confirm a.history
  { a with replacePrompt, history }

/-- Enter in a prompt -/
def confirmPrompt (a : App) : App :=
  match a.mode with
  | .normal => a
  | .find =>
    match ({ a.confirmFind with mode := .normal }).applySearch with
    | (true, a) => a.find true
    | (false, a) => a
  | .replaceFind => { a.confirmFind with mode := .replaceWith }
  | .replaceWith =>
    match ({ a.confirmReplace with mode := .normal }).applySearch with
    | (true, a) => a.say ("替换就绪: ".toList ++ a.findPrompt.text ++ " -> ".toList ++ a.replacePrompt.text)
    | (false, a) => a

/-- say which search options are on -/
def sayOptions (a : App) : App :=
  a.say ("查找选项: ".toList ++ a.optionsLabel)

/-- a key in a prompt -/
def promptKey (a : App) (key : TerminalKey) (mods : Modifiers) : App :=
  match key with
  | .escape => { a with mode := .normal, status := [] }
  | .key .enter => a.confirmPrompt
  | .key .up => a.mapPrompt fun p => (p.up? a.history).getD p
  | .key .down => a.mapPrompt fun p => (p.down? a.history).getD p
  | .key .backspace => a.mapPrompt fun p => p.popChar.2
  | .key (.char c) =>
    if mods.alt && (c = 'c' || c = 'C') then ({ a with caseSensitive := !a.caseSensitive }).sayOptions
    else if mods.alt && (c = 'r' || c = 'R') then ({ a with isPattern := !a.isPattern }).sayOptions
    else a.mapPrompt fun p => p.pushChar c
  | _ => a

/-! ## Keys -/

/-- a key while leaving waits for an answer -/
def confirmKey (a : App) (key : TerminalKey) : App :=
  match key with
  | .key (.char c) =>
    if c = 'y' || c = 'Y' then
      match a.save with
      | (none, a) => { a with shouldQuit := true }
      | (some reason, a) => { a with status := saveFailed reason, confirmQuit := false }
    else if c = 'n' || c = 'N' then { a with shouldQuit := true }
    else a
  | .escape => { a with confirmQuit := false, status := [] }
  | _ => a

/-- the shortcuts with Control -/
def controlKey? (a : App) (c : Char) : Option App :=
  match c with
  | 's' => some <| match a.save with
    | (none, a) => a.say ("已保存: ".toList ++ a.file.path)
    | (some reason, a) => a.say (saveFailed reason)
  | 'x' => some <|
    if a.isModified then { a with confirmQuit := true, status := "文件已修改。保存吗? (y/n)".toList }
    else { a with shouldQuit := true }
  | 'c' => some a.copy
  | 'v' => some (a.paste a.clipboard)
  | 'z' => some <|
    let undone := { a with session := a.session.mapBuffer Buffer.undo }
    if a.session.buffer.undo?.isSome then undone else undone.say "没有可撤销的操作".toList
  | 'y' => some <|
    let redone := { a with session := a.session.mapBuffer Buffer.redo }
    if a.session.buffer.redo?.isSome then redone else redone.say "没有可重做的操作".toList
  | 'k' =>
    let (toggled, session) := a.session.toggleComments
    some { a with
      session
      status := match toggled with
        | .commented n => "已注释 ".toList ++ number n ++ " 行".toList
        | .uncommented n => "已取消注释 ".toList ++ number n ++ " 行".toList
        | .unchanged => "未改变".toList }
  | 'g' =>
    let (changed, session) := a.session.reindent
    some { a with session, status := "重新缩进: ".toList ++ number changed ++ " 行".toList }
  | 'w' => some { a with session := a.session.selectWord }
  | 'f' => some (a.startPrompt .find)
  | 'h' => some (a.startPrompt .replaceFind)
  | 'r' => some a.replaceNext
  | 'a' => some a.replaceAll
  | _ => none

/-- the editor's own shortcuts -/
def shortcut? (a : App) (key : TerminalKey) (mods : Modifiers) : Option App :=
  match key with
  | .key (.char c) => if mods = ⟨false, true, false, false⟩ then a.controlKey? c else none
  | .function 3 =>
    if mods = .none then some (a.find true)
    else if mods = ⟨true, false, false, false⟩ then some (a.find false)
    else none
  | _ => none

/-- a key in the text -/
def normalKey (a : App) (key : TerminalKey) (mods : Modifiers) : App :=
  match a.shortcut? key mods with
  | some a => a
  | none =>
    match key with
    | .key k => { a with status := [], session := a.session.pressKey k mods }
    | _ => a

/-- a key is pressed -/
def pressKey (a : App) (key : TerminalKey) (mods : Modifiers) : App :=
  if a.confirmQuit then a.confirmKey key
  else if a.mode = .normal then (a.normalKey key mods).scrollToCursor
  else (a.promptKey key mods).scrollToCursor

/-- idle work at a clock reading: forget the pair of braces of another state, and look for the one of this -/
def poll (a : App) (now : Nat) : App :=
  let state := (a.session.buffer.cursor, a.session.buffer.revision)
  let a := if a.polled = some state then a else { a with polled := some state, bracketPair := none }
  let (pair, session) := a.session.poll now
  { a with session, bracketPair := pair <|> a.bracketPair }

end App

end CodeEditor
