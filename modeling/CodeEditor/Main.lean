import CodeEditor.Terminal.Frame
/-!
The command line: edit one file.

Input is read line by line. The characters of a line are keys, control characters the shortcuts with Control, and the
end of the line is Enter. After each line the editor is drawn, and the file is written if saving has changed it. The
name of a configuration document comes from the environment.
-/

namespace CodeEditor.CommandLine

/-- the number of columns in which the editor is drawn -/
def width : Nat := 80

/-- the number of rows in which the editor is drawn -/
def height : Nat := 24

/-- the variable that names a configuration document -/
def configVariable : String := "SOURCEVIEW_CONFIG"

/-- the key of a character read from the terminal -/
def keyOf (c : Char) : TerminalKey × Modifiers :=
  if c = '\n' || c = '\r' then (.key .enter, .none)
  else if c = '\t' then (.key .tab, .none)
  else if c = '\x7f' then (.key .backspace, .none)
  else if c = '\x1b' then (.escape, .none)
  else if c.toNat < 27 then (.key (.char (Char.ofNat (c.toNat + 96))), { Modifiers.none with control := true })
  else (.key (.char c), .none)

/-- a frame as lines of text -/
def drawn (frame : Frame) : String :=
  String.join (frame.rows.map fun row => String.ofList (Row.text row) ++ "\n")

/-- the content of a file, if there is one; a file that cannot be read stops the program -/
def contentOf (path : String) : IO (Option Text) := do
  try
    let content ← IO.FS.readFile path
    return some content.toList
  catch
    | .noFileOrDirectory .. => return none
    | e => throw e

/-- the configuration document that the environment names, if it names one -/
def configDocument : IO (Option (Except Error Text)) := do
  match ← IO.getEnv configVariable with
  | none => return none
  | some name =>
    try
      let content ← IO.FS.readFile name
      return some (.ok content.toList)
    catch _ => return some (.error .unreadable)

/-- write the file if saving has changed it -/
def writeBack (path : String) (before after : App) : IO Unit := do
  if before.file.content != after.file.content then
    IO.FS.writeFile path (String.ofList (after.file.content.getD []))

/-- draw, read a line, press its keys, until the editor quits or the input ends -/
partial def run (path : String) (a : App) : IO Unit := do
  let (frame, a) := a.render width height
  let stdout ← IO.getStdout
  stdout.putStr (drawn frame)
  stdout.flush
  if a.shouldQuit then return
  let line ← (← IO.getStdin).getLine
  if line.isEmpty then return
  let next := line.toList.foldl (fun a c => a.pressKey (keyOf c).1 (keyOf c).2) a
  writeBack path a next
  run path (next.poll (← IO.monoMsNow))

/-- how to call the program -/
def usage (program : String) : String :=
  "用法: " ++ program ++ " <file_path>\n\n示例:\n  " ++ program ++ " main.c\n"

end CodeEditor.CommandLine

open CodeEditor CodeEditor.CommandLine in
/-- edit the file that is named -/
def main (args : List String) : IO UInt32 := do
  match args with
  | [] =>
    IO.eprint (usage "editor")
    return 1
  | path :: _ =>
    run path (App.ofFile ⟨path.toList, ← contentOf path, none⟩ (← configDocument))
    return 0
