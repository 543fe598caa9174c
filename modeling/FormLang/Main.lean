import FormLang.Command

/-!
# The program

Brings the files that a command needs onto a disk, carries the command out, prints, and writes back what has changed. The
two prompts talk to the terminal line by line instead.
-/

namespace FormLang

/-! ## Files -/

/-- The bytes of a text. -/
def encode (text : String) : ByteArray :=
  ⟨(Text.bytes text).toArray⟩

/-- The path of a file for the system. -/
def systemPath (path : String) : String :=
  Text.toUnicode path

/-- The text of a file, if it can be read. -/
def readText? (path : String) : IO (Option String) := do
  if !Path.isUsable path then return none
  try
    return some (Text.ofBytes (← IO.FS.readBinFile (systemPath path)).toList)
  catch _ => return none

/-- Puts what lies at a rooted path on the disk. -/
def fetch (d : Disk) (path : String) : IO Disk := do
  match ← readText? path with
  | some text => return d.put (Path.cleanNames path) text
  | none =>
    if ← ((← IO.currentDir) / systemPath path).isDir then return d.makeFolder (Path.cleanNames path) else return d

/-- The rooted form of a path. -/
def rooted (directory path : String) : String :=
  if Path.isRooted path then path else directory ++ "/" ++ path

/-- A disk with what lies at some paths and with the folders that hold them. -/
def fetchAll (directory : String) (paths : List String) : IO Disk := do
  let mut d := Disk.empty
  for path in paths do
    let path := rooted directory path
    d ← fetch d (Path.parent path)
    d ← fetch d path
  return d

/-- The paths that a command may read or write, apart from those of its settings. -/
def Command.paths : Command → List String
  | .run file _ trace => file :: trace.toList
  | .check file _ | .format file _ | .summarize file _ => [file]
  | _ => []

/-- Writes the files that are new or differ. -/
def store (before after : Disk) : IO Unit := do
  for (place, text) in after.files do
    if before.file? place ≠ some text then
      let path := "/" ++ "/".intercalate place
      try
        IO.FS.createDirAll (systemPath (Path.parent path))
        IO.FS.writeBinFile (systemPath path) (encode text)
      catch _ => pure ()

/-! ## The surroundings -/

/-- The time now, taken from a file made for the purpose of telling it. -/
def now : IO Moment := do
  try
    let (_, path) ← IO.FS.createTempFile
    let modified := (← path.metadata).modified
    IO.FS.removeFile path
    return ⟨Moment.epoch + modified.sec, modified.nsec.toNat⟩
  catch _ => return ⟨Moment.epoch, 0⟩

/-- An identifier for a run. -/
def newRunId : IO String := do
  return String.ofList (Nat.toDigits 16 (← IO.rand (Nat.pow 2 60) (Nat.pow 2 64 - 1)))

/-- The whole standard input. -/
partial def readInput (done : List String) : IO String := do
  let line ← (← IO.getStdin).getLine
  if line.isEmpty then return String.join done.reverse else readInput (Text.ofUnicode line :: done)

def workplace (command : Command) : IO Workplace := do
  let directory := Text.ofUnicode (← IO.currentDir).toString
  let home := ((← IO.getEnv "HOME").filter (· ≠ "")).map Text.ofUnicode
  let disk ← fetchAll directory (Settings.paths directory home ++ command.paths)
  let input ← if command.paths.contains "-" then readInput [] else pure ""
  return ⟨disk, directory, home, input, ← newRunId, (← now).toText⟩

def print (o : Output) : IO UInt32 := do
  (← IO.getStdout).write (encode o.out)
  (← IO.getStderr).write (encode o.err)
  return o.status.code.toUInt32

/-! ## Prompts on a terminal -/

/-- The lines that the next line of the input is handed out as. -/
def readLines : IO (List String) := do
  return Text.inputChunks (Text.ofUnicode (← (← IO.getStdin).getLine))

/-- Shows a prompt and takes the next line. The lines that were read but not yet taken wait in `pending`. -/
def ask (pending : IO.Ref (List String)) (prompt : String) : IO Input := do
  if !Text.isPrintable prompt then return .failure
  let out ← IO.getStdout
  out.write (encode prompt)
  out.flush
  try
    let waiting ← pending.get
    let lines ← if waiting.isEmpty then readLines else pure waiting
    match lines with
    | [] => return .ended
    | line :: rest =>
      pending.set rest
      return .line line
  catch _ => return .failure

/-- Prints a turn whose prompt was shown already. -/
def showTurn (turn : Turn) : IO Unit := do
  discard <| print ⟨.ok, turn.out, turn.err⟩

/-- Asks until the prompt ends. Gives the history and the exit status. -/
partial def converse (pending : IO.Ref (List String)) (p : Prompt) (entries : List String) :
    IO (List String × ExitStatus) := do
  let (p, turn, status?) := p.step (← ask pending p.asks)
  showTurn turn
  let entries := turn.recorded.toList.foldl History.record entries
  match status? with
  | some status => return (entries, status)
  | none => converse pending p entries

partial def converseFiles (pending : IO.Ref (List String)) (p : FilePrompt) : IO FilePrompt := do
  let input ← ask pending filePrompt
  let text? ←
    match input with
    | .line line => readText? (Text.trim line)
    | _ => pure none
  let (p, turn, goesOn) := p.step (fun _ => text?) input
  showTurn turn
  if goesOn then converseFiles pending p else return p

/-- The prompt for statements, with its history kept in a file. -/
def runPrompt (w : Workplace) (s : Settings) (pretty : Bool) : IO ExitStatus := do
  let disk ← if s.history = "" then pure w.disk else fetchAll w.directory [s.history]
  let w := { w with disk := disk }
  IO.println Command.banner
  let p : Prompt := .start (.fresh s.maxDepth) s.prompt pretty
  let (entries, status) ← converse (← IO.mkRef []) p (Command.loadHistory w s.history)
  if s.history ≠ "" then store disk (Command.saveHistory w s.history entries)
  return status

/-- Carries out a command in the real surroundings. -/
def Command.perform (command : Command) : IO UInt32 := do
  let w ← workplace command
  match command, w.settings with
  | .prompt pretty, .ok (s, _) =>
    let status ← runPrompt w s pretty
    return status.code.toUInt32
  | .files pretty, .ok (s, _) =>
    let p ← converseFiles (← IO.mkRef []) (.start (.fresh s.maxDepth) (pretty || s.pretty))
    return p.status.code.toUInt32
  | _, _ =>
    let (o, disk) := command.execute w
    store w.disk disk
    print o

end FormLang

def main (args : List String) : IO UInt32 :=
  match FormLang.Command.parse (args.map FormLang.Text.ofUnicode) with
  | .ok command => command.perform
  | .error e => FormLang.print ⟨.usage, "", FormLang.printLine e.message⟩
