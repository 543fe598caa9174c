import FormLang.History
import FormLang.Prompt.Files
import FormLang.Settings
import FormLang.Summary
import FormLang.Text.Chunk
import FormLang.Text.Printable

/-!
# The command line

The words of a command line name a command. Carrying it out reads and writes files of a disk and prints.
-/

namespace FormLang

inductive Command where
  | prompt (pretty : Bool)
  /-- Runs a file, and writes a trace if a path is given for it. -/
  | run (file : String) (pretty : Bool) (trace : Option String)
  | files (pretty : Bool)
  | check (file : String) (pretty : Bool)
  | format (file : String) (write : Bool)
  | summarize (file : String) (asText : Bool)
  | help (topic : Option String)
  | settings
  deriving DecidableEq, Repr

inductive UsageError where
  | run
  | check
  | format
  | summarize
  | unknown (word : String)
  deriving DecidableEq, Repr

def UsageError.message : UsageError → String
  | .run => "usage: pylisp run <file> [--pretty] [--trace <out.jsonl>]"
  | .check => "usage: pylisp check <file> [--pretty]"
  | .format => "usage: pylisp fmt <file> [--write]"
  | .summarize => "usage: pylisp trace <file.jsonl> [--json|--text]"
  | .unknown word =>
    "Unknown command: " ++ word ++ "\ncommands: repl, run, files, check, fmt, trace, help, config"

namespace Command

/-! ## Reading the words -/

def isFlag (word : String) : Bool :=
  Text.startsWith "-" word

/-- The last word that is no flag, or the empty text. -/
def lastOperand (words : List String) : String :=
  ((words.filter fun w => !isFlag w).getLast?).getD ""

/-- The last word that is no flag, where a lone dash is none, or the empty text. -/
def lastSource (words : List String) : String :=
  ((words.filter fun w => !isFlag w || w = "-").getLast?).getD ""

/-- The words without the flag of a trace and its path, and the last path given. A flag at the end has no path. -/
def splitTrace (trace : String) : List String → List String × String
  | [] => ([], trace)
  | [word] => ([word], trace)
  | word :: next :: rest =>
    if word = "--trace" then splitTrace next rest
    else
      match splitTrace trace (next :: rest) with
      | (words, trace) => (word :: words, trace)

/-- The last of the two flags for the form of a summary decides. -/
def asksText (words : List String) : Bool :=
  (words.filter fun w => w = "--text" || w = "--json").getLast? = some "--text"

def parse : List String → Except UsageError Command
  | [] => .ok (.prompt true)
  | word :: words =>
    if word = "repl" then .ok (.prompt (!words.contains "--json"))
    else if word = "run" then
      match splitTrace "" words with
      | (words, trace) =>
        let file := lastSource words
        if file = "" then .error .run
        else .ok (.run file (words.contains "--pretty") (if trace = "" then none else some trace))
    else if word = "files" then .ok (.files (words.contains "--pretty"))
    else if word = "check" then
      let file := lastSource words
      if file = "" then .error .check else .ok (.check file (words.contains "--pretty"))
    else if word = "fmt" then
      let file := lastOperand words
      if file = "" then .error .format else .ok (.format file (words.contains "--write"))
    else if word = "trace" then
      let file := lastOperand words
      if file = "" then .error .summarize else .ok (.summarize file (asksText words))
    else if word = "help" || word = "--help" || word = "-h" then
      let topic := lastOperand words
      .ok (.help (if topic = "" then none else some topic))
    else if word = "config" then .ok .settings
    else .error (.unknown word)

end Command

/-! ## Carrying it out -/

/-- What a command finds: a disk, the folder that it runs in, the user's home folder, the text of its input, and the
identifier and the time of a traced run. -/
structure Workplace where
  disk : Disk
  /-- The rooted path of the folder. -/
  directory : String
  home : Option String
  input : String
  runId : String
  time : String

namespace Workplace

def here (w : Workplace) : Place :=
  Path.names w.directory

def read (w : Workplace) (path : String) : Except FileError String :=
  match w.disk.read w.here path, w.disk.resolve w.here path with
  | .error .missing, .ok place => if place = inputDevice then .ok w.input else .error .missing
  | result, _ => result

def readText? (w : Workplace) (path : String) : Option String :=
  match w.read path with
  | .ok text => some text
  | .error _ => none

def settings (w : Workplace) : Except SettingsError (Settings × Option String) :=
  Settings.load w.disk w.directory w.home

/-- The inputs of a script that comes from the input text. -/
def script (w : Workplace) : List Input :=
  (Text.inputChunks w.input).map .line

/-- The text and the name of a source. A dash names the input. -/
def source? (w : Workplace) (file : String) : Option (String × String) :=
  if file = "-" then some (w.input, "<stdin>") else (w.readText? file).map fun text => (text, file)

end Workplace

/-- An output with one line for a failure. -/
def Diagnostic.fail (d : Diagnostic) (pretty : Bool) (status : ExitStatus) : Output :=
  ⟨status, "", printLine (d.render pretty)⟩

namespace Command

def banner : String :=
  languageVersion ++ "  (:help for help, :quit to exit)"

/-- The history that a prompt starts with. -/
def loadHistory (w : Workplace) (path : String) : List String :=
  ((w.readText? path).map History.ofText).getD []

/-- Writes the history back, making the folder for it. Failures are passed over. -/
def saveHistory (w : Workplace) (path : String) (entries : List String) : Disk :=
  let parent := Path.usablePart (Path.parent path) (Path.names path).length
  let folder := Path.cleanNames (if Path.isRooted path then parent else Path.join w.directory parent)
  let disk := w.disk.makeFolder folder
  (disk.write? w.here path (History.toText entries)).getD disk

/-- A prompt over the lines of the input. A text that cannot be shown as a prompt ends it at once. -/
def converse (w : Workplace) (s : Settings) (pretty : Bool) : Output × Disk :=
  let printable := Text.isPrintable s.prompt
  let p := Prompt.start (.fresh s.maxDepth) s.prompt pretty
  let (turns, status) := p.dialogue (if printable then w.script else [.failure])
  let shown := if printable then Dialogue.shown turns else Dialogue.out turns
  let output := ⟨status, printLine banner ++ shown, Dialogue.err turns⟩
  if s.history = "" then (output, w.disk)
  else (output, saveHistory w s.history ((Dialogue.history turns).foldl History.record (loadHistory w s.history)))

/-- The lines of a trace file. -/
def traceText (s : Session) (time : String) : String :=
  String.join (s.machine.trace.records.toList.map fun r => printLine (r.toJson time).compact)

/-- Runs a source, traced into a file if a path is given. The file is made before the run. -/
def runSource (w : Workplace) (s : Settings) (text name : String) (pretty : Bool) : Option String → Output × Disk
  | none => (Result.print ((Session.fresh s.maxDepth).run text).2 name pretty, w.disk)
  | some path =>
    let run := (Session.start .global s.maxDepth w.runId true).run text
    match w.disk.write? w.here path (traceText run.1 w.time) with
    | none => ((Diagnostic.plain .file ("cannot write trace file: " ++ path)).fail pretty .usage, w.disk)
    | some disk => (Result.print run.2 name pretty, disk)

/-- Carries out a command that needs settings. -/
def withSettings (w : Workplace) (pretty : Bool) (act : Settings → Option String → Output × Disk) : Output × Disk :=
  match w.settings with
  | .error e => (e.diagnostic.fail pretty .usage, w.disk)
  | .ok (s, source) => act s source

def formatFile (w : Workplace) (file : String) (write : Bool) : Output × Disk :=
  match w.readText? file with
  | none => ((unreadable file).fail false .usage, w.disk)
  | some text =>
    match Program.format text file with
    | .error d => (d.fail false d.exitStatus, w.disk)
    | .ok formatted =>
      if write then (⟨.ok, "", ""⟩, (w.disk.write? w.here file formatted).getD w.disk)
      else (⟨.ok, formatted, ""⟩, w.disk)

def summarizeFile (w : Workplace) (file : String) (asText : Bool) : Output :=
  let refuse (cause : String) : Output :=
    (Diagnostic.plain .file ("cannot read trace: " ++ file ++ ": " ++ cause)).fail false .usage
  match w.read file with
  | .error .isFolder => refuse (FileError.isFolder.message file)
  | .error _ => (unreadable file).fail false .usage
  | .ok text =>
    match Summary.ofText? text with
    | none => refuse Summary.tooLong
    | some s => ⟨.ok, if asText then s.toText else printLine s.toJson.compact, ""⟩

def showHelp : Option String → Output
  | none => ⟨.ok, Help.quickReference, ""⟩
  | some asked =>
    match Help.find asked with
    | .ok topic => ⟨.ok, topic.text, ""⟩
    | .error e => ⟨.usage, "", page [e.message, "Available topics: " ++ Help.Topic.listing]⟩

def showSettings (s : Settings) (source : Option String) : Output :=
  ⟨.ok, printLine s.toText,
    printLine (match source with
      | some path => "loaded from " ++ path
      | none => "no config file found; using defaults")⟩

/-- What a command prints, and the disk that it leaves. -/
def execute (w : Workplace) : Command → Output × Disk
  | .prompt pretty => withSettings w pretty fun s _ => converse w s pretty
  | .run file pretty trace =>
    withSettings w pretty fun s _ =>
      let pretty := pretty || s.pretty
      match w.source? file with
      | none => ((unreadable file).fail pretty .usage, w.disk)
      | some (text, name) => runSource w s text name pretty trace
  | .files pretty =>
    withSettings w pretty fun s _ =>
      let spent := { w with input := "" }
      match (FilePrompt.start (.fresh s.maxDepth) (pretty || s.pretty)).run spent.readText? w.script with
      | (p, turns) => (⟨p.status, Dialogue.shown turns, Dialogue.err turns⟩, w.disk)
  | .check file pretty =>
    match w.source? file with
    | none => ((unreadable file).fail pretty .usage, w.disk)
    | some (text, name) => (Program.printCheck (Program.check text name) pretty, w.disk)
  | .format file write => formatFile w file write
  | .summarize file asText => (summarizeFile w file asText, w.disk)
  | .help topic => (showHelp topic, w.disk)
  | .settings => withSettings w false fun s source => (showSettings s source, w.disk)

/-- Carries out the command that the words name. -/
def executeWords (w : Workplace) (words : List String) : Output × Disk :=
  match parse words with
  | .ok command => command.execute w
  | .error e => (⟨.usage, "", printLine e.message⟩, w.disk)

end Command

end FormLang
