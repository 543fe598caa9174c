import FormLang.Prompt.Basic

/-!
# A prompt for files

A session is given the paths of files and runs one after another. What one defines the next can use.
-/

namespace FormLang

def filePrompt : String :=
  "file> "

/-- The diagnostic of a file that cannot be read. -/
def unreadable (path : String) : Diagnostic :=
  .plain .file ("cannot read file: " ++ path)

/-- A session that is given files to run, one after another. -/
structure FilePrompt where
  session : Session
  pretty : Bool
  /-- The status of the last file that failed. -/
  status : ExitStatus

namespace FilePrompt

def start (session : Session) (pretty : Bool) : FilePrompt :=
  ⟨session, pretty, .ok⟩

/-- Runs the file of this path, whose text is given if it can be read. -/
def runFile (p : FilePrompt) (path : String) : Option String → FilePrompt × Turn
  | none =>
    ({ p with status := .usage }, ⟨filePrompt, "", printLine ((unreadable path).render p.pretty), none⟩)
  | some source =>
    match p.session.run source with
    | (s, results) =>
      let o := Result.print results path p.pretty
      ({ p with session := s, status := if o.status = .ok then p.status else o.status },
        ⟨filePrompt, o.out, o.err, some path⟩)

/-- Takes one input. Blank lines ask again, and whatever is neither a line nor an interrupt ends the prompt. -/
def step (read : String → Option String) (p : FilePrompt) : Input → FilePrompt × Turn × Bool
  | .line line =>
    let path := Text.trim line
    if path = "" then (p, .silent filePrompt, true)
    else
      match p.runFile path (read path) with
      | (q, turn) => (q, turn, true)
  | .interrupt => (p, .silent filePrompt, true)
  | .failure | .ended => (p, .silent filePrompt, false)

/-- Takes the inputs of a script and then its end. -/
def run (read : String → Option String) (p : FilePrompt) : List Input → FilePrompt × List Turn
  | [] => (p, [.silent filePrompt])
  | i :: rest =>
    match p.step read i with
    | (q, turn, false) => (q, [turn])
    | (q, turn, true) =>
      match q.run read rest with
      | (q, turns) => (q, turn :: turns)

end FilePrompt

end FormLang
