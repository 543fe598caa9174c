import FormLang.Session
import FormLang.Statement

/-!
# Programs

A source is run, checked or formatted statement by statement.
-/

namespace FormLang

/-- What a program prints and how it ends. -/
structure Output where
  status : ExitStatus
  out : String
  err : String
  deriving DecidableEq, Repr

/-- A text and a line feed. -/
def printLine (text : String) : String :=
  text ++ "\n"

/-! ## Running -/

/-- A statement and its outcome. -/
structure Result where
  statement : Statement
  outcome : Except Problem Value

namespace Session

/-- Evaluates statements in turn, going on after failures. -/
def runAll (s : Session) : List Statement → Session × List Result
  | [] => (s, [])
  | st :: rest =>
    match s.evaluate st.text with
    | (s, outcome) =>
      match s.runAll rest with
      | (s, results) => (s, ⟨st, outcome⟩ :: results)

/-- Evaluates every statement of a source. -/
def run (s : Session) (source : String) : Session × List Result :=
  s.runAll (Statement.ofSource source)

end Session

namespace Result

/-- The status of a run: that of its first failure. -/
def exitStatus : List Result → ExitStatus
  | [] => .ok
  | ⟨_, .error p⟩ :: _ => p.exitStatus
  | ⟨_, .ok _⟩ :: rest => exitStatus rest

/-- The line that a result prints to the output, or nothing. -/
def outLine (pretty : Bool) (r : Result) : String :=
  match r.outcome with
  | .ok v => printLine (v.render pretty)
  | .error _ => ""

/-- The lines that a result prints to the error output, or nothing. -/
def errLine (file : String) (pretty : Bool) (r : Result) : String :=
  match r.outcome with
  | .ok _ => ""
  | .error p => printLine ((p.locate file r.statement.line).render pretty)

/-- Values go to the output and failures to the error output, each on a line. -/
def print (results : List Result) (file : String) (pretty : Bool) : Output where
  status := exitStatus results
  out := String.join (results.map (outLine pretty))
  err := String.join (results.map (errLine file pretty))

end Result

/-! ## Checking -/

namespace Program

/-- The diagnostics of the statements that do not parse. -/
def checkAll (file : String) : List Statement → List Diagnostic
  | [] => []
  | st :: rest =>
    match Expr.ofText st.text with
    | .ok _ => checkAll file rest
    | .error e => (Problem.parse e).locate file st.line :: checkAll file rest

/-- Reads every statement of a source and evaluates none. -/
def check (source file : String) : List Diagnostic :=
  checkAll file (Statement.ofSource source)

/-- What a check prints. As JSON the diagnostics are one array. -/
def printCheck (ds : List Diagnostic) (pretty : Bool) : Output :=
  match ds with
  | [] => ⟨.ok, printLine (if pretty then "No errors found." else Diagnostic.renderAll [] false), ""⟩
  | ds => ⟨.parse, "", printLine (Diagnostic.renderAll ds pretty)⟩

/-! ## Formatting -/

/-- The statements in canonical form, given the text so far, up to the first that does not parse. -/
def formatAll (file : String) (done : String) : List Statement → Except Diagnostic String
  | [] => .ok done
  | st :: rest =>
    match Expr.ofText st.text with
    | .ok e => formatAll file (done ++ printLine e.pretty) rest
    | .error e => .error ((Problem.parse e).locate file st.line)

/-- Every statement of a source in canonical form, each on lines of its own. -/
def format (source file : String) : Except Diagnostic String :=
  formatAll file "" (Statement.ofSource source)

end Program

end FormLang
