/-!
# Diagnostic codes

Every failure has a code. The code decides the stage that a failure belongs to and the exit status of a program that
ends with it.
-/

namespace FormLang

inductive Code where
  | emptyInput
  | missingOuterParens
  | mismatchedParens
  | unexpectedCloseParen
  | unexpectedEnd
  | name
  | arity
  | arithmetic
  | notCallable
  | type
  | form
  | resource
  | file
  | settings
  | internal
  /-- A code of the host's own. -/
  | other (text : String)
  deriving DecidableEq, Repr

namespace Code

def text : Code → String
  | .emptyInput => "E_EMPTY_INPUT"
  | .missingOuterParens => "E_MISSING_OUTER_PARENS"
  | .mismatchedParens => "E_MISMATCHED_PARENS"
  | .unexpectedCloseParen => "E_UNEXPECTED_CLOSE_PAREN"
  | .unexpectedEnd => "E_UNEXPECTED_EOF"
  | .name => "E_NAME"
  | .arity => "E_ARITY"
  | .arithmetic => "E_ARITHMETIC"
  | .notCallable => "E_NOT_CALLABLE"
  | .type => "E_TYPE"
  | .form => "E_SYNTAX"
  | .resource => "E_RESOURCE"
  | .file => "E_IO"
  | .settings => "E_CONFIG"
  | .internal => "E_INTERNAL"
  | .other text => text

/-- The codes of the language, without those of a host. -/
def all : List Code :=
  [.emptyInput, .missingOuterParens, .mismatchedParens, .unexpectedCloseParen, .unexpectedEnd, .name, .arity,
    .arithmetic, .notCallable, .type, .form, .resource, .file, .settings, .internal]

def ofText (text : String) : Code :=
  (all.find? fun c => c.text = text).getD (.other text)

/-- Whether the code belongs to the stages before any evaluation. -/
def isParseStage : Code → Bool
  | .emptyInput | .missingOuterParens | .mismatchedParens | .unexpectedCloseParen | .unexpectedEnd => true
  | _ => false

end Code

/-- The exit status of a program. -/
inductive ExitStatus where
  | ok
  | usage
  | parse
  | runtime
  deriving DecidableEq, Repr

namespace ExitStatus

def code : ExitStatus → Nat
  | .ok => 0
  | .usage => 1
  | .parse => 2
  | .runtime => 4

/-- The status with which a failure of the given code ends. An empty code stands for no failure. -/
def ofCode (c : Code) : ExitStatus :=
  if c.text = "" then .ok
  else if c.isParseStage then .parse
  else if c = .file || c = .settings then .usage
  else .runtime

end ExitStatus

end FormLang
