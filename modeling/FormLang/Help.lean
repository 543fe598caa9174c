import FormLang.Decimal.Integer
import FormLang.Registry
import FormLang.Text.Blank
import FormLang.Text.Case
import FormLang.Text.Replace

/-!
# Help

A quick reference, a page for each topic, and an index of the names that a fresh session knows.
-/

namespace FormLang

/-- The lines of a page, each ended by a line feed. -/
def page (lines : List String) : String :=
  String.join (lines.map (· ++ "\n"))

/-- The name and the version of the language. -/
def languageVersion : String :=
  "pylisp v0.3"

namespace Help

def quickReference : String :=
  page [
    languageVersion ++ " - a minimal S-expression evaluator",
    "",
    "Every input is one parenthesized form:",
    "  (+ 1 2)                          => 3",
    "  (defun sq (x) (* x x))           => Defined SQ",
    "  (sq 12)                          => 144",
    "  (if (< 1 2) 10 20)               => 10",
    "  (format t \"Total: ~D~%\" (sq 3))  => Total: 9",
    "",
    "Commands:",
    "  pylisp [repl]            interactive prompt",
    "  pylisp run <file>        evaluate every statement of a file",
    "  pylisp files             prompt for files to run, one after another",
    "  pylisp check <file>      parse without evaluating",
    "  pylisp fmt <file>        print statements in canonical form",
    "  pylisp trace <file>      summarize a trace written by run --trace",
    "  pylisp config            show the settings in effect",
    "  pylisp help <topic>      more on one topic",
    "",
    "Topics: syntax, forms, builtins, format, scoping, diagnostics, repl, examples"]

/-! ## The index of names -/

/-- Fills lines of at most 72 bytes with names. `line` is the line being filled. -/
def wrapNames (line : String) : List String → List String
  | [] => if Text.isBlankText line then [] else [line]
  | name :: rest =>
    if 72 < line.utf8ByteSize + name.utf8ByteSize + 1 then line :: wrapNames ("  " ++ name) rest
    else wrapNames (line ++ " " ++ name) rest

/-- The built-ins and constants of a fresh session. -/
def builtinIndex : String :=
  let names := (Registry.defaults 0).names
  page (["BUILTINS", ""] ++ wrapNames " " names ++ ["", "Total: " ++ Decimal.ofNat names.length ++ " names"])

/-! ## Topics -/

inductive Topic where
  | grammar
  | forms
  | builtins
  | format
  | scoping
  | diagnostics
  | prompt
  | examples
  deriving DecidableEq, Repr

namespace Topic

/-- The topics in the order in which they are listed. -/
def all : List Topic :=
  [.grammar, .forms, .builtins, .format, .scoping, .diagnostics, .prompt, .examples]

def name : Topic → String
  | .grammar => "syntax"
  | .forms => "forms"
  | .builtins => "builtins"
  | .format => "format"
  | .scoping => "scoping"
  | .diagnostics => "diagnostics"
  | .prompt => "repl"
  | .examples => "examples"

def listing : String :=
  ", ".intercalate (all.map name)

def text : Topic → String
  | .grammar => page [
    "SYNTAX",
    "",
    "Input is split on whitespace after padding every parenthesis with spaces.",
    "Each token is an integer if it parses as one, else a float, else a symbol.",
    "There are no string literals and no comments.",
    "",
    "  42  -7       integers",
    "  3.5  1e3     floats",
    "  foo  <=  +   symbols",
    "",
    "An input must be exactly one form: it starts with \"(\" and ends with the",
    "\")\" that closes it. Empty input, bare atoms and unbalanced parentheses are",
    "rejected before anything is evaluated."]
  | .forms => page [
    "SPECIAL FORMS",
    "",
    "  (if COND THEN ELSE)",
    "      Evaluates COND; 0, 0.0, False and empty text are false. Only the",
    "      chosen branch is evaluated.",
    "",
    "  (defun NAME (PARAM...) BODY)",
    "      Binds NAME in the current scope and returns \"Defined NAME\".",
    "      Redefinition replaces the old function.",
    "",
    "  (format DEST TEXT... [ARG])",
    "      Builds text; see \"help format\". DEST is never evaluated.",
    "",
    "Any other form is an application: the head and each operand are evaluated",
    "left to right, then the head is called."]
  | .builtins => page [
    "ARITHMETIC AND COMPARISON",
    "",
    "  (+ a b ...)  (- a b ...)  (* a b ...)   integers stay integers",
    "  (- a)                                    negation",
    "  (/ a b ...)                              true division, always a float",
    "  (< a b) (<= a b) (> a b) (>= a b) (= a b) (!= a b)   => True / False",
    "",
    "Integer overflow, division by zero and math domain errors raise",
    "E_ARITHMETIC. Non-numeric operands raise E_TYPE.",
    ""] ++ builtinIndex
  | .format => page [
    "FORMAT",
    "",
    "  (format t \"Value: ~D~%\" (+ 1 2))   => Value: 3",
    "  (format t \"Hello ~%\")              => Hello",
    "",
    "The words between DEST and the optional trailing ARG are joined with",
    "single spaces and quote characters are removed. The first ~D~% is then",
    "replaced by ARG's printed form; if there is none, the first ~% is.",
    "Without ARG the directive is replaced by nothing. At most one ARG."]
  | .scoping => page [
    "SCOPING",
    "",
    "Functions do not capture the scope they were defined in. A call binds its",
    "parameters into the caller's current scope and runs the body in a new",
    "scope nested inside it, so free names in a body resolve against whoever",
    "called the function:",
    "",
    "  (defun peek () y)",
    "  (defun wrap (y) (peek))",
    "  (wrap 7)                           => 7",
    "",
    "A top-level call therefore leaves its parameters bound globally.",
    "Definitions made inside a body stay inside that call.",
    "",
    "Recursion is limited to a fixed nesting depth (maxDepth in the config);",
    "going past it raises E_RESOURCE."]
  | .diagnostics => page [
    "DIAGNOSTICS",
    "",
    "Parse stage (exit code 2):",
    "  E_EMPTY_INPUT             nothing but whitespace",
    "  E_MISSING_OUTER_PARENS    input does not start with \"(\" or end with \")\"",
    "  E_MISMATCHED_PARENS       unbalanced or more than one top-level form",
    "  E_UNEXPECTED_CLOSE_PAREN  \")\" where an expression was expected",
    "  E_UNEXPECTED_EOF          input ended inside a form",
    "",
    "Evaluation (exit code 4):",
    "  E_NAME          unbound symbol",
    "  E_ARITY         wrong number of arguments or operands",
    "  E_ARITHMETIC    division by zero, overflow, math domain errors",
    "  E_NOT_CALLABLE  head of a form is not a function",
    "  E_TYPE          operand of the wrong type",
    "  E_SYNTAX        malformed defun or format",
    "  E_RESOURCE      maximum recursion or nesting depth exceeded",
    "",
    "Other: E_IO, E_CONFIG (exit code 1).",
    "Diagnostics are printed as JSON; pass --pretty for text."]
  | .prompt => page [
    "REPL",
    "",
    "  pylisp                 start the prompt",
    "",
    "A form may span several lines; the prompt changes to \"...> \" until it is",
    "balanced. Errors are printed and the session continues with every earlier",
    "definition intact.",
    "",
    "  :help [topic]          this help",
    "  :env                   names defined in this session",
    "  :quit                  leave (Ctrl-D also works)",
    "",
    "Ctrl-C discards the pending input. History is kept in the file named by",
    "\"history\" in the config."]
  | .examples => page [
    "EXAMPLES",
    "",
    "  (defun fact (n) (if (<= n 1) 1 (* n (fact (- n 1)))))",
    "  (fact 5)                           => 120",
    "",
    "  (defun hyp (a b) (sqrt (+ (* a a) (* b b))))",
    "  (hyp 3 4)                          => 5.0",
    "",
    "  (/ 1 4)                            => 0.25",
    "  (format t \"pi is ~D~%\" pi)         => pi is 3.141592653589793"]

end Topic

/-! ## Finding a topic -/

inductive HelpError where
  | unknown (asked : String)
  | ambiguous (asked : String) (found : List Topic)
  deriving DecidableEq, Repr

def HelpError.message : HelpError → String
  | .unknown asked => "unknown help topic: " ++ asked
  | .ambiguous asked found =>
    "ambiguous help topic \"" ++ asked ++ "\": " ++ ", ".intercalate (found.map Topic.name)

/-- The topics whose names begin with a text. The empty text begins none. -/
def candidates (asked : String) : List Topic :=
  if asked = "" then [] else Topic.all.filter fun t => Text.startsWith asked t.name

/-- The topic of this name, or the only one whose name begins so. Case and surrounding blanks do not matter. -/
def find (asked : String) : Except HelpError Topic :=
  let asked := Text.lower (Text.trim asked)
  match Topic.all.find? fun t => t.name = asked with
  | some t => .ok t
  | none =>
    match candidates asked with
    | [t] => .ok t
    | [] => .error (.unknown asked)
    | found => .error (.ambiguous asked found)

end Help

end FormLang
