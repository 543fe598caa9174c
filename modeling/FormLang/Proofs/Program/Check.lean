import FormLang.Command
import FormLang.Proofs.Program.Format
import FormLang.Proofs.Session.Errors

/-!
# Checking, formatting and running

A check reads every statement and evaluates none, formatting stops at the first that it cannot read, and a run reads each
statement in the session that the statements before it have left. The three agree on what cannot be read, because reading
depends on the limit of a session only, which no statement changes (`checkAll_eq_filterMap`, `formatAll_eq_error_iff`).

They do not agree on how a program ends. Formatting ends with the status of its failure, and a check that finds anything with
the status of a parse error. The two differ exactly if the first statement that cannot be read is nested too deep
(`status_printCheck_eq_iff`).
-/

namespace FormLang

/-! ## What cannot be read -/

/-- The diagnostic of a result at its place in a file, if the statement could not be read. -/
def Result.unread? (file : String) (r : Result) : Option Diagnostic :=
  match r.outcome with
  | .error (.parse e) => some ((Problem.parse e).locate file r.statement.line)
  | _ => none

/-- Limits that stand for the same number of levels read alike. -/
theorem Expr.parse_congr {limit limit' : Int} (h : effectiveLimit limit = effectiveLimit limit') (ts : List Token) :
    parse limit ts = parse limit' ts := by
  rw [parse, parse, h]

namespace Session

theorem unread?_of_error {s : Session} {st : Statement} {err : ParseError}
    (hparse : Expr.parse s.limit (Token.ofText st.text) = .error err) (file : String) :
    Result.unread? file ⟨st, (s.evaluate st.text).2⟩ = some ((Problem.parse err).locate file st.line) := by
  rw [evaluate_of_error hparse]
  rfl

/-- What is evaluated may fail, but not as something that cannot be read. -/
theorem unread?_of_ok {s : Session} {st : Statement} {e : Expr}
    (hparse : Expr.parse s.limit (Token.ofText st.text) = .ok e) (file : String) :
    Result.unread? file ⟨st, (s.evaluate st.text).2⟩ = none := by
  rw [evaluate_of_ok hparse]
  cases (evalTop (effectiveLimit s.limit) s.machine e globalScope).2 <;> rfl

end Session

namespace Program

/-- A check finds what a run cannot read, whatever its statements do to the session. -/
theorem checkAll_eq_filterMap (file : String) {s : Session} (hlimit : effectiveLimit s.limit = defaultLimit)
    (sts : List Statement) : checkAll file sts = (s.runAll sts).2.filterMap (Result.unread? file) := by
  induction sts generalizing s with
  | nil => rfl
  | cons st rest ih =>
    have hrest : effectiveLimit (s.evaluate st.text).1.limit = defaultLimit := by rw [Session.limit_evaluate, hlimit]
    have hread : Expr.parse s.limit (Token.ofText st.text) = Expr.ofText st.text := Expr.parse_congr hlimit _
    rw [Session.runAll_cons, checkAll]
    cases hparse : Expr.ofText st.text with
    | error err =>
      rw [hparse] at hread
      rw [List.filterMap_cons_some (Session.unread?_of_error hread file), ih hrest]
    | ok e =>
      rw [hparse] at hread
      rw [List.filterMap_cons_none (Session.unread?_of_ok hread file), ih hrest]

/-- Formatting fails with the first diagnostic of a check. -/
theorem formatAll_eq_error_iff {file done : String} {sts : List Statement} {d : Diagnostic} :
    formatAll file done sts = .error d ↔ (checkAll file sts).head? = some d := by
  induction sts generalizing done with
  | nil => simp [formatAll, checkAll]
  | cons st rest ih =>
    rw [formatAll, checkAll]
    cases Expr.ofText st.text with
    | error err => simp
    | ok e => exact ih

theorem checkAll_of_formatAll_eq_ok {file done out : String} {sts : List Statement}
    (h : formatAll file done sts = .ok out) : checkAll file sts = [] := by
  refine List.head?_eq_none_iff.mp (Option.eq_none_iff_forall_ne_some.mpr fun d hd => ?_)
  rw [formatAll_eq_error_iff.mpr hd] at h
  cases h

/-- **Checking, formatting and running agree on what cannot be read.** In a session with the default limit, whatever its scopes
hold, the diagnostics of a check are those of the statements that a run cannot read, in their order. Formatting fails if and
only if there are any, and then with the first. -/
theorem check_eq_filterMap_run (source file : String) (s : Session) (hlimit : effectiveLimit s.limit = defaultLimit) :
    check source file = (s.run source).2.filterMap (Result.unread? file) ∧
    (∀ d, format source file = .error d ↔ (check source file).head? = some d) ∧
    ((∃ out, format source file = .ok out) ↔ check source file = []) := by
  have herror : ∀ d, format source file = .error d ↔ (check source file).head? = some d :=
    fun d => formatAll_eq_error_iff
  refine ⟨checkAll_eq_filterMap file hlimit _, herror, ?_⟩
  cases hformat : format source file with
  | error d =>
    have hhead := (herror d).mp hformat
    constructor
    · rintro ⟨out, hout⟩
      cases hout
    · intro hnil
      rw [hnil] at hhead
      cases hhead
  | ok out => exact ⟨fun _ => checkAll_of_formatAll_eq_ok hformat, fun _ => ⟨out, rfl⟩⟩

/-- The second of three statements fails when it is evaluated, and the third is not closed. -/
theorem check_eq_filterMap_run_open_form :
    effectiveLimit (Session.fresh 10000).limit = defaultLimit ∧
    ((Session.fresh 10000).run "x\n(f)\n(f").2.filterMap (Result.unread? "a") =
      [⟨.missingOuterParens, "expression must start with '('", some ⟨"a", 1⟩, "wrap the input as (x)"⟩,
        ⟨.missingOuterParens, "expression must end with ')'", some ⟨"a", 3⟩, ""⟩] := by
  have hlimit : effectiveLimit (Session.fresh 10000).limit = defaultLimit := by decide
  refine ⟨hlimit, ?_⟩
  rw [← (check_eq_filterMap_run "x\n(f)\n(f" "a" (Session.fresh 10000) hlimit).1]
  decide +kernel

end Program

/-! ## How a program ends -/

/-- The status of a program that ends with the failure, if there is one. -/
def Diagnostic.endStatus : Option Diagnostic → ExitStatus
  | none => .ok
  | some d => d.exitStatus

/-- What cannot be read ends a program as a parse error, unless it is nested too deep. -/
theorem Problem.Admissible.exitStatus_parse {err : ParseError} (h : (Problem.parse err).Admissible) :
    (Problem.parse err).exitStatus = if (Problem.parse err).code = .resource then .runtime else .parse := by
  cases err with
  | balance e =>
    have hcodes : ∀ c ∈ BalanceError.codes, c ≠ .resource := by decide
    have hcode : (Problem.parse (.balance e)).code ≠ .resource := hcodes e.code e.code_mem_codes
    rw [exitStatus_balance, if_neg hcode]
  | read e =>
    have hcode : (Problem.parse (.read e)).code = .resource := h
    rw [h.exitStatus_eq_runtime fun e' heq => (by cases heq), if_pos hcode]

namespace Program

theorem exitStatus_of_mem_checkAll {file : String} {sts : List Statement} :
    ∀ d ∈ checkAll file sts, d.exitStatus = if d.code = .resource then .runtime else .parse := by
  induction sts with
  | nil =>
    intro d hd
    cases hd
  | cons st rest ih =>
    rw [checkAll]
    cases hparse : Expr.ofText st.text with
    | ok e => exact ih
    | error err =>
      rw [List.forall_mem_cons]
      exact ⟨(Expr.admissible_of_parse hparse).exitStatus_parse, ih⟩

theorem status_printCheck (ds : List Diagnostic) (pretty : Bool) :
    (printCheck ds pretty).status = if ds = [] then .ok else .parse := by
  cases ds <;> rfl

/-- Formatting a file ends with the first diagnostic of a check of its text. -/
theorem status_formatFile {w : Workplace} {file source : String} (hread : w.readText? file = some source) (write : Bool) :
    (Command.formatFile w file write).1.status = Diagnostic.endStatus (check source file).head? := by
  rw [Command.formatFile, hread]
  simp only
  cases hformat : format source file with
  | error d =>
    have hhead : (check source file).head? = some d := formatAll_eq_error_iff.mp hformat
    rw [hhead]
    rfl
  | ok out =>
    have hcheck : check source file = [] := checkAll_of_formatAll_eq_ok hformat
    rw [hcheck]
    cases write <;> rfl

/-- **A check ends with the status of its first failure, unless that is nested too deep.** It ends as a success if it finds
nothing and as a parse error otherwise. This is the status of the first diagnostic, with which formatting ends, exactly if
that diagnostic does not report a nesting beyond the limit: such a one stands for a runtime error. -/
theorem status_printCheck_eq_iff (source file : String) (pretty : Bool) :
    (printCheck (check source file) pretty).status = (if check source file = [] then .ok else .parse) ∧
    (∀ d ∈ check source file, d.exitStatus = if d.code = .resource then .runtime else .parse) ∧
    ((printCheck (check source file) pretty).status = Diagnostic.endStatus (check source file).head? ↔
      ∀ d, (check source file).head? = some d → d.code ≠ .resource) ∧
    ∀ (w : Workplace) (write : Bool), w.readText? file = some source →
      (Command.execute w (.format file write)).1.status = Diagnostic.endStatus (check source file).head? := by
  have hstatus : ∀ d ∈ check source file, d.exitStatus = if d.code = .resource then .runtime else .parse :=
    exitStatus_of_mem_checkAll
  refine ⟨status_printCheck _ pretty, hstatus, ?_, fun w write hread => status_formatFile hread write⟩
  rw [status_printCheck]
  cases hcheck : check source file with
  | nil => simp [Diagnostic.endStatus]
  | cons d rest =>
    rw [hcheck, List.forall_mem_cons] at hstatus
    rw [if_neg (List.cons_ne_nil _ _), List.head?_cons, Diagnostic.endStatus, hstatus.1]
    by_cases hcode : d.code = .resource <;> simp [hcode]

/-- A file that holds an open form. -/
def openForm : Workplace :=
  ⟨⟨[(["a"], "(f")], []⟩, "/", none, "", "", ""⟩

theorem status_printCheck_eq_iff_open_form :
    openForm.readText? "a" = some "(f" ∧
    (printCheck (check "(f" "a") true).status = .parse ∧
    (Command.execute openForm (.format "a" true)).1.status = .parse := by
  have hread : openForm.readText? "a" = some "(f" := by decide +kernel
  obtain ⟨hcheck, -, -, hformat⟩ := status_printCheck_eq_iff "(f" "a" true
  refine ⟨hread, ?_, ?_⟩
  · rw [hcheck]
    decide +kernel
  · rw [hformat openForm true hread]
    decide +kernel

/-! ## A form that is nested too deep -/

/-- A form nested beyond the limit, alone in a source, is all that a check finds. -/
theorem check_printed_of_lt {items : List Expr} (h : Expr.LegibleAll items)
    (hdeep : defaultLimit < (Expr.list items).nest) (file : String) :
    ∃ line, check (printed [.list items]) file = [(Problem.parse (.read (.tooDeep defaultLimit))).locate file line] := by
  have hlegible : (Expr.list items).Legible := h
  obtain ⟨cs, hflat, hexpr⟩ := Expr.exists_node h
  have hparse : Expr.ofText (Expr.list items).pretty = .error (.read (.tooDeep defaultLimit)) := by
    rw [← hexpr, TokenTree.nest_toExpr] at hdeep
    rw [Expr.ofText, Expr.ofText_pretty hlegible.worded, ← hflat]
    exact Expr.parse_node_of_lt hdeep
  have htexts : (Statement.ofSource (printed [.list items])).map (·.text) = [(Expr.list items).pretty] :=
    text_ofSource_printed (by simpa using hlegible)
  obtain ⟨st, hst, htext⟩ := List.map_eq_singleton_iff.mp htexts
  refine ⟨st.line, ?_⟩
  rw [check, hst, checkAll, htext, hparse, checkAll]

/-- Lists in each other, the innermost of them empty. -/
def nested : Nat → List Expr
  | 0 => []
  | n + 1 => [.list (nested n)]

theorem leavesAll_nested (n : Nat) : Expr.leavesAll (nested n) = [] := by
  induction n with
  | zero => rfl
  | succ n ih => rw [nested, Expr.leavesAll, Expr.leaves, ih, Expr.leavesAll, List.append_nil]

theorem nest_nested (n : Nat) : (Expr.list (nested n)).nest = n + 1 := by
  induction n with
  | zero => rfl
  | succ n ih => rw [Expr.nest, nested, Expr.nestAll, ih, Expr.nestAll, Nat.max_zero, Nat.add_comm]

/-- The check of a single form with 10001 levels ends as a parse error, and its diagnostic stands for a runtime error. -/
theorem not_status_printCheck_eq_first :
    ¬ ∀ (source file : String) (pretty : Bool),
      (printCheck (check source file) pretty).status = Diagnostic.endStatus (check source file).head? := by
  intro hstatus
  have hlegible : Expr.LegibleAll (nested defaultLimit) := by
    intro a ha
    rw [leavesAll_nested] at ha
    cases ha
  obtain ⟨line, hcheck⟩ := check_printed_of_lt hlegible (by rw [nest_nested]; omega) "a"
  have hsame := hstatus (printed [.list (nested defaultLimit)]) "a" false
  rw [hcheck] at hsame
  cases hsame

end Program

end FormLang
