import DoubleEntry.Service.Log
import DoubleEntry.Settings.Dotenv
import DoubleEntry.Text.Numeral
set_option autoImplicit false

/-! # Log filters

A filter decides which log records are shown. It is a list of directives with commas between them; a
directive `target=level` is about the records whose target begins so, and one without a target about
all records. Of the directives about a record the one with the longest target decides, and of
several with the same target the last.
-/

namespace DoubleEntry.Service

open DoubleEntry.Text

/-- A rule about the records of a target: how verbose the log is about them, from `0` for
nothing. -/
structure Directive where
  target : Option String := none
  verbosity : Nat := Level.trace.verbosity
  /-- Whether the rule holds only within certain spans of time. -/
  spanned : Bool := false
  deriving DecidableEq, Repr

/-- Why a text is not a directive. -/
inductive DirectiveFault where
  | malformed
  | level
  deriving DecidableEq, Repr

/-- What is told about a text that is not a directive. -/
def DirectiveFault.message : DirectiveFault → String
  | .malformed => "invalid filter directive"
  | .level =>
      "error parsing level filter: expected one of \"off\", \"error\", \"warn\", \"info\", " ++
        "\"debug\", \"trace\", or a number 0-5"

namespace Directive

/-- The words for levels. -/
def levelWords : List (String × Nat) :=
  [("off", 0), ("error", 1), ("warn", 2), ("info", 3), ("debug", 4), ("trace", 5), ("", 1)]

/-- The verbosity that a text stands for: a number or a word in any case. -/
def verbosity? (s : String) : Option Nat :=
  match Text.numeral 6 s.toList with
  | .ok n => some n
  | .error _ => levelWords.lookup s.toLower

/-- The verbosity that stands after an equals sign; without any, everything is shown. -/
def verbosityAfter (cs : List Char) : Except DirectiveFault Nat :=
  if cs.isEmpty then .ok Level.trace.verbosity
  else match verbosity? (String.ofList cs) with
    | some n => .ok n
    | none => .error .level

/-- What follows the name of a span: nothing, or an equals sign and a level. -/
def afterSpan (cs : List Char) : Except DirectiveFault Nat :=
  match cs with
  | [] => .ok Level.trace.verbosity
  | '=' :: cs => verbosityAfter cs
  | _ => .error .malformed

/-- The directive about a span within a target. -/
def ofSpan (target : Option String) (cs : List Char) : Except DirectiveFault Directive :=
  match cs.dropWhile (· ≠ ']') with
  | ']' :: rest => do return { target, verbosity := ← afterSpan rest, spanned := true }
  | _ => .error .malformed

/-- Whether a character can stand at the beginning of a directive. -/
def isStart (c : Char) : Bool :=
  c = '-' || c = ':' || c = '_' || c = '[' || c.isAlphanum || (128 ≤ c.toNat && !isBlank c)

/-- Reads a directive. The blanks around it do not count for where its parts end, but they stay in
the parts. -/
def read (cs : List Char) : Except DirectiveFault Directive :=
  let shown := trim cs
  match shown with
  | [] => .error .malformed
  | '[' :: _ => ofSpan none (cs.drop 1)
  | c :: _ =>
      if !isStart c then .error .malformed
      else
        let name := shown.takeWhile fun c => c ≠ '=' && c ≠ '['
        let after := cs.drop (name.length + 1)
        match (shown.drop name.length).head? with
        | none =>
            match verbosity? (String.ofList cs) with
            | some verbosity => .ok { verbosity }
            | none => .ok { target := some (String.ofList cs) }
        | some '[' => ofSpan (some (String.ofList (cs.take name.length))) after
        | some _ => do
            let verbosity ← verbosityAfter after
            return { target := some (String.ofList (cs.take name.length)), verbosity }

/-- Whether a directive is about the records of a target. -/
def concerns (d : Directive) (target : String) : Bool :=
  match d.target with
  | some t => t.toList.isPrefixOf target.toList
  | none => true

/-- How long the target of a directive is; no target is shorter than an empty one. -/
def specificity (d : Directive) : Nat :=
  match d.target with
  | some t => t.utf8ByteSize + 1
  | none => 0

end Directive

/-- A log filter. -/
structure LogFilter where
  directives : List Directive
  deriving DecidableEq, Repr

namespace LogFilter

/-- The filter that shows errors only. It stands for filters without directives. -/
def errorsOnly : LogFilter := ⟨[{ verbosity := Level.error.verbosity }]⟩

/-- The filter of some directives. -/
def ofDirectives (ds : List Directive) : LogFilter := if ds.isEmpty then errorsOnly else ⟨ds⟩

/-- Splits a text at its commas. -/
def parts : List Char → List (List Char)
  | [] => [[]]
  | c :: cs =>
      match parts cs with
      | [] => [[c]]
      | first :: rest => if c = ',' then [] :: first :: rest else (c :: first) :: rest

/-- The texts of the directives of a filter. -/
def directiveTexts (s : String) : List (List Char) := (parts s.toList).filter fun p => !p.isEmpty

/-- Reads a filter, all directives of which have to be right. -/
def read? (s : String) : Option LogFilter :=
  match (directiveTexts s).mapM Directive.read with
  | .ok ds => some (.ofDirectives ds)
  | .error _ => none

/-- What is told about a directive that is left out. -/
def complaint (text : List Char) (fault : DirectiveFault) : String :=
  "ignoring `" ++ String.ofList text ++ "`: " ++ fault.message

/-- Reads a filter and leaves out the directives that are not right; what is told about these. -/
def readLeniently (s : String) : LogFilter × List String :=
  let read := (directiveTexts s).map fun text => (text, Directive.read text)
  (.ofDirectives (read.filterMap fun r => r.2.toOption),
    read.filterMap fun r =>
      match r.2 with
      | .ok _ => none
      | .error fault => some (complaint r.1 fault))

/-- The filter of a service: the one of the variable `RUST_LOG` if it is right, otherwise the one of
the settings. -/
def ofSettings (env : Settings.Variables) (logLevel : String) : LogFilter × List String :=
  match (env.lookup "RUST_LOG").bind read? with
  | some f => (f, [])
  | none => readLeniently logLevel

/-- The directive that decides about a target: the later of two with equally long targets. -/
def decisive? (f : LogFilter) (target : String) : Option Directive :=
  f.directives.foldl (fun best d =>
    if d.spanned ∨ ¬ d.concerns target then best
    else match best with
      | some b => if b.specificity ≤ d.specificity then some d else best
      | none => some d) none

/-- **Whether a log record is shown.** -/
def shows (f : LogFilter) (r : LogRecord) : Bool :=
  match f.decisive? r.target with
  | some d => r.level.verbosity ≤ d.verbosity
  | none => false

end LogFilter

end DoubleEntry.Service
