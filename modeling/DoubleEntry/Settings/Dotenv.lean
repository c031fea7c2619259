import DoubleEntry.Text.Blank
import DoubleEntry.Text.Digits
set_option autoImplicit false

/-! # Files with variables

A file of lines `KEY=value` that are read as if they were variables of the environment. A value may
stand between quotation marks, also over several lines, refer to other variables with a dollar sign,
and have a comment after it. Reading stops at the first line that is not well formed.
-/

namespace DoubleEntry.Settings

open DoubleEntry.Text

/-- The variables of an environment by their names. -/
abbrev Variables := List (String × String)

namespace Dotenv

/-! ## Lines -/

/-- Where in a line a character stands, as far as it matters for where the line ends. -/
inductive Place where
  | plain
  | blank
  | comment
  | single
  | double
  | escaped (next : Place)
  deriving DecidableEq, Repr

/-- The place after a character. -/
def Place.after (p : Place) (c : Char) : Place :=
  match p with
  | .plain =>
      if isBlank c ∧ c ≠ '\n' ∧ c ≠ '\r' then .blank
      else if c = '\\' then .escaped .plain
      else if c = '"' then .double
      else if c = '\'' then .single
      else .plain
  | .blank =>
      if c = '#' then .comment
      else if c = '\\' then .escaped .plain
      else if c = '"' then .double
      else if c = '\'' then .single
      else .plain
  | .double => if c = '\\' then .escaped .double else if c = '"' then .plain else .double
  | .single => if c = '\\' then .escaped .single else if c = '\'' then .plain else .single
  | .escaped next => next
  | .comment => .comment

/-- Takes the characters of a physical line up to its end or up to a comment; `none` in place of the
last place stands for a comment. -/
def takePhysical (p : Place) : List Char → List Char × Place × List Char
  | [] => ([], p, [])
  | c :: cs =>
      let q := p.after c
      if q = .comment then ([], .comment, (cs.dropWhile (· ≠ '\n')).drop 1)
      else if c = '\n' then ([c], q, cs)
      else
        let (taken, last, rest) := takePhysical q cs
        (c :: taken, last, rest)

/-- The text of a line without its end. -/
def withoutEnd (cs : List Char) : List Char :=
  match cs.reverse with
  | '\n' :: '\r' :: rest => rest.reverse
  | '\n' :: rest => rest.reverse
  | _ => cs

/-- Takes a line, which goes on as long as a quotation is open. Nothing comes after the last line; a
line that is still open there is not well formed. -/
def takeLine : Nat → Place → List Char → List Char → Option (Option (List Char) × List Char)
  | 0, _, _, _ => none
  | fuel + 1, p, before, cs =>
      if cs.isEmpty then if p = .plain then some (none, []) else none
      else
        let lineStart := trimLeft (before ++ cs.takeWhile (· ≠ '\n'))
        if lineStart.head? = some '#' then some (some [], (cs.dropWhile (· ≠ '\n')).drop 1)
        else
          match takePhysical p cs with
          | (taken, .plain, rest) => some (some (withoutEnd (before ++ taken)), rest)
          | (taken, .comment, rest) => some (some (before ++ taken), rest)
          | (taken, q, rest) => takeLine fuel q (before ++ taken) rest

/-! ## Values -/

/-- How far a reference to a variable has been read. -/
inductive Reference where
  | none
  /-- After the dollar sign. -/
  | bare
  /-- After the dollar sign and an opening brace. -/
  | braced
  deriving DecidableEq, Repr

/-- A value that has been read up to some character. -/
structure Draft where
  /-- The characters of the value, the last one first. -/
  shown : List Char := []
  single : Bool := false
  double : Bool := false
  escaped : Bool := false
  /-- Only blanks and a comment may follow. -/
  ended : Bool := false
  /-- A comment has begun. -/
  comment : Bool := false
  reference : Reference := .none
  /-- The name of the variable that is referred to, the last character first. -/
  name : List Char := []

namespace Draft

/-- Adds a character to the value. -/
def add (d : Draft) (c : Char) : Draft := { d with shown := c :: d.shown }

/-- Puts the value of the variable in the place of the reference to it. -/
def resolve (d : Draft) (value : String → String) : Draft :=
  { d with
    shown := (value (String.ofList d.name.reverse)).toList.reverse ++ d.shown
    name := []
    reference := .none }

/-- Takes a character that follows a backslash. -/
def unescape? (d : Draft) (c : Char) : Option Draft :=
  let d := { d with escaped := false }
  if c = '\\' ∨ c = '\'' ∨ c = '"' ∨ c = '$' ∨ c = ' ' then some (d.add c)
  else if c = 'n' then some (d.add '\n')
  else none

/-- Takes a character within a reference to a variable. -/
def refer (d : Draft) (value : String → String) (c : Char) : Draft :=
  if c.isAlphanum then { d with name := c :: d.name }
  else match d.reference with
    | .braced => if c = '\x7d' then d.resolve value else { d with name := c :: d.name }
    | _ =>
        if c = '\x7b' ∧ d.name.isEmpty then { d with reference := .braced }
        else
          let d := d.resolve value
          if c = '$' then { d with reference := .bare } else d.add c

/-- Takes the next character of a value. -/
def step? (d : Draft) (value : String → String) (c : Char) : Option Draft :=
  if d.comment then some d
  else if d.ended then
    if c = ' ' ∨ c = '\t' then some d
    else if c = '#' then some { d with comment := true }
    else none
  else if d.escaped then d.unescape? c
  else if d.single then some (if c = '\'' then { d with single := false } else d.add c)
  else if d.reference ≠ .none then some (d.refer value c)
  else if c = '$' then some { d with reference := .bare }
  else if d.double then
    some (if c = '"' then { d with double := false }
      else if c = '\\' then { d with escaped := true }
      else d.add c)
  else if c = '\'' then some { d with single := true }
  else if c = '"' then some { d with double := true }
  else if c = '\\' then some { d with escaped := true }
  else if c = ' ' ∨ c = '\t' then some { d with ended := true }
  else some (d.add c)

end Draft

/-- Reads a value, given the values of the variables that it may refer to. -/
def value? (value : String → String) (cs : List Char) : Option String := do
  let d ← cs.foldlM (fun d c => d.step? value c) ({} : Draft)
  if d.reference = .braced ∨ d.single ∨ d.double then none
  return String.ofList (d.resolve value).shown.reverse

/-! ## Files -/

/-- Whether a character can stand at the beginning of a name. -/
def isNameStart (c : Char) : Bool := c.isAlpha || c = '_'

/-- Whether a character can stand in a name. -/
def isNameChar (c : Char) : Bool := c.isAlphanum || c = '_' || c = '.'

/-- Takes a name from the front of a line. -/
def takeName? (cs : List Char) : Option (String × List Char) :=
  if (cs.head?.map isNameStart).getD false then
    some (String.ofList (cs.takeWhile isNameChar), trimLeft (cs.dropWhile isNameChar))
  else none

/-- What a line says: nothing, or the value of a variable. -/
def line? (value : String → String) (cs : List Char) : Option (Option (String × String)) := do
  let cs := trimLeft cs
  if cs.isEmpty ∨ cs.head? = some '#' then return none
  let (name, rest) ← takeName? cs
  let (name, rest) ←
    if name = "export" ∧ rest.head? ≠ some '=' then takeName? rest else some (name, rest)
  match rest with
  | '=' :: rest =>
      let rest := trimLeft rest
      if rest.isEmpty ∨ rest.head? = some '#' then return some (name, "")
      else return some (name, ← value? value rest)
  | _ => none

/-- The value that a name stands for in a file: that of the environment, or else the last one before
in the file. -/
def known (env : Variables) (seen : Variables) (name : String) : String :=
  match env.lookup name with
  | some v => v
  | none => (seen.lookup name).getD ""

/-- Reads the lines of a file into an environment. A variable that is set keeps its value. -/
def loadLines : Nat → Variables → Variables → List Char → Variables
  | 0, env, _, _ => env
  | fuel + 1, env, seen, cs =>
      match takeLine (cs.length + 1) .plain [] cs with
      | none | some (none, _) => env
      | some (some line, rest) =>
          match line? (known env seen) line with
          | none => env
          | some none => loadLines fuel env seen rest
          | some (some (name, v)) =>
              let seen := (name, v) :: seen
              if (env.lookup name).isSome then loadLines fuel env seen rest
              else loadLines fuel (env ++ [(name, v)]) seen rest

/-- **The environment after a file was read.** A variable that is set keeps its value, and so does
the first of two lines for one variable. -/
def load (env : Variables) (text : String) : Variables :=
  let cs := text.toList
  let cs := if cs.head? = some '\ufeff' then cs.drop 1 else cs
  loadLines (cs.length + 1) env [] cs

end Dotenv

end DoubleEntry.Settings
