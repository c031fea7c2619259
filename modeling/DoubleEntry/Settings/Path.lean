import DoubleEntry.Settings.Node
import DoubleEntry.Text.Reader
set_option autoImplicit false

/-! # Paths to settings

A path leads from the top of a configuration to one of its values: `a.b[2]` is the third item of the
list `b` in the table `a`. The case of letters in names does not matter.
-/

namespace DoubleEntry.Settings

open DoubleEntry.Text

/-- One step on the way to a value. -/
inductive Path.Step where
  | name (s : String)
  /-- An item of a list; negative numbers count from its end. -/
  | item (n : Int)
  deriving DecidableEq, Repr

/-- The way to a value. -/
structure Path where
  top : String
  steps : List Path.Step
  deriving DecidableEq, Repr

namespace Path

/-- Whether a character can stand in a name. -/
def isNameChar (c : Char) : Bool := c.isAlphanum || c = '_' || c = '-' || c = ' '

/-- Reads a name. -/
def readName : Reader String := do
  let cs ← Reader.takeWhile isNameChar
  if cs.isEmpty then Reader.fail else return String.ofList (cs.map Char.toLower)

/-- Reads a whole number. -/
def readNumber : Reader Int := do
  let negative ← Reader.accept "-"
  let digits ← Reader.takeWhile isDigit
  if digits.isEmpty then Reader.fail
  else return if negative then -(ofDigits digits : Int) else ofDigits digits

/-- Reads the steps of a path. -/
def readSteps : Reader (List Step) := do
  let n := (← Reader.rest).length
  Reader.many (n + 1) do
    if ← Reader.accept "." then return some (.name (← readName))
    else if ← Reader.accept "[" then
      let n ← readNumber
      Reader.expect "]"
      return some (.item n)
    else return none

/-- Reads a path. -/
def readPath : Reader Path := do
  let top ← readName
  return { top, steps := ← readSteps }

/-- The path that a text stands for: what is not a path is a name as a whole. -/
def ofString (s : String) : Path := (readPath.whole? s.toList).getD ⟨s, []⟩

end Path

end DoubleEntry.Settings
