import DoubleEntry.Text.Digits
set_option autoImplicit false

/-! # Readers

A reader takes a value from the front of a text or fails. Readers are composed in `do` blocks; what
repeats is given a bound, which the length of the text always is.
-/

namespace DoubleEntry.Text

/-- A way to take a value from the front of a text, or to fail. -/
abbrev Reader (α : Type) := StateT (List Char) Option α

namespace Reader

variable {α : Type}

/-- Fails. -/
def fail : Reader α := fun _ => none

/-- The text that is left. -/
def rest : Reader (List Char) := fun cs => some (cs, cs)

/-- The next character, which is left in its place. -/
def peek : Reader (Option Char) := fun cs => some (cs.head?, cs)

/-- Takes the next character. -/
def next : Reader Char := fun cs =>
  match cs with
  | [] => none
  | c :: cs => some (c, cs)

/-- The rest of a text after a word that it starts with. -/
def dropWord? : List Char → List Char → Option (List Char)
  | [], cs => some cs
  | w :: ws, c :: cs => if w = c then dropWord? ws cs else none
  | _ :: _, [] => none

/-- Whether the text goes on with a word, which is left in its place. -/
def startsWith (word : String) : Reader Bool := fun cs =>
  some ((dropWord? word.toList cs).isSome, cs)

/-- Takes a word if the text goes on with it, and tells whether it did. -/
def accept (word : String) : Reader Bool := fun cs =>
  match dropWord? word.toList cs with
  | some rest => some (true, rest)
  | none => some (false, cs)

/-- Takes a word, which has to be there. -/
def expect (word : String) : Reader Unit := fun cs =>
  (dropWord? word.toList cs).map ((), ·)

/-- Takes the characters up to the first that does not belong to a class. -/
def takeWhile (p : Char → Bool) : Reader (List Char) := fun cs =>
  some (cs.takeWhile p, cs.dropWhile p)

/-- Skips the characters up to the first that does not belong to a class. -/
def skipWhile (p : Char → Bool) : Reader Unit := fun cs => some ((), cs.dropWhile p)

/-- Takes a number of characters, all of which belong to a class. -/
def takeExactly (n : Nat) (p : Char → Bool) : Reader (List Char) := fun cs =>
  let taken := cs.take n
  if taken.length = n ∧ taken.all p then some (taken, cs.drop n) else none

/-- Whether nothing is left. -/
def atEnd : Reader Bool := fun cs => some (cs.isEmpty, cs)

/-- Takes values until a reader has no more, at most `n` of them. -/
def many : Nat → Reader (Option α) → Reader (List α)
  | 0, _ => fail
  | n + 1, r => do
      match ← r with
      | none => return []
      | some a => return a :: (← many n r)

/-- Takes values with separators between them up to a word that ends them, at most `n` of them; the
last value may have a separator after it. Around values and separators `skip` is taken. -/
def listed (n : Nat) (skip : Reader Unit) (separator close : String) (item : Reader α) :
    Reader (List α) := do
  skip
  if ← accept close then return []
  many n do
    skip
    if ← accept close then return none
    let a ← item
    skip
    if ← accept separator then return some a
    else if ← startsWith close then return some a
    else fail

/-- What a reader makes of a whole text. -/
def whole? (r : Reader α) (cs : List Char) : Option α :=
  match r cs with
  | some (a, []) => some a
  | _ => none

end Reader

end DoubleEntry.Text
