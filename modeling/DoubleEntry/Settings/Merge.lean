import DoubleEntry.Settings.Path
set_option autoImplicit false

/-! # Merging configurations

Settings come from several sources, one after the other. A later value takes the place of an earlier
one of the same path, except that tables are merged. A setting remembers the source of its value,
but not when the value is a table, or was put together.
-/

namespace DoubleEntry.Settings

/-- The value of a setting, and the source that it comes from. -/
structure Setting where
  value : Node
  source? : Option String := none
  deriving Inhabited, BEq, Repr

/-- The settings by their names. -/
abbrev Merged := List (String × Setting)

mutual

/-- Merges a value over another one. -/
def overlay (old : Option Node) : Node → Node
  | .table ms => .table (overlayMembers ((old.bind Node.members?).getD []) ms)
  | v => v

/-- Merges named values over others. -/
def overlayMembers (old : Members) : List (String × Node) → Members
  | [] => old
  | (name, v) :: rest => overlayMembers (old.set name (overlay (old.lookup name) v)) rest

end

/-- The items of a list in which an item with a given number is to be set; missing items are
made. -/
def withItem (items : List Node) (n : Int) (f : Node → Node) : List Node :=
  let index : Nat := if n < 0 then (items.length + n).toNat else n.toNat
  let full := items ++ List.replicate (index + 1 - items.length) Node.nothing
  full.mapIdx fun i v => if i = index then f v else v

/-- Sets the value at the end of some steps, making the tables and lists on the way. -/
def setAt (value : Node) : List Path.Step → Option Node → Node
  | [], old => overlay old value
  | .name s :: rest, old =>
      let ms := (old.bind Node.members?).getD []
      .table (ms.set s (setAt value rest (ms.lookup s)))
  | .item n :: rest, old =>
      let items := match old with
        | some (.list items) => items
        | _ => []
      .list (withItem items n fun v => setAt value rest (some v))

/-- Whether a value is a table. -/
def Node.isTable (n : Node) : Bool := n.members?.isSome

namespace Merged

/-- Gives a setting a value. -/
def put (m : Merged) (name : String) (s : Setting) : Merged :=
  if (m.lookup name).isSome then m.map fun x => if x.1 = name then (name, s) else x
  else m ++ [(name, s)]

/-- Sets the value at a path. -/
def set (m : Merged) (path : Path) (value : Node) (source : String) : Merged :=
  let old := (m.lookup path.top).map Setting.value
  let source? := if path.steps.isEmpty ∧ ¬ value.isTable then some source else none
  m.put path.top { value := setAt value path.steps old, source? }

/-- Adds the settings of a source. -/
def add (m : Merged) (source : String) (settings : List (String × Node)) : Merged :=
  settings.foldl (fun m s => m.set (Path.ofString s.1) s.2 source) m

end Merged

end DoubleEntry.Settings
