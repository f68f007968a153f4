import ElfAtlas.Mangled.Tagged.Production

/-!
Rust names of the newer scheme. A name is read twice: once to see that it is one, and once more,
following its references, to write its readable form.
-/

namespace ElfAtlas.Mangled.Tagged

/-- No production calls more than three others before one of them goes deeper. -/
def fuel : Nat := 4 * Reader.maxDepth + 8

/-- The bytes that a readable form may have. -/
def room : Nat := 1000000

/-- Passes over a path: the position behind it. -/
def pathEnd? (name : Array Char) (position : Nat) : Option Nat :=
  let d : Draft := { cursor := ⟨name, position, 0⟩, printing := false, room := 0 }
  match (path false fuel).run d with
  | .ok _ d => if d.failed then none else some d.cursor.position
  | .error _ _ => none

def startsPath (name : Array Char) (position : Nat) : Bool := (name[position]?).any Char.isUpper

/-- A path may be followed by the path of the crate that asked for the code. -/
def end? (name : Array Char) : Option Nat := do
  let position ← pathEnd? name 0
  if startsPath name position then pathEnd? name position else return position

def render (name : Array Char) : String :=
  let d : Draft := { cursor := ⟨name, 0, 0⟩, printing := true, room }
  match (path true fuel).run d with
  | .ok _ d => d.text
  | .error _ d => d.text ++ "\x7bsize limit reached\x7d"

/-- A name behind its prefix, and what follows it. -/
def split? (name : List Char) : Option (Array Char × List Char) := do
  let body ← afterFirst? ["_R", "R", "__R"] name
  let text := body.toArray
  if body.all isAscii && startsPath text 0 then return (text, body.drop (← end? text)) else none

end ElfAtlas.Mangled.Tagged
