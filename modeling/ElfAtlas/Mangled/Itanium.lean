import ElfAtlas.Mangled.Itanium.Grammar
import ElfAtlas.Mangled.Itanium.Printer

/-!
Names of the Itanium scheme, which C++ uses. Suffixes tell which copy of a function a name is for.
-/

namespace ElfAtlas.Mangled.Itanium

/-- The levels of nesting in a name, and in its readable form. -/
def readLevels : Nat := 94

def writeLevels : Nat := 126

def isSuffixChar (c : Char) : Bool := c.isAlphanum || c = '_' || c = '$'

/-- One copy: what it is, and numbers. -/
def copy : Reader String := do
  Reader.expect "."
  let cs ← Reader.rest
  let kind := cs.takeWhile isSuffixChar
  if kind.isEmpty then throw .mismatch
  Reader.setRest (cs.drop kind.length)
  let numbers ← Reader.zeroOrMore do
    Reader.expect "."
    Reader.natural
  return " [clone ." ++ String.ofList kind ++ String.join (numbers.map fun n => "." ++ toString n)
    ++ "]"

def whole : Reader (Encoding × List String) := do
  let e ← Grammar.encoding readLevels
  let copies ← Reader.zeroOrMore copy
  if (← Reader.rest).isEmpty then return (e, copies) else throw .mismatch

/-- The readable form, if the name is one to its end and refers to nothing that it lacks. -/
def demangle? (name : String) : Option String := do
  let body ← afterFirst? ["_Z", "__Z"] name.toList
  match whole.run ⟨body, #[], false⟩ with
  | .ok (e, copies) _ =>
    let ((), sheet) ← (Printer.encoding [] e writeLevels).run {}
    return sheet.text ++ String.join copies
  | .error _ _ => none

end ElfAtlas.Mangled.Itanium
