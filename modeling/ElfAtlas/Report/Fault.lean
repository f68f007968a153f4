import ElfAtlas.Fault
import ElfAtlas.Json.Basic

/-!
Faults and diagnostics as JSON, written and read. A fault is tagged with the name of its kind; a kind
without details is the name alone.
-/

namespace ElfAtlas

namespace Fault

def kindName : Fault → String
  | notElf => "NotAnElfFile"
  | unsupportedVariant .. => "UnsupportedElfVariant"
  | truncatedHeader .. => "TruncatedHeader"
  | outOfBounds .. => "OutOfBounds"
  | overflow _ => "IntegerOverflow"
  | unsupportedArchitecture _ => "UnsupportedArchitecture"
  | truncatedTable .. => "TruncatedTable"
  | entryTooSmall .. => "InvalidEntrySize"
  | missingLink .. => "InvalidSectionLink"
  | cancelled => "Cancelled"
  | timedOut _ => "Timeout"
  | worker _ => "Worker"
  | badConfig _ => "InvalidConfig"

def details? : Fault → Option Json
  | notElf | cancelled => none
  | unsupportedVariant field value =>
    some (.object [("field", .string field), ("value", .nat value.toNat)])
  | truncatedHeader needed available =>
    some (.object [("needed", .nat needed), ("available", .nat available)])
  | outOfBounds offset width length =>
    some (.object [("offset", .nat offset), ("width", .nat width), ("length", .nat length)])
  | overflow computing => some (.object [("context", .string computing)])
  | truncatedTable table parsed declared =>
    some (.object [("table", .string table), ("parsed", .nat parsed), ("declared", .nat declared)])
  | entryTooSmall table expected found =>
    some (.object [("table", .string table), ("expected", .nat expected), ("found", .nat found)])
  | missingLink sectionIndex link =>
    some (.object [("section", .nat sectionIndex), ("link", .nat link)])
  | timedOut seconds => some (.object [("seconds", .nat seconds)])
  | unsupportedArchitecture text | worker text | badConfig text => some (.string text)

def toJson (f : Fault) : Json :=
  match f.details? with
  | none => .string f.kindName
  | some details => .tagged f.kindName details

/-- The fault of a kind with given details. Further members are ignored; a missing member or a number
that does not fit its width is refused. -/
def ofDetails? (kind : String) (details : Json) : Option Fault := do
  let text (key : String) : Option String := (details.get? key).bind Json.string?
  let word (width : Nat) (key : String) : Option Nat := (details.get? key).bind (·.word? width)
  match kind with
  | "UnsupportedElfVariant" =>
    return .unsupportedVariant (← text "field") (UInt8.ofNat (← word 8 "value"))
  | "TruncatedHeader" => return .truncatedHeader (← word 64 "needed") (← word 64 "available")
  | "OutOfBounds" =>
    return .outOfBounds (← word 64 "offset") (← word 64 "width") (← word 64 "length")
  | "IntegerOverflow" => return .overflow (← text "context")
  | "UnsupportedArchitecture" => return .unsupportedArchitecture (← details.string?)
  | "TruncatedTable" =>
    return .truncatedTable (← text "table") (← word 64 "parsed") (← word 64 "declared")
  | "InvalidEntrySize" =>
    return .entryTooSmall (← text "table") (← word 64 "expected") (← word 64 "found")
  | "InvalidSectionLink" => return .missingLink (← word 64 "section") (← word 32 "link")
  | "Timeout" => return .timedOut (← word 64 "seconds")
  | "Worker" => return .worker (← details.string?)
  | "InvalidConfig" => return .badConfig (← details.string?)
  | _ => none

def ofJson? (j : Json) : Option Fault := do
  match ← j.tag? with
  | ("NotAnElfFile", .null) => return .notElf
  | ("Cancelled", .null) => return .cancelled
  | (kind, details) => ofDetails? kind details

end Fault

namespace Stage

def names : List (String × Stage) :=
  [("ProgramHeaders", programHeaders), ("SectionHeaders", sectionHeaders), ("Symbols", symbols),
    ("Relocations", relocations), ("Dynamic", dynamic), ("Strings", strings),
    ("Disassembly", disassembly), ("CrossReferences", crossReferences)]

def toJson (s : Stage) : Json :=
  match names.find? (·.2 = s) with
  | some (name, _) => .string name
  | none => .null

def ofJson? (j : Json) : Option Stage := do
  match ← j.tag? with
  | (name, .null) => names.lookup name
  | _ => none

end Stage

namespace Diagnostic

def toJson (d : Diagnostic) : Json := .object [("stage", d.stage.toJson), ("error", d.fault.toJson)]

def ofJson? (j : Json) : Option Diagnostic := do
  return { stage := ← Stage.ofJson? (← j.get? "stage"), fault := ← Fault.ofJson? (← j.get? "error") }

end Diagnostic

end ElfAtlas
