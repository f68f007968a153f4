import ElfAtlas.Text.Hex

/-!
What can go wrong. A `Fault` is a cause; its wording is `message`. Faults that spoil the whole run are
fatal; all others are kept beside the partial results as diagnostics, labelled with the stage that met
them.
-/

namespace ElfAtlas

inductive Fault where
  | notElf
  | unsupportedVariant (field : String) (value : UInt8)
  | truncatedHeader (needed available : Nat)
  | outOfBounds (offset width length : Nat)
  | overflow (computing : String)
  | unsupportedArchitecture (name : String)
  | truncatedTable (table : String) (parsed declared : Nat)
  | entryTooSmall (table : String) (expected found : Nat)
  | missingLink (sectionIndex link : Nat)
  | cancelled
  | timedOut (seconds : Nat)
  | worker (detail : String)
  | badConfig (detail : String)
  deriving DecidableEq, Repr

namespace Fault

def message : Fault → String
  | notElf => "Not an ELF file"
  | unsupportedVariant field value => s!"Unsupported ELF variant: {field} = {value.toNat}"
  | truncatedHeader needed available =>
    s!"Truncated header: need {needed} bytes, have {available}"
  | outOfBounds offset width length =>
    "Read out of bounds at offset " ++ Hex.marked offset ++ s!" (width {width}, length {length})"
  | overflow computing => s!"Integer overflow computing {computing}"
  | unsupportedArchitecture name => s!"Unsupported architecture: {name}"
  | truncatedTable table parsed declared =>
    s!"Truncated table {table}: parsed {parsed} of {declared} entries"
  | entryTooSmall table expected found =>
    s!"Invalid entry size for {table}: expected at least {expected}, got {found}"
  | missingLink sectionIndex link => s!"Section {sectionIndex} links to missing section {link}"
  | cancelled => "Analysis cancelled"
  | timedOut seconds => s!"Analysis timeout after {seconds}s"
  | worker detail => s!"Worker error: {detail}"
  | badConfig detail => s!"Invalid configuration: {detail}"

def isFatal : Fault → Bool
  | notElf | unsupportedVariant .. | truncatedHeader .. | cancelled | timedOut _ | worker _
  | badConfig _ => true
  | _ => false

end Fault

inductive Stage where
  | programHeaders
  | sectionHeaders
  | symbols
  | relocations
  | dynamic
  | strings
  | disassembly
  | crossReferences
  deriving DecidableEq, Repr

def Stage.label : Stage → String
  | programHeaders => "program-headers"
  | sectionHeaders => "section-headers"
  | symbols => "symbols"
  | relocations => "relocations"
  | dynamic => "dynamic"
  | strings => "strings"
  | disassembly => "disassembly"
  | crossReferences => "xrefs"

structure Diagnostic where
  stage : Stage
  fault : Fault
  deriving DecidableEq, Repr

def Diagnostic.message (d : Diagnostic) : String :=
  "[" ++ d.stage.label ++ "] " ++ d.fault.message

end ElfAtlas
