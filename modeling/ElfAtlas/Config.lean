import ElfAtlas.Code.Architecture

/-!
Settings of an analysis, with their defaults and the rules that every valid setting obeys.
-/

namespace ElfAtlas

inductive StringScope where
  | wholeImage
  | ofSection (name : String)
  deriving DecidableEq, Repr

structure StringsConfig where
  minLength : UInt64 := 4
  scope : StringScope := .wholeImage
  maxResults : Option UInt64 := some 100000
  deriving DecidableEq, Repr

structure DisasmConfig where
  windowBytes : UInt64 := 1048576
  parallelChunkBytes : UInt64 := 65536
  /-- Takes the place of the architecture that the file names. -/
  architecture : Option Architecture := none
  deriving DecidableEq, Repr

structure SearchConfig where
  maxInstructions : UInt64 := 1000000
  maxResults : Option UInt64 := none
  deriving DecidableEq, Repr

structure Config where
  strings : StringsConfig := {}
  disasm : DisasmConfig := {}
  search : SearchConfig := {}
  parallel : Bool := true
  demangle : Bool := true
  timeoutSeconds : UInt64 := 300
  deriving DecidableEq, Repr

namespace Config

/-- A window that holds the longest instruction. -/
def minWindowBytes : UInt64 := 16

/-- The rules in the order in which they are checked, each with the text for its breach. -/
def rules : List ((Config → Bool) × String) :=
  [(fun c => c.strings.minLength ≠ 0, "strings.min_length must be at least 1"),
    (fun c => c.strings.scope ≠ .ofSection "", "strings.scope section name is empty"),
    (fun c => minWindowBytes ≤ c.disasm.windowBytes, "disasm.window_bytes must be at least 16"),
    (fun c => c.disasm.parallelChunkBytes ≠ 0, "disasm.parallel_chunk_bytes must be non-zero"),
    (fun c => c.search.maxInstructions ≠ 0, "search.max_search_instructions must be non-zero"),
    (fun c => c.timeoutSeconds ≠ 0, "timeout_seconds must be non-zero")]

/-- The first broken rule is reported. -/
def validate (c : Config) : Except Fault Unit :=
  match rules.find? fun (holds, _) => !holds c with
  | none => .ok ()
  | some (_, text) => .error (.badConfig text)

end Config

end ElfAtlas
