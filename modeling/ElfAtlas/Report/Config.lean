import ElfAtlas.Config
import ElfAtlas.Json.Parse
import ElfAtlas.Json.Print

/-!
Settings as JSON text. Writing spells out every field; reading takes what is left out from the defaults
and accepts only settings that obey the rules.
-/

namespace ElfAtlas

namespace Architecture

def names : List (String × Architecture) :=
  [("arm64", arm64), ("arm32", arm32), ("x86", x86), ("x86_64", x86_64)]

def toJson : Architecture → Json
  | arm64 => .string "arm64"
  | arm32 => .string "arm32"
  | x86 => .string "x86"
  | x86_64 => .string "x86_64"

def ofJson? (j : Json) : Option Architecture := do
  match ← j.tag? with
  | (name, .null) => names.lookup name
  | _ => none

end Architecture

namespace StringScope

def toJson : StringScope → Json
  | wholeImage => .string "whole_image"
  | ofSection name => .tagged "section" (.string name)

def ofJson? (j : Json) : Option StringScope := do
  match ← j.tag? with
  | ("whole_image", .null) => return wholeImage
  | ("section", .string name) => return ofSection name
  | _ => none

end StringScope

def Json.word64 (n : UInt64) : Json := .nat n.toNat

namespace StringsConfig

def toJson (c : StringsConfig) : Json :=
  .object
    [("min_length", .word64 c.minLength), ("scope", c.scope.toJson),
      ("max_results", .option .word64 c.maxResults)]

def ofJson? (j : Json) : Option StringsConfig := do
  let fields ← j.fields? ["min_length", "scope", "max_results"]
  let default : StringsConfig := {}
  return {
    minLength := ← Json.field fields "min_length" Json.word64? default.minLength
    scope := ← Json.field fields "scope" StringScope.ofJson? default.scope
    maxResults := ← Json.field fields "max_results" (Json.nullable Json.word64?) default.maxResults }

end StringsConfig

namespace DisasmConfig

def toJson (c : DisasmConfig) : Json :=
  .object
    [("window_bytes", .word64 c.windowBytes),
      ("parallel_chunk_bytes", .word64 c.parallelChunkBytes),
      ("architecture", .option Architecture.toJson c.architecture)]

def ofJson? (j : Json) : Option DisasmConfig := do
  let fields ← j.fields? ["window_bytes", "parallel_chunk_bytes", "architecture"]
  let default : DisasmConfig := {}
  return {
    windowBytes := ← Json.field fields "window_bytes" Json.word64? default.windowBytes
    parallelChunkBytes :=
      ← Json.field fields "parallel_chunk_bytes" Json.word64? default.parallelChunkBytes
    architecture :=
      ← Json.field fields "architecture" (Json.nullable Architecture.ofJson?) default.architecture }

end DisasmConfig

namespace SearchConfig

def toJson (c : SearchConfig) : Json :=
  .object
    [("max_search_instructions", .word64 c.maxInstructions),
      ("max_results", .option .word64 c.maxResults)]

def ofJson? (j : Json) : Option SearchConfig := do
  let fields ← j.fields? ["max_search_instructions", "max_results"]
  let default : SearchConfig := {}
  return {
    maxInstructions :=
      ← Json.field fields "max_search_instructions" Json.word64? default.maxInstructions
    maxResults := ← Json.field fields "max_results" (Json.nullable Json.word64?) default.maxResults }

end SearchConfig

namespace Config

def toJson (c : Config) : Json :=
  .object
    [("strings", c.strings.toJson), ("disasm", c.disasm.toJson), ("search", c.search.toJson),
      ("parallel", .bool c.parallel), ("demangle", .bool c.demangle),
      ("timeout_seconds", .word64 c.timeoutSeconds)]

def ofJson? (j : Json) : Option Config := do
  let fields ← j.fields? ["strings", "disasm", "search", "parallel", "demangle", "timeout_seconds"]
  let default : Config := {}
  return {
    strings := ← Json.field fields "strings" StringsConfig.ofJson? default.strings
    disasm := ← Json.field fields "disasm" DisasmConfig.ofJson? default.disasm
    search := ← Json.field fields "search" SearchConfig.ofJson? default.search
    parallel := ← Json.field fields "parallel" Json.bool? default.parallel
    demangle := ← Json.field fields "demangle" Json.bool? default.demangle
    timeoutSeconds := ← Json.field fields "timeout_seconds" Json.word64? default.timeoutSeconds }

def toText (c : Config) : String := c.toJson.pretty

/-- Reported for text that writes no settings at all, whatever their values. -/
def unreadable : Fault := .badConfig "not a configuration"

def ofText (text : String) : Except Fault Config := do
  match (Json.parse? text).bind ofJson? with
  | none => throw unreadable
  | some c =>
    c.validate
    return c

end Config

end ElfAtlas
