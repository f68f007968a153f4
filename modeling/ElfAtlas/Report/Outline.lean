import ElfAtlas.Analysis.Basic
import ElfAtlas.Code.Stream
import ElfAtlas.Text.Quoted

/-!
One-line outlines for logs: the name of a record and its fields with their values.
-/

namespace ElfAtlas

namespace Outline

/-- A record; `more` says that it has fields which are not shown. -/
def record (name : String) (fields : List (String × String)) (more : Bool) : String :=
  let shown := fields.map fun (field, value) => field ++ ": " ++ value
  name ++ " \x7b " ++ ", ".intercalate (shown ++ if more then [".."] else []) ++ " \x7d"

def bool (b : Bool) : String := if b then "true" else "false"

def option {α : Type} (f : α → String) : Option α → String
  | none => "None"
  | some a => "Some(" ++ f a ++ ")"

def word64 (n : UInt64) : String := toString n.toNat

end Outline

def ElfClass.outline : ElfClass → String
  | elf32 => "Elf32"
  | elf64 => "Elf64"

def ByteOrder.outline : ByteOrder → String
  | little => "Little"
  | big => "Big"

def Architecture.outline : Architecture → String
  | arm64 => "Arm64"
  | arm32 => "Arm32"
  | x86 => "X86"
  | x86_64 => "X86_64"

def FileHeader.outline (h : FileHeader) : String :=
  Outline.record "FileHeader"
    [("class", h.elfClass.outline), ("endian", h.order.outline),
      ("ident_version", toString h.identVersion.toNat), ("os_abi", toString h.osAbi.toNat),
      ("abi_version", toString h.abiVersion.toNat), ("e_type", toString h.fileTypeCode.toNat),
      ("e_machine", toString h.machineCode.toNat), ("e_version", toString h.version.toNat),
      ("e_entry", toString h.entry.toNat), ("e_phoff", toString h.segmentOffset.toNat),
      ("e_shoff", toString h.sectionOffset.toNat), ("e_flags", toString h.flags.toNat),
      ("e_ehsize", toString h.headerSize.toNat), ("e_phentsize", toString h.segmentEntrySize.toNat),
      ("e_phnum", toString h.segmentCount.toNat), ("e_shentsize", toString h.sectionEntrySize.toNat),
      ("e_shnum", toString h.sectionCount.toNat), ("e_shstrndx", toString h.nameTableIndex.toNat)]
    false

def StringScope.outline : StringScope → String
  | wholeImage => "WholeImage"
  | ofSection name => "Section(" ++ Quoted.quote name ++ ")"

def StringsConfig.outline (c : StringsConfig) : String :=
  Outline.record "StringsConfig"
    [("min_length", Outline.word64 c.minLength), ("scope", c.scope.outline),
      ("max_results", Outline.option Outline.word64 c.maxResults)]
    false

def DisasmConfig.outline (c : DisasmConfig) : String :=
  Outline.record "DisasmConfig"
    [("window_bytes", Outline.word64 c.windowBytes),
      ("parallel_chunk_bytes", Outline.word64 c.parallelChunkBytes),
      ("architecture", Outline.option Architecture.outline c.architecture)]
    false

def SearchConfig.outline (c : SearchConfig) : String :=
  Outline.record "SearchConfig"
    [("max_search_instructions", Outline.word64 c.maxInstructions),
      ("max_results", Outline.option Outline.word64 c.maxResults)]
    false

def Config.outline (c : Config) : String :=
  Outline.record "AnalysisConfig"
    [("strings", c.strings.outline), ("disasm", c.disasm.outline), ("search", c.search.outline),
      ("parallel", Outline.bool c.parallel), ("demangle", Outline.bool c.demangle),
      ("timeout_seconds", Outline.word64 c.timeoutSeconds)]
    false

namespace Analysis

/-- What an analysis would be started with. -/
def setupOutline (c : Config) (engineName : String) : String :=
  Outline.record "AnalysisFacade"
    [("config", c.outline), ("adapter", Quoted.quote engineName)] false

def outline (a : Analysis) (engineName : String) : String :=
  Outline.record "Analysis"
    [("len", toString a.image.size), ("header", a.header.outline),
      ("segments", toString a.segments.length), ("sections", toString a.sections.size),
      ("symbols", toString a.symbols.length), ("relocations", toString a.relocations.length),
      ("strings", toString a.strings.length), ("diagnostics", toString a.diagnostics.length),
      ("adapter", Quoted.quote engineName)]
    true

end Analysis

def Stream.outline {δ : Type} (s : Stream δ) (engineName : String) : String :=
  Outline.record "InstructionStream"
    [("base", Hex.marked s.base.toNat), ("len", toString s.rangeLength), ("pos", toString s.pos),
      ("arch", s.arch.outline), ("adapter", Quoted.quote engineName)]
    false

end ElfAtlas
