import ElfAtlas.Elf.Dynamic
import ElfAtlas.Elf.Relocation
import ElfAtlas.Elf.Segment
import ElfAtlas.Elf.Symbol
import ElfAtlas.Json.Basic

/-!
The parsed parts of a file as JSON. Kinds are written by name, and codes without a name as tagged
numbers; kinds of symbols are read back as well.
-/

namespace ElfAtlas

def ElfClass.toJson : ElfClass → Json
  | elf32 => .string "Elf32"
  | elf64 => .string "Elf64"

def ByteOrder.toJson : ByteOrder → Json
  | little => .string "Little"
  | big => .string "Big"

/-- A code that has no name. -/
def Json.otherCode (code : Nat) : Json := .tagged "Other" (.nat code)

def FileType.toJson : FileType → Json
  | none => .string "None"
  | relocatable => .string "Relocatable"
  | executable => .string "Executable"
  | sharedObject => .string "SharedObject"
  | core => .string "Core"
  | other code => .otherCode code.toNat

def Machine.toJson : Machine → Json
  | none => .string "None"
  | sparc => .string "Sparc"
  | x86 => .string "X86"
  | mips => .string "Mips"
  | powerPC => .string "PowerPC"
  | powerPC64 => .string "PowerPC64"
  | s390 => .string "S390"
  | arm => .string "Arm"
  | x86_64 => .string "X86_64"
  | aarch64 => .string "AArch64"
  | riscV => .string "RiscV"
  | other code => .otherCode code.toNat

def SegmentType.toJson : SegmentType → Json
  | null => .string "Null"
  | load => .string "Load"
  | dynamic => .string "Dynamic"
  | interp => .string "Interp"
  | note => .string "Note"
  | shlib => .string "Shlib"
  | phdr => .string "Phdr"
  | tls => .string "Tls"
  | gnuEhFrame => .string "GnuEhFrame"
  | gnuStack => .string "GnuStack"
  | gnuRelro => .string "GnuRelro"
  | gnuProperty => .string "GnuProperty"
  | other code => .otherCode code.toNat

def SectionType.toJson : SectionType → Json
  | null => .string "Null"
  | progbits => .string "Progbits"
  | symtab => .string "Symtab"
  | strtab => .string "Strtab"
  | rela => .string "Rela"
  | hash => .string "Hash"
  | dynamic => .string "Dynamic"
  | note => .string "Note"
  | nobits => .string "Nobits"
  | rel => .string "Rel"
  | dynsym => .string "Dynsym"
  | initArray => .string "InitArray"
  | finiArray => .string "FiniArray"
  | preinitArray => .string "PreinitArray"
  | group => .string "Group"
  | symtabShndx => .string "SymtabShndx"
  | gnuHash => .string "GnuHash"
  | gnuVerdef => .string "GnuVerdef"
  | gnuVerneed => .string "GnuVerneed"
  | gnuVersym => .string "GnuVersym"
  | other code => .otherCode code.toNat

def SymbolType.names : List (String × SymbolType) :=
  [("NoType", noType), ("Object", object), ("Func", func), ("Section", sectionSymbol),
    ("File", file), ("Common", common), ("Tls", tls), ("GnuIfunc", gnuIfunc)]

def SymbolBinding.names : List (String × SymbolBinding) :=
  [("Local", localScope), ("Global", globalScope), ("Weak", weak), ("GnuUnique", gnuUnique)]

def Visibility.names : List (String × Visibility) :=
  [("Default", default), ("Internal", internal), ("Hidden", hidden), ("Protected", protectedScope)]

def SymbolOrigin.names : List (String × SymbolOrigin) :=
  [("Static", staticTable), ("Dynamic", dynamicTable)]

/-- The name that a list gives to a value. -/
def Json.named? {α : Type} [DecidableEq α] (names : List (String × α)) (a : α) : Option Json :=
  (names.find? (·.2 = a)).map (.string ·.1)

/-- The value that a name, perhaps as a tag with a null payload, stands for. -/
def Json.unnamed? {α : Type} (names : List (String × α)) (j : Json) : Option α := do
  match ← j.tag? with
  | (name, .null) => names.lookup name
  | _ => none

def Json.otherCode? (j : Json) : Option UInt8 := do
  match ← j.tag? with
  | ("Other", code) => return UInt8.ofNat (← code.word? 8)
  | _ => none

def SymbolType.toJson (t : SymbolType) : Json :=
  match t with
  | other code => .otherCode code.toNat
  | t => (Json.named? names t).getD .null

def SymbolType.ofJson? (j : Json) : Option SymbolType :=
  (j.unnamed? names).or (j.otherCode?.map other)

def SymbolBinding.toJson (b : SymbolBinding) : Json :=
  match b with
  | other code => .otherCode code.toNat
  | b => (Json.named? names b).getD .null

def SymbolBinding.ofJson? (j : Json) : Option SymbolBinding :=
  (j.unnamed? names).or (j.otherCode?.map other)

def Visibility.toJson (v : Visibility) : Json := (Json.named? names v).getD .null

def Visibility.ofJson? (j : Json) : Option Visibility := j.unnamed? names

def SymbolOrigin.toJson (o : SymbolOrigin) : Json := (Json.named? names o).getD .null

def SymbolOrigin.ofJson? (j : Json) : Option SymbolOrigin := j.unnamed? names

def FileHeader.toJson (h : FileHeader) : Json :=
  .object
    [("class", h.elfClass.toJson), ("endian", h.order.toJson),
      ("ident_version", .nat h.identVersion.toNat), ("os_abi", .nat h.osAbi.toNat),
      ("abi_version", .nat h.abiVersion.toNat), ("e_type", .nat h.fileTypeCode.toNat),
      ("e_machine", .nat h.machineCode.toNat), ("e_version", .nat h.version.toNat),
      ("e_entry", .nat h.entry.toNat), ("e_phoff", .nat h.segmentOffset.toNat),
      ("e_shoff", .nat h.sectionOffset.toNat), ("e_flags", .nat h.flags.toNat),
      ("e_ehsize", .nat h.headerSize.toNat), ("e_phentsize", .nat h.segmentEntrySize.toNat),
      ("e_phnum", .nat h.segmentCount.toNat), ("e_shentsize", .nat h.sectionEntrySize.toNat),
      ("e_shnum", .nat h.sectionCount.toNat), ("e_shstrndx", .nat h.nameTableIndex.toNat)]

def Segment.toJson (s : Segment) : Json :=
  .object
    [("index", .nat s.index), ("segment_type", s.kind.toJson), ("flags", .string s.flags.text),
      ("offset", .nat s.offset.toNat), ("vaddr", .nat s.vaddr.toNat), ("paddr", .nat s.paddr.toNat),
      ("file_size", .nat s.fileSize.toNat), ("mem_size", .nat s.memSize.toNat),
      ("align", .nat s.align.toNat)]

def Section.toJson (s : Section) : Json :=
  .object
    [("index", .nat s.index), ("name", .string s.name), ("name_offset", .nat s.nameOffset.toNat),
      ("section_type", s.kind.toJson), ("flags", .string s.flags.text), ("addr", .nat s.addr.toNat),
      ("offset", .nat s.offset.toNat), ("size", .nat s.size.toNat), ("link", .nat s.link.toNat),
      ("info", .nat s.info.toNat), ("addralign", .nat s.addrAlign.toNat),
      ("entsize", .nat s.entrySize.toNat)]

def SectionTable.toJson (t : SectionTable) : Json :=
  .object [("sections", .list Section.toJson t.toList)]

def Symbol.toJson (s : Symbol) : Json :=
  .object
    [("name", .string s.name), ("demangled", .option .string s.demangled),
      ("value", .nat s.value.toNat), ("size", .nat s.size.toNat), ("symbol_type", s.kind.toJson),
      ("binding", s.binding.toJson), ("visibility", s.visibility.toJson),
      ("section_index", .nat s.sectionIndex.toNat), ("table", s.origin.toJson),
      ("index", .nat s.index), ("table_section", .nat s.tableSection)]

def Relocation.toJson (r : Relocation) : Json :=
  .object
    [("offset", .nat r.offset.toNat), ("info", .nat r.info.toNat),
      ("reloc_type", .nat r.typeCode.toNat), ("type_name", .option .string r.typeName),
      ("symbol_index", .nat r.symbolIndex.toNat), ("symbol_name", .option .string r.symbolName),
      ("addend", .option (.int ·.toInt) r.addend), ("section_index", .nat r.sectionIndex)]

def DynamicEntry.toJson (e : DynamicEntry) : Json :=
  .object [("tag", .int e.tag.toInt), ("value", .nat e.value.toNat)]

def DynamicInfo.toJson (d : DynamicInfo) : Json :=
  .object
    [("entries", .list DynamicEntry.toJson d.entries), ("needed", .list .string d.needed),
      ("soname", .option .string d.soname), ("rpath", .option .string d.rpath),
      ("runpath", .option .string d.runpath), ("flags", .option (.nat ·.toNat) d.flags),
      ("flags_1", .option (.nat ·.toNat) d.flags1), ("bind_now", .bool d.bindNow)]

end ElfAtlas
