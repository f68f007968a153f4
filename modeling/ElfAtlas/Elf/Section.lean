import ElfAtlas.Elf.Flags
import ElfAtlas.Elf.Header
import ElfAtlas.Elf.Table

/-!
Section headers, as they stand in the file and with their names resolved.
-/

namespace ElfAtlas

inductive SectionType where
  | null
  | progbits
  | symtab
  | strtab
  | rela
  | hash
  | dynamic
  | note
  | nobits
  | rel
  | dynsym
  | initArray
  | finiArray
  | preinitArray
  | group
  | symtabShndx
  | gnuHash
  | gnuVerdef
  | gnuVerneed
  | gnuVersym
  | other (code : UInt32)
  deriving DecidableEq, Repr

namespace SectionType

def ofCode (code : UInt32) : SectionType :=
  match code.toNat with
  | 0 => null
  | 1 => progbits
  | 2 => symtab
  | 3 => strtab
  | 4 => rela
  | 5 => hash
  | 6 => dynamic
  | 7 => note
  | 8 => nobits
  | 9 => rel
  | 11 => dynsym
  | 14 => initArray
  | 15 => finiArray
  | 16 => preinitArray
  | 17 => group
  | 18 => symtabShndx
  | 0x6ffffff6 => gnuHash
  | 0x6ffffffd => gnuVerdef
  | 0x6ffffffe => gnuVerneed
  | 0x6fffffff => gnuVersym
  | _ => other code

/-- The link of such a section must name a section. -/
def requiresLink : SectionType → Bool
  | symtab | dynsym | rel | rela | dynamic | hash | gnuHash => true
  | _ => false

end SectionType

/-- A section header before its name is looked up. -/
structure SectionRecord where
  nameOffset : UInt32
  typeCode : UInt32
  flags : UInt64
  addr : UInt64
  offset : UInt64
  size : UInt64
  link : UInt32
  info : UInt32
  addrAlign : UInt64
  entrySize : UInt64
  deriving DecidableEq, Repr

/-- Reads a record, given how the distance of a field is added to the place of the record. -/
def SectionRecord.decodeWith {m : Type → Type} [Monad m] [MonadLiftT (Except Fault) m]
    (plus : Nat → Nat → m Nat) (elfClass : ElfClass) (r : Reader) (offset : Nat) :
    m SectionRecord := do
  match elfClass with
  | .elf32 =>
    return {
      nameOffset := ← r.u32 offset
      typeCode := ← r.u32 (← plus offset 4)
      flags := (← r.u32 (← plus offset 8)).toUInt64
      addr := (← r.u32 (← plus offset 12)).toUInt64
      offset := (← r.u32 (← plus offset 16)).toUInt64
      size := (← r.u32 (← plus offset 20)).toUInt64
      link := ← r.u32 (← plus offset 24)
      info := ← r.u32 (← plus offset 28)
      addrAlign := (← r.u32 (← plus offset 32)).toUInt64
      entrySize := (← r.u32 (← plus offset 36)).toUInt64 }
  | .elf64 =>
    return {
      nameOffset := ← r.u32 offset
      typeCode := ← r.u32 (← plus offset 4)
      flags := ← r.u64 (← plus offset 8)
      addr := ← r.u64 (← plus offset 16)
      offset := ← r.u64 (← plus offset 24)
      size := ← r.u64 (← plus offset 32)
      link := ← r.u32 (← plus offset 40)
      info := ← r.u32 (← plus offset 44)
      addrAlign := ← r.u64 (← plus offset 48)
      entrySize := ← r.u64 (← plus offset 56) }

def SectionRecord.decode (elfClass : ElfClass) (r : Reader) (offset : Nat) :
    Except Fault SectionRecord :=
  decodeWith (fun a b => pure (a + b)) elfClass r offset

structure Section where
  index : Nat
  name : String
  nameOffset : UInt32
  kind : SectionType
  flags : SectionFlags
  addr : UInt64
  offset : UInt64
  size : UInt64
  link : UInt32
  info : UInt32
  addrAlign : UInt64
  entrySize : UInt64
  deriving DecidableEq, Repr

namespace Section

def ofRecord (index : Nat) (name : String) (s : SectionRecord) : Section :=
  { index, name, nameOffset := s.nameOffset, kind := .ofCode s.typeCode, flags := ⟨s.flags⟩,
    addr := s.addr, offset := s.offset, size := s.size, link := s.link, info := s.info,
    addrAlign := s.addrAlign, entrySize := s.entrySize }

def isExecutable (s : Section) : Bool := s.flags.executable

def isAllocated (s : Section) : Bool := s.flags.allocated

def isWritable (s : Section) : Bool := s.flags.writable

/-- The section occupies bytes of the file. -/
def hasFileData (s : Section) : Bool := s.kind ≠ .nobits && s.kind ≠ .null

def containsAddress (s : Section) (address : UInt64) : Bool :=
  s.isAllocated && s.addr ≤ address && address - s.addr < s.size

def containsOffset (s : Section) (offset : UInt64) : Bool :=
  s.hasFileData && s.offset ≤ offset && offset - s.offset < s.size

/-- The address of a file position inside this section. -/
def addressOf? (s : Section) (offset : UInt64) : Option UInt64 :=
  if s.isAllocated && s.containsOffset offset then wordSum? s.addr (offset - s.offset) else none

/-- How diagnostics call the table in this section. -/
def tableName (s : Section) (noun : String) : String :=
  if s.name = "" then s!"{noun} {s.index}" else s.name

end Section

end ElfAtlas
