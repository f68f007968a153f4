import ElfAtlas.Reader

/-!
The two classes of ELF files. The class fixes the width of an address and the size of every record.
-/

namespace ElfAtlas

inductive ElfClass where
  | elf32
  | elf64
  deriving DecidableEq, Repr

namespace ElfClass

def bits : ElfClass → Nat
  | elf32 => 32
  | elf64 => 64

def headerSize : ElfClass → Nat
  | elf32 => 52
  | elf64 => 64

def segmentSize : ElfClass → Nat
  | elf32 => 32
  | elf64 => 56

def sectionSize : ElfClass → Nat
  | elf32 => 40
  | elf64 => 64

def symbolSize : ElfClass → Nat
  | elf32 => 16
  | elf64 => 24

def relocationSize : ElfClass → (withAddend : Bool) → Nat
  | elf32, false => 8
  | elf32, true => 12
  | elf64, false => 16
  | elf64, true => 24

def dynamicSize : ElfClass → Nat
  | elf32 => 8
  | elf64 => 16

/-- An address or another quantity of the class's width. -/
def word (c : ElfClass) (r : Reader) (offset : Nat) : Except Fault UInt64 :=
  match c with
  | elf32 => UInt32.toUInt64 <$> r.u32 offset
  | elf64 => r.u64 offset

end ElfClass

end ElfAtlas
