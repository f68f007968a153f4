/-!
What a file says of itself: the kind of file, the machine it is for, and the name of its ABI.
-/

namespace ElfAtlas

inductive FileType where
  | none
  | relocatable
  | executable
  | sharedObject
  | core
  | other (code : UInt16)
  deriving DecidableEq, Repr

def FileType.ofCode (code : UInt16) : FileType :=
  match code.toNat with
  | 0 => .none
  | 1 => .relocatable
  | 2 => .executable
  | 3 => .sharedObject
  | 4 => .core
  | _ => .other code

inductive Machine where
  | none
  | sparc
  | x86
  | mips
  | powerPC
  | powerPC64
  | s390
  | arm
  | x86_64
  | aarch64
  | riscV
  | other (code : UInt16)
  deriving DecidableEq, Repr

def Machine.ofCode (code : UInt16) : Machine :=
  match code.toNat with
  | 0 => .none
  | 2 => .sparc
  | 3 => .x86
  | 8 => .mips
  | 20 => .powerPC
  | 21 => .powerPC64
  | 22 => .s390
  | 40 => .arm
  | 62 => .x86_64
  | 183 => .aarch64
  | 243 => .riscV
  | _ => .other code

def Machine.name : Machine → String
  | none => "none"
  | sparc => "sparc"
  | x86 => "x86"
  | mips => "mips"
  | powerPC => "ppc"
  | powerPC64 => "ppc64"
  | s390 => "s390"
  | arm => "arm"
  | x86_64 => "x86_64"
  | aarch64 => "aarch64"
  | riscV => "riscv"
  | other code => s!"machine({code.toNat})"

def osAbiName (osAbi : UInt8) : String :=
  match osAbi.toNat with
  | 0 => "SYSV"
  | 1 => "HP-UX"
  | 2 => "NetBSD"
  | 3 => "GNU/Linux"
  | 6 => "Solaris"
  | 7 => "AIX"
  | 8 => "IRIX"
  | 9 => "FreeBSD"
  | 10 => "Tru64"
  | 12 => "OpenBSD"
  | 64 => "ARM EABI"
  | 97 => "ARM"
  | 255 => "Standalone"
  | _ => "Unknown"

end ElfAtlas
