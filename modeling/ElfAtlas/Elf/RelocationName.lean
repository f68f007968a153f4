/-!
Names of the relocation types of the common machines.
-/

namespace ElfAtlas.Relocation

def x86_64Names : List (Nat × String) :=
  [(0, "R_X86_64_NONE"), (1, "R_X86_64_64"), (2, "R_X86_64_PC32"), (3, "R_X86_64_GOT32"),
    (4, "R_X86_64_PLT32"), (5, "R_X86_64_COPY"), (6, "R_X86_64_GLOB_DAT"),
    (7, "R_X86_64_JUMP_SLOT"), (8, "R_X86_64_RELATIVE"), (9, "R_X86_64_GOTPCREL"),
    (10, "R_X86_64_32"), (11, "R_X86_64_32S"), (16, "R_X86_64_DTPMOD64"),
    (17, "R_X86_64_DTPOFF64"), (18, "R_X86_64_TPOFF64"), (37, "R_X86_64_IRELATIVE"),
    (41, "R_X86_64_GOTPCRELX"), (42, "R_X86_64_REX_GOTPCRELX")]

def i386Names : List (Nat × String) :=
  [(0, "R_386_NONE"), (1, "R_386_32"), (2, "R_386_PC32"), (3, "R_386_GOT32"), (4, "R_386_PLT32"),
    (5, "R_386_COPY"), (6, "R_386_GLOB_DAT"), (7, "R_386_JMP_SLOT"), (8, "R_386_RELATIVE"),
    (9, "R_386_GOTOFF"), (10, "R_386_GOTPC"), (42, "R_386_IRELATIVE")]

def armNames : List (Nat × String) :=
  [(0, "R_ARM_NONE"), (2, "R_ARM_ABS32"), (3, "R_ARM_REL32"), (20, "R_ARM_COPY"),
    (21, "R_ARM_GLOB_DAT"), (22, "R_ARM_JUMP_SLOT"), (23, "R_ARM_RELATIVE"), (28, "R_ARM_CALL"),
    (29, "R_ARM_JUMP24"), (30, "R_ARM_THM_JUMP24"), (160, "R_ARM_IRELATIVE")]

def aarch64Names : List (Nat × String) :=
  [(0, "R_AARCH64_NONE"), (257, "R_AARCH64_ABS64"), (258, "R_AARCH64_ABS32"),
    (261, "R_AARCH64_PREL32"), (275, "R_AARCH64_ADR_PREL_PG_HI21"),
    (277, "R_AARCH64_ADD_ABS_LO12_NC"), (282, "R_AARCH64_JUMP26"), (283, "R_AARCH64_CALL26"),
    (1024, "R_AARCH64_COPY"), (1025, "R_AARCH64_GLOB_DAT"), (1026, "R_AARCH64_JUMP_SLOT"),
    (1027, "R_AARCH64_RELATIVE"), (1032, "R_AARCH64_IRELATIVE")]

def typeNames (machineCode : UInt16) : List (Nat × String) :=
  match machineCode.toNat with
  | 3 => i386Names
  | 40 => armNames
  | 62 => x86_64Names
  | 183 => aarch64Names
  | _ => []

def typeName? (machineCode : UInt16) (typeCode : UInt32) : Option String :=
  (typeNames machineCode).lookup typeCode.toNat

end ElfAtlas.Relocation
