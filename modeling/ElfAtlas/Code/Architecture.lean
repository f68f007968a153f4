import ElfAtlas.Elf.Ident
import ElfAtlas.Fault

/-!
Instruction sets, with the bounds on the length of an instruction.
-/

namespace ElfAtlas

inductive Architecture where
  | arm64
  | arm32
  | x86
  | x86_64
  deriving DecidableEq, Repr

namespace Architecture

def label : Architecture → String
  | arm64 => "arm64"
  | arm32 => "arm"
  | x86 => "x86"
  | x86_64 => "x86_64"

def ofMachine : Machine → Except Fault Architecture
  | .aarch64 => .ok arm64
  | .arm => .ok arm32
  | .x86 => .ok x86
  | .x86_64 => .ok x86_64
  | other => .error (.unsupportedArchitecture other.name)

/-- How many bytes are passed over when none can be decoded. -/
def minLength : Architecture → Nat
  | arm64 | arm32 => 4
  | x86 | x86_64 => 1

def maxLength : Architecture → Nat
  | arm64 | arm32 => 4
  | x86 | x86_64 => 15

/-- All instructions have one length, so code can be split at any multiple of it. -/
def isFixedWidth : Architecture → Bool
  | arm64 | arm32 => true
  | x86 | x86_64 => false

end Architecture

end ElfAtlas
