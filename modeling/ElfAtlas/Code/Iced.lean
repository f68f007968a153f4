import ElfAtlas.Code.Engine

/-!
The decoder for x86. The library iced decodes an instruction and formats it; what it knows of the operands
is put into the common form here.
-/

namespace ElfAtlas

namespace Iced

structure Memory where
  base : Option String
  index : Option String
  displacement : UInt64
  /-- The address, where it counts from the end of the instruction. -/
  relative : Option UInt64
  deriving DecidableEq, Repr

/-- What is known of an operand. The names of registers are in upper case. -/
inductive Detail where
  | register (name : Option String)
  | memory (m : Memory)
  | nearBranch (target : UInt64)
  | immediate (value : UInt64)
  | other
  deriving DecidableEq, Repr

/-- An operand as it is written. It may have no text, and need not be one of the instruction's own. -/
structure Formatted where
  text : Option String
  detail : Option Detail
  deriving DecidableEq, Repr

structure Report where
  length : Nat
  mnemonic : String
  operandText : String
  operands : List Formatted
  deriving DecidableEq, Repr

end Iced

/-- The instruction at the front of the code, which lies at the address, if it is valid in the mode of so
many bits. -/
abbrev Iced := (bits : Nat) → List UInt8 → UInt64 → Option Iced.Report

structure IcedDecoder where
  report? : List UInt8 → UInt64 → Option Iced.Report

namespace IcedDecoder

def new? (iced : Iced) : Architecture → Option IcedDecoder
  | .x86 => some ⟨iced 32⟩
  | .x86_64 => some ⟨iced 64⟩
  | .arm64 | .arm32 => none

def lower (name : String) : String := String.ofList (name.toList.map Char.toLower)

/-- Memory at a known address has that address as its target. -/
def operand (text : String) : Iced.Detail → Operand
  | .register name => .ofRegister text ((name.map lower).getD "")
  | .memory m =>
    let target :=
      match m.relative with
      | some address => some address
      | none => if m.base.isNone && m.index.isNone then some m.displacement else none
    (Operand.ofMemory text (some m.displacement.toInt64) (m.base.map lower) (m.index.map lower))
      |>.withTarget target
  | .nearBranch target => (Operand.ofImmediate text target.toInt64).withTarget (some target)
  | .immediate value => .ofImmediate text value.toInt64
  | .other => .ofText text

/-- An operand that cannot be formatted is left out. -/
def formatted? (o : Iced.Formatted) : Option Operand :=
  o.text.map fun text => o.detail.elim (.ofText text) (operand text)

def decode (d : IcedDecoder) : PureDecoder := fun code address => do
  let report ← d.report? code address
  if code.length < report.length then none
  else
    return {
      address
      bytes := code.take report.length
      mnemonic := report.mnemonic
      operandText := report.operandText
      operands := report.operands.filterMap formatted? }

end IcedDecoder

end ElfAtlas
