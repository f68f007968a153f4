/-!
Decoded instructions: operands with their text, and the role in control flow that the mnemonic tells,
whatever the white space around it.
-/

namespace ElfAtlas

namespace Blank

/-- The characters with the property White_Space. -/
def isBlank (c : Char) : Bool :=
  let n := c.toNat
  (9 ≤ n && n ≤ 13) || n = 0x20 || n = 0x85 || n = 0xA0 || n = 0x1680 || (0x2000 ≤ n && n ≤ 0x200A)
    || n = 0x2028 || n = 0x2029 || n = 0x202F || n = 0x205F || n = 0x3000

def trim (cs : List Char) : List Char :=
  ((cs.dropWhile isBlank).reverse.dropWhile isBlank).reverse

end Blank

inductive OperandKind where
  | register
  | immediate
  | memory
  | other
  deriving DecidableEq, Repr

/-- The target is the absolute address that the operand resolves to. -/
structure Operand where
  kind : OperandKind
  text : String
  register : Option String := none
  immediate : Option Int64 := none
  displacement : Option Int64 := none
  base : Option String := none
  index : Option String := none
  target : Option UInt64 := none
  deriving DecidableEq, Repr

namespace Operand

def ofRegister (text name : String) : Operand := { kind := .register, text, register := some name }

def ofImmediate (text : String) (value : Int64) : Operand :=
  { kind := .immediate, text, immediate := some value }

def ofMemory (text : String) (displacement : Option Int64) (base index : Option String) : Operand :=
  { kind := .memory, text, displacement, base, index }

def ofText (text : String) : Operand := { kind := .other, text }

def withTarget (o : Operand) (target : Option UInt64) : Operand := { o with target }

end Operand

inductive Flow where
  | call
  | jump
  | other
  deriving DecidableEq, Repr

namespace Flow

def conditions : List String :=
  ["eq", "ne", "cs", "hs", "cc", "lo", "mi", "pl", "vs", "vc", "hi", "ls", "ge", "lt", "gt", "le",
    "al"]

def calls : List String :=
  ["call", "bl", "blr", "blx", "blraa", "blrab"]

def jumps : List String :=
  ["jmp", "b", "br", "bx", "cbz", "cbnz", "tbz", "tbnz", "braa", "brab"]

/-- What stands after the last space. -/
def lastWord (cs : List Char) : List Char := (cs.reverse.takeWhile (· ≠ ' ')).reverse

/-- The role that a mnemonic tells, whatever its case and its leading words. -/
def ofMnemonic (mnemonic : String) : Flow :=
  let word := lastWord ((Blank.trim mnemonic.toList).map Char.toLower)
  let m := String.ofList word
  if calls.contains m then call
  else if jumps.contains m then jump
  else if ['b', '.'].isPrefixOf word || ['j'].isPrefixOf word then jump
  else if conditions.any fun c => m = "b" ++ c then jump
  else if conditions.any fun c => m = "bl" ++ c then call
  else other

end Flow

structure Instruction where
  address : UInt64
  bytes : List UInt8
  mnemonic : String
  operandText : String
  operands : List Operand
  deriving DecidableEq, Repr

namespace Instruction

def badMnemonic : String := "(bad)"

/-- Stands for bytes that could not be decoded. -/
def bad (address : UInt64) (bytes : List UInt8) : Instruction :=
  { address, bytes, mnemonic := badMnemonic, operandText := "", operands := [] }

def length (i : Instruction) : Nat := i.bytes.length

def isEmpty (i : Instruction) : Bool := i.bytes.isEmpty

/-- The address after the instruction, or the last address if there is none. -/
def endAddress (i : Instruction) : UInt64 :=
  if i.address.toNat + i.length < UInt64.size then i.address + UInt64.ofNat i.length
  else 0xffffffffffffffff

def isBad (i : Instruction) : Bool := i.mnemonic = badMnemonic

def flow (i : Instruction) : Flow := .ofMnemonic i.mnemonic

def text (i : Instruction) : String :=
  if i.operandText = "" then i.mnemonic else i.mnemonic ++ " " ++ i.operandText

/-- The texts of the operands, as they usually follow the mnemonic. -/
def joinTexts (operands : List Operand) : String := ", ".intercalate (operands.map (·.text))

end Instruction

end ElfAtlas
