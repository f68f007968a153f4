import ElfAtlas.Code.Capstone

/-!
A disassembler for Arm, in place of capstone: assembly text of instruction words. It is a mnemonic and items
between commas. An item may be an operand, a part of the operand before it, or several operands at once.
-/

namespace ElfAtlas.Arm

/-- An operand; registers go by name. -/
inductive Part where
  | register (name : String)
  | immediate (value : Int)
  | memory (displacement : Int) (base : String) (index : Option String)
  | other
  deriving DecidableEq, Repr

structure Item where
  text : String
  parts : List Part
  deriving DecidableEq, Repr

structure Assembly where
  mnemonic : String
  items : List Item := []
  deriving DecidableEq, Repr

/-- A field of a word: `width` bits from bit `low` on. -/
def bits (word low width : Nat) : Nat := word >>> low % 1 <<< width

def flag (word bit : Nat) : Bool := bits word bit 1 = 1

/-- A field of `width` bits as a number in two's complement. -/
def signed (field width : Nat) : Int :=
  if field < 1 <<< (width - 1) then field else (field : Int) - (1 <<< width : Nat)

/-- Numbers of one digit are decimal, others hexadecimal. -/
def magnitude (n : Nat) : String := if n < 10 then toString n else Hex.marked n

def number (n : Int) : String :=
  "#" ++ (if n < 0 then "-" else "") ++ magnitude n.natAbs

namespace Item

/-- A register has a name of its own, which need not be what the text calls it. -/
def register (text name : String) : Item := ⟨text, [.register name]⟩

def immediate (n : Int) : Item := ⟨number n, [.immediate n]⟩

/-- An address, written without a sign. -/
def address (n : Nat) : Item := ⟨"#" ++ magnitude n, [.immediate n]⟩

def memory (text : String) (displacement : Int) (base : String) (index : Option String) : Item :=
  ⟨text, [.memory displacement base index]⟩

def word (text : String) : Item := ⟨text, [.other]⟩

/-- Belongs to the item before it. -/
def modifier (text : String) : Item := ⟨text, []⟩

end Item

/-- An instruction set: the names of the registers from number 1 on, and the assembly of a word at an
address. -/
structure InstructionSet where
  registers : List String
  assembly? : Nat → Nat → Option Assembly

namespace InstructionSet

variable (s : InstructionSet)

def registerName? (id : UInt16) : Option String := s.registers[id.toNat - 1]?

def id (name : String) : UInt16 := UInt16.ofNat (s.registers.idxOf name + 1)

def detail {α : Type} (ofInt : Int → α) : Part → Capstone.Detail α
  | .register name => .register (s.id name)
  | .immediate value => .immediate (ofInt value)
  | .memory displacement base index =>
    .memory (Int32.ofInt displacement) (s.id base) (index.elim 0 s.id)
  | .other => .other

/-- The instruction in the word at the front of the code. -/
def first? (order : ByteOrder) (details : List Part → Capstone.Details) (code : List UInt8)
    (address : UInt64) : Option Capstone.Report :=
  match code with
  | a :: b :: c :: d :: _ =>
    let bytes := [a, b, c, d]
    (s.assembly? (order.value bytes) address.toNat).map fun found =>
      { bytes
        mnemonic := some found.mnemonic
        operandText := some (", ".intercalate (found.items.map (·.text)))
        details := some (details (found.items.flatMap (·.parts))) }
  | _ => none

def handle (order : ByteOrder) (details : List Part → Capstone.Details) : Capstone.Handle where
  registerName? := s.registerName?
  first? := s.first? order details

end InstructionSet

end ElfAtlas.Arm
