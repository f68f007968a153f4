import ElfAtlas.ByteOrder
import ElfAtlas.Code.X86.Operand

/-!
Instructions of x86 in its 32-bit and 64-bit modes: integer arithmetic, moves, the stack and branches,
without prefixes other than that of the 64-bit mode.
-/

namespace ElfAtlas.X86

abbrev Reader := StateT (List UInt8) Option

structure Line where
  mnemonic : String
  args : List Arg := []
  deriving DecidableEq, Repr

/-- What the prefix of the 64-bit mode says: it widens the operands and extends the three register
fields. -/
structure Context where
  mode : Mode
  present : Bool := false
  wide : Bool := false
  extendReg : Bool := false
  extendIndex : Bool := false
  extendRm : Bool := false
  deriving DecidableEq, Repr

/-- The register field and the register or memory that an instruction names. -/
structure Operands where
  field : Nat
  target : Nat ⊕ Address

namespace Reader

def take (count : Nat) : Reader (List UInt8) := do
  let bytes ← get
  if bytes.length < count then failure
  set (bytes.drop count)
  return bytes.take count

def unsigned (count : Nat) : Reader Nat := return ByteOrder.little.value (← take count)

/-- A number in two's complement. -/
def signed (count : Nat) : Reader Int := do
  let n ← unsigned count
  return if n < 1 <<< (8 * count - 1) then n else (n : Int) - (1 <<< (8 * count) : Nat)

end Reader

namespace Context

/-- The prefix of the 64-bit mode. -/
def ofPrefix (n : Nat) : Context where
  mode := .bits64
  present := true
  wide := n / 8 % 2 = 1
  extendReg := n / 4 % 2 = 1
  extendIndex := n / 2 % 2 = 1
  extendRm := n % 2 = 1

/-- The size of most operands. -/
def size (c : Context) : Size := if c.wide then .qword else .dword

/-- The size of addresses and of what the stack holds. -/
def stackSize (c : Context) : Size := if c.mode = .bits64 then .qword else .dword

def extended (bit : Bool) (n : Nat) : Nat := if bit then n % 8 + 8 else n % 8

def register (c : Context) (size : Size) (n : Nat) : Arg := .register (registerName size c.present n)

/-- A register of an address. -/
def pointer (c : Context) (n : Nat) : String := registerName c.stackSize c.present n

/-- The scaled index byte, with the base unless a displacement stands for it. -/
def indexed (c : Context) (isPlain : Bool) : Reader (Address × Bool) := do
  let n ← Reader.unsigned 1
  let index := extended c.extendIndex (n / 8)
  let address : Address := {
    index := if index = 4 then none else some (c.pointer index)
    scale := 1 <<< (n / 64) }
  if isPlain ∧ n % 8 = 5 then return (address, true)
  else return ({ address with base := some (c.pointer (extended c.extendRm n)) }, false)

/-- The byte that names the operands, with what belongs to an address. -/
def operands (c : Context) : Reader Operands := do
  let n ← Reader.unsigned 1
  let field := extended c.extendReg (n / 8)
  let kind := n / 64
  if kind = 3 then return ⟨field, .inl (extended c.extendRm n)⟩
  else if kind = 0 ∧ n % 8 = 5 then
    let displacement ← Reader.signed 4
    return ⟨field, .inr { displacement, relative := c.mode = .bits64 }⟩
  else
    let (address, isWide) ←
      if n % 8 = 4 then c.indexed (kind = 0)
      else pure ({ base := some (c.pointer (extended c.extendRm n)) }, false)
    let displacement ←
      if isWide || kind = 2 then Reader.signed 4
      else if kind = 1 then Reader.signed 1
      else pure 0
    return ⟨field, .inr { address with displacement }⟩

/-- The target; memory says its size where no register tells it. -/
def target (c : Context) (size : Size) (labelled : Bool) (o : Operands) : Arg :=
  match o.target with
  | .inl n => c.register size n
  | .inr address => .memory (if labelled then size.label else "") address

/-- A constant of the operands' size, of which at most four bytes are written. -/
def constant (size : Size) : Reader Arg := do
  match size with
  | .byte => return .constant (← Reader.unsigned 1) 8
  | .dword => return .constant (← Reader.unsigned 4) 32
  | .qword => return .constant (← Reader.signed 4) 64

/-- A constant of one byte, extended to the operands' size. -/
def shortConstant (size : Size) : Reader Arg := return .constant (← Reader.signed 1) size.bits

end Context

def arithmetic : List String := ["add", "or", "adc", "sbb", "and", "sub", "xor", "cmp"]

def turns : List String := ["rol", "ror", "rcl", "rcr", "shl", "shr", "shl", "sar"]

def segments : List String := ["es", "cs", "ss", "ds"]

def conditions : List String :=
  ["o", "no", "b", "ae", "e", "ne", "be", "a", "s", "ns", "p", "np", "l", "ge", "le", "g"]

/-- Operations without operands. -/
def plain : List (Nat × String) :=
  [(0x90, "nop"), (0xc3, "ret"), (0xc9, "leave"), (0xcc, "int3"), (0xf4, "hlt"), (0xf5, "cmc"),
    (0xf8, "clc"), (0xf9, "stc"), (0xfa, "cli"), (0xfb, "sti"), (0xfc, "cld"), (0xfd, "std")]

namespace Context

/-- Even codes are for bytes. -/
def sizeOf (c : Context) (code : Nat) : Size := if code % 2 = 0 then .byte else c.size

/-- Register and target, in the order that the code's second bit tells. -/
def both (c : Context) (mnemonic : String) (code : Nat) : Reader Line := do
  let o ← c.operands
  let size := c.sizeOf code
  let field := c.register size o.field
  let target := c.target size false o
  return ⟨mnemonic, if code / 2 % 2 = 0 then [target, field] else [field, target]⟩

/-- The accumulator and a constant. -/
def accumulated (c : Context) (mnemonic : String) (code : Nat) : Reader Line := do
  let size := c.sizeOf code
  return ⟨mnemonic, [c.register size 0, ← constant size]⟩

/-- The first eight rows of the table of codes. -/
def arithmeticLine (c : Context) (code : Nat) : Reader Line := do
  let name := (arithmetic[code / 8]?).getD ""
  if code % 8 < 4 then c.both name code
  else if code % 8 < 6 then c.accumulated name code
  else
    let isPop := code % 8 = 7
    match segments[code / 8]? with
    | some segment =>
      if c.mode = .bits64 ∨ (isPop ∧ segment = "cs") then failure
      else return ⟨if isPop then "pop" else "push", [.register segment]⟩
    | none => failure

def jump (short : Bool) (mnemonic : String) : Reader Line := do
  return ⟨mnemonic, [.near short (← Reader.signed (if short then 1 else 4))]⟩

def jumpIf (short : Bool) (code : Nat) : Reader Line :=
  jump short ("j" ++ (conditions[code % 16]?).getD "")

/-- A target and a constant, for the operation that the register field tells. -/
def arithmeticConstant (c : Context) (code : Nat) : Reader Line := do
  let o ← c.operands
  let size := c.sizeOf code
  let name := (arithmetic[o.field % 8]?).getD ""
  return ⟨name, [c.target size true o, ← if code % 4 = 3 then shortConstant size else constant size]⟩

/-- Shifts and rotations, by a constant, by one, or by a register. -/
def turn (c : Context) (code : Nat) : Reader Line := do
  let o ← c.operands
  let count ←
    if code < 0xd0 then constant .byte
    else if code < 0xd2 then pure (.constant 1 8)
    else pure (.register "cl")
  return ⟨(turns[o.field % 8]?).getD "", [c.target (c.sizeOf code) true o, count]⟩

/-- A move of a constant. -/
def moveConstant (c : Context) (code : Nat) : Reader Line := do
  let o ← c.operands
  let size := c.sizeOf code
  if o.field % 8 = 0 then return ⟨"mov", [c.target size true o, ← constant size]⟩ else failure

/-- A constant moved to the register that the code names; only here it has all eight bytes. -/
def moveToRegister (c : Context) (code : Nat) : Reader Line := do
  let n := extended c.extendRm code
  if code < 0xb8 then return ⟨"mov", [c.register .byte n, ← constant .byte]⟩
  else if c.wide then
    return ⟨"mov", [c.register .qword n, .constant (← Reader.signed 8) 64]⟩
  else return ⟨"mov", [c.register .dword n, ← constant .dword]⟩

/-- A move between the accumulator and memory at a known address. -/
def moveKnown (c : Context) (code : Nat) : Reader Line := do
  let displacement : Int ← Reader.unsigned (c.mode.width / 8)
  let accumulator := c.register (c.sizeOf code) 0
  let memory := Arg.memory "" { displacement }
  return ⟨"mov", if code < 0xa2 then [accumulator, memory] else [memory, accumulator]⟩

def unary (c : Context) (code : Nat) : Reader Line := do
  let o ← c.operands
  let size := c.sizeOf code
  let target := c.target size true o
  match o.field % 8 with
  | 0 => return ⟨"test", [target, ← constant size]⟩
  | 2 => return ⟨"not", [target]⟩
  | 3 => return ⟨"neg", [target]⟩
  | 4 => return ⟨"mul", [target]⟩
  | 5 => return ⟨"imul", [target]⟩
  | 6 => return ⟨"div", [target]⟩
  | 7 => return ⟨"idiv", [target]⟩
  | _ => failure

/-- Counting up and down, and what needs an address in a register or in memory. -/
def step (c : Context) (code : Nat) : Reader Line := do
  let o ← c.operands
  let address := c.target c.stackSize true o
  match o.field % 8 with
  | 0 => return ⟨"inc", [c.target (c.sizeOf code) true o]⟩
  | 1 => return ⟨"dec", [c.target (c.sizeOf code) true o]⟩
  | 2 => if code = 0xff then return ⟨"call", [address]⟩ else failure
  | 4 => if code = 0xff then return ⟨"jmp", [address]⟩ else failure
  | 6 => if code = 0xff then return ⟨"push", [address]⟩ else failure
  | _ => failure

def loadAddress (c : Context) : Reader Line := do
  let o ← c.operands
  match o.target with
  | .inr _ => return ⟨"lea", [c.register c.size o.field, c.target c.size false o]⟩
  | .inl _ => failure

/-- Codes of two bytes. -/
def second (c : Context) : Reader Line := do
  let code ← Reader.unsigned 1
  if code = 0x05 ∧ c.mode = .bits64 then return ⟨"syscall", []⟩
  else if code = 0x0b then return ⟨"ud2", []⟩
  else if 0x80 ≤ code ∧ code < 0x90 then jumpIf false code
  else failure

/-- The rest of the instruction behind its code. -/
def line (c : Context) (code : Nat) : Reader Line := do
  let low := extended c.extendRm code
  if code = 0x0f then c.second
  else if code < 0x40 then c.arithmeticLine code
  else if code < 0x48 then return ⟨"inc", [c.register .dword low]⟩
  else if code < 0x50 then return ⟨"dec", [c.register .dword low]⟩
  else if code < 0x58 then return ⟨"push", [c.register c.stackSize low]⟩
  else if code < 0x60 then return ⟨"pop", [c.register c.stackSize low]⟩
  else if code = 0x68 then return ⟨"push", [← constant c.stackSize]⟩
  else if code = 0x6a then return ⟨"push", [← shortConstant c.stackSize]⟩
  else if 0x70 ≤ code ∧ code < 0x80 then jumpIf true code
  else if code = 0x80 ∨ code = 0x81 ∨ code = 0x83 then c.arithmeticConstant code
  else if code = 0x84 ∨ code = 0x85 then c.both "test" code
  else if 0x88 ≤ code ∧ code < 0x8c then c.both "mov" code
  else if code = 0x8d then c.loadAddress
  else if code = 0x9a ∧ c.mode = .bits32 then
    let offset ← Reader.unsigned 4
    return ⟨"call far", [.far offset (← Reader.unsigned 2)]⟩
  else if 0xa0 ≤ code ∧ code < 0xa4 then c.moveKnown code
  else if code = 0xa8 ∨ code = 0xa9 then c.accumulated "test" code
  else if 0xb0 ≤ code ∧ code < 0xc0 then c.moveToRegister code
  else if code = 0xc0 ∨ code = 0xc1 ∨ (0xd0 ≤ code ∧ code < 0xd4) then c.turn code
  else if code = 0xc2 then return ⟨"ret", [.constant (← Reader.unsigned 2) 16]⟩
  else if code = 0xc6 ∨ code = 0xc7 then c.moveConstant code
  else if code = 0xc8 then
    let size ← Reader.unsigned 2
    return ⟨"enter", [.constant size 16, .constant (← Reader.unsigned 1) 8]⟩
  else if code = 0xcd then return ⟨"int", [← constant .byte]⟩
  else if code = 0xe8 then jump false "call"
  else if code = 0xe9 then jump false "jmp"
  else if code = 0xeb then jump true "jmp"
  else if code = 0xf6 ∨ code = 0xf7 then c.unary code
  else if code = 0xfe ∨ code = 0xff then c.step code
  else
    match plain.lookup code with
    | some mnemonic => return ⟨mnemonic, []⟩
    | none => failure

end Context

/-- The instruction at the front, as far as it does not depend on its address. -/
def readLine (mode : Mode) : Reader Line := do
  let code ← Reader.unsigned 1
  if mode = .bits64 ∧ 0x40 ≤ code ∧ code < 0x50 then
    let code' ← Reader.unsigned 1
    if 0x40 ≤ code' ∧ code' < 0x50 then failure
    (Context.ofPrefix code).line code'
  else Context.line { mode } code

/-- The instruction at the front of the code. Its address counts modulo the mode's addresses. -/
def report? (mode : Mode) (code : List UInt8) (address : UInt64) : Option Iced.Report := do
  let (l, rest) ← (readLine mode).run code
  let length := code.length - rest.length
  let operands := l.args.map (·.operand mode (address.toNat + length))
  return {
    length
    mnemonic := l.mnemonic
    operandText := ", ".intercalate (operands.filterMap (·.text))
    operands }

end ElfAtlas.X86
