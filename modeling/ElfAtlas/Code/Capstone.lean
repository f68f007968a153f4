import ElfAtlas.Code.Engine
import ElfAtlas.Text.Hex

/-!
The decoder for Arm. The library capstone gives an instruction as text, and details of its operands if it
can; the two are put together here. Where the text alone tells the operands there may be no result.
-/

namespace ElfAtlas

namespace Capstone

/-- What is known of an operand. Registers are numbers; zero stands for no register. -/
inductive Detail (Immediate : Type) where
  | register (id : UInt16)
  | immediate (value : Immediate)
  | memory (displacement : Int32) (base index : UInt16)
  | other
  deriving DecidableEq, Repr

inductive Details where
  | arm64 (operands : List (Detail Int64))
  | arm32 (operands : List (Detail Int32))
  deriving DecidableEq, Repr

structure Report where
  bytes : List UInt8
  mnemonic : Option String
  operandText : Option String
  details : Option Details
  deriving DecidableEq, Repr

structure Handle where
  registerName? : UInt16 → Option String
  /-- The instruction at the front of the code, which lies at the address. -/
  first? : List UInt8 → UInt64 → Option Report

end Capstone

/-- Opens a handle, or says why it cannot. -/
abbrev Capstone := Architecture → ByteOrder → Except String Capstone.Handle

structure CapstoneDecoder where
  arch : Architecture
  handle : Capstone.Handle

namespace CapstoneDecoder

def new (capstone : Capstone) (arch : Architecture) (order : ByteOrder) :
    Except Fault CapstoneDecoder :=
  match arch with
  | .arm64 | .arm32 =>
    match capstone arch order with
    | .ok handle => .ok ⟨arch, handle⟩
    | .error reason => .error (.unsupportedArchitecture (arch.label ++ ": " ++ reason))
  | .x86 | .x86_64 => .error (.unsupportedArchitecture arch.label)

/-- A register without a name has the empty one. -/
def registerName? (d : CapstoneDecoder) (id : UInt16) : Option String :=
  if id = 0 then none else some ((d.handle.registerName? id).getD "")

/-- Only a register is given a text, its name. -/
def operand {α : Type} (d : CapstoneDecoder) (widen : α → Int64) : Capstone.Detail α → Operand
  | .register id =>
    let name := (d.registerName? id).getD ""
    .ofRegister name name
  | .immediate value => .ofImmediate "" (widen value)
  | .memory displacement base index =>
    .ofMemory "" (some displacement.toInt64) (d.registerName? base) (d.registerName? index)
  | .other => .ofText ""

def detailedOperands (d : CapstoneDecoder) (report : Capstone.Report) : List Operand :=
  match d.arch, report.details with
  | .arm64, some (.arm64 operands) => operands.map (d.operand id)
  | .arm32, some (.arm32 operands) => operands.map (d.operand Int32.toInt64)
  | _, _ => []

/-! ### Operands from text -/

/-- How a character changes the depth of nesting. -/
def nesting (c : Char) : Int :=
  if c = '[' ∨ c = '\x7b' then 1 else if c = ']' ∨ c = '\x7d' then -1 else 0

/-- The texts between commas that are not nested, without the blanks around them. `current` holds what
has been read of the first. -/
def splitFrom (nesting : Char → Int) (depth : Int) (current : List Char) :
    List Char → List (List Char)
  | [] => [Blank.trim current]
  | c :: rest =>
    if c = ',' ∧ depth ≤ 0 then Blank.trim current :: splitFrom nesting depth [] rest
    else splitFrom nesting (depth + nesting c) (current ++ [c]) rest

/-- Nothing behind the last comma is no text. -/
def splitOperands (text : String) : List String :=
  let parts := splitFrom nesting 0 [] text.toList
  (if parts.getLast? = some [] then parts.dropLast else parts).map String.ofList

/-- The number that digits write; there has to be a digit. -/
def magnitude? (radix : Nat) (digits : List Char) : Option Nat :=
  if digits.isEmpty then none
  else
    digits.foldlM (fun n c => do
      let digit ← Hex.digitValue? c
      if digit < radix then some (radix * n + digit) else none) 0

/-- A number of 64 bits, perhaps behind a sign. -/
def signed? (radix : Nat) (text : List Char) : Option Int64 := do
  let n : Int ←
    match text with
    | '-' :: digits => (magnitude? radix digits).map fun n => -(n : Int)
    | '+' :: digits => (magnitude? radix digits).map Int.ofNat
    | digits => (magnitude? radix digits).map Int.ofNat
  if Int64.minValue.toInt ≤ n ∧ n ≤ Int64.maxValue.toInt then some (Int64.ofInt n) else none

/-- The number that a text is, if it is one. There is no result for a minus sign in front of the least
number, which has no negation. -/
def parseNumber? (text : List Char) : Option (Option Int64) :=
  let text := (Blank.trim text).dropWhile (· = '#')
  let (isNegative, text) :=
    match text with
    | '-' :: rest => (true, rest)
    | _ => (false, text)
  let value? :=
    match text with
    | '0' :: 'x' :: digits => signed? 16 digits
    | _ => signed? 10 text
  match value? with
  | none => some none
  | some n =>
    if isNegative then if n = Int64.minValue then none else some (some (-n)) else some (some n)

/-- The first number among texts. -/
def firstNumber? : List (List Char) → Option (Option Int64)
  | [] => some none
  | text :: rest => do
    match ← parseNumber? text with
    | some n => return some n
    | none => firstNumber? rest

/-- There is no result for brackets in the wrong order. -/
def parseOperand? (text : String) : Option Operand := do
  let lower := text.toList.map Char.toLower
  match lower.idxOf? '[', lower.idxOf? ']' with
  | some first, some last =>
    if last < first then failure
    let parts := splitFrom (fun _ => 0) 0 [] ((lower.take last).drop (first + 1))
    let base := parts.head?.filter (!·.isEmpty)
    return .ofMemory text (← firstNumber? parts.tail) (base.map String.ofList) none
  | _, _ =>
    match ← parseNumber? lower with
    | some n => return .ofImmediate text n
    | none => return .ofRegister text (String.ofList lower)

/-! ### Instructions -/

/-- What an operand is called where the texts do not tell the operands apart. -/
def plainText (o : Operand) : String :=
  match o.immediate, o.register with
  | some n, _ => "#" ++ Hex.marked n.toUInt64.toNat
  | none, some name => name
  | none, none => ""

/-- The operands by their details, with the texts if there are as many of these. -/
def pairedOperands? (detailed : List Operand) (texts : List String) : Option (List Operand) :=
  if detailed.isEmpty && !texts.isEmpty then texts.mapM parseOperand?
  else if detailed.length = texts.length then
    some (List.zipWith (fun o text => { o with text }) detailed texts)
  else some (detailed.map fun o => if o.text = "" then { o with text := plainText o } else o)

/-- The immediates of these are addresses in memory. -/
def isAbsolute (mnemonic : String) : Bool :=
  Flow.ofMnemonic mnemonic ≠ .other || mnemonic = "adr" || mnemonic = "adrp"

/-- An address in the upper half is no target. -/
def target? (n : Int64) : Option UInt64 := if 0 ≤ n then some n.toUInt64 else none

def withTargets (mnemonic : String) (operands : List Operand) : List Operand :=
  if isAbsolute mnemonic then
    operands.map fun o => o.immediate.elim o fun n => o.withTarget (target? n)
  else operands

def decode? (d : CapstoneDecoder) (code : List UInt8) (address : UInt64) :
    Option (Option Instruction) :=
  match d.handle.first? code address with
  | none => some none
  | some report => do
    let mnemonic := report.mnemonic.getD ""
    let operandText := report.operandText.getD ""
    let operands ← pairedOperands? (d.detailedOperands report) (splitOperands operandText)
    return some
      { address, bytes := report.bytes, mnemonic, operandText,
        operands := withTargets mnemonic operands }

end CapstoneDecoder

end ElfAtlas
