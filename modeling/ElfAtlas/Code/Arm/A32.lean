import ElfAtlas.Code.Arm.Assembly

/-!
Instructions of the 32-bit Arm set: branches, register lists, data processing, loads and stores.
-/

namespace ElfAtlas.Arm.A32

def registers : List String :=
  ["r0", "r1", "r2", "r3", "r4", "r5", "r6", "r7", "r8", "sb", "sl", "fp", "ip", "sp", "lr", "pc"]

def registerName (n : Nat) : String := (registers[n]?).getD ""

def register (n : Nat) : Item := .register (registerName n) (registerName n)

/-- The suffix of the mnemonic. An instruction that is always executed has none. -/
def conditions : List String :=
  ["eq", "ne", "hs", "lo", "mi", "pl", "vs", "vc", "hi", "ls", "ge", "lt", "gt", "le", ""]

/-- Branches are relative to the second instruction from here. Addresses have 32 bits. -/
def near (address : Nat) (offset : Int) : Item :=
  let n := (((address : Int) + 8 + offset) % (UInt32.size : Nat)).toNat
  ⟨"#" ++ magnitude n, [.immediate (signed n 32)]⟩

def branch? (w address : Nat) (condition : String) : Option Assembly :=
  if bits w 25 3 = 0b101 then
    some ⟨(if flag w 24 then "bl" else "b") ++ condition,
      [near address (4 * signed (bits w 0 24) 24)]⟩
  else if bits w 4 24 = 0x12fff1 then some ⟨"bx" ++ condition, [register (bits w 0 4)]⟩
  else if bits w 4 24 = 0x12fff3 then some ⟨"blx" ++ condition, [register (bits w 0 4)]⟩
  else none

/-- The registers of a set, lowest first. -/
def registerList (set : Nat) : Item :=
  let names := ((List.range 16).filter (flag set ·)).map registerName
  ⟨"\x7b" ++ ", ".intercalate names ++ "\x7d", names.map .register⟩

/-- Pushes and pops of several registers, and of one. -/
def stack? (w : Nat) (condition : String) : Option Assembly :=
  let list := registerList (bits w 0 16)
  let one := registerList (1 <<< bits w 12 4)
  if bits w 16 12 = 0x92d ∧ 1 < list.parts.length then some ⟨"push" ++ condition, [list]⟩
  else if bits w 16 12 = 0x8bd ∧ 1 < list.parts.length then some ⟨"pop" ++ condition, [list]⟩
  else if bits w 16 12 = 0x52d ∧ bits w 0 12 = 4 then some ⟨"push" ++ condition, [one]⟩
  else if bits w 16 12 = 0x49d ∧ bits w 0 12 = 4 then some ⟨"pop" ++ condition, [one]⟩
  else none

def operations : List String :=
  ["and", "eor", "sub", "rsb", "add", "adc", "sbc", "rsc", "tst", "teq", "cmp", "cmn", "orr", "mov",
    "bic", "mvn"]

/-- Eight bits, turned right by an even number of places. -/
def constant (w : Nat) : Int :=
  let turn := 2 * bits w 8 4
  let n := bits w 0 8 <<< (32 - turn)
  signed ((n + n >>> 32) % UInt32.size) 32

def shifts : List String := ["lsl", "lsr", "asr", "ror"]

/-- A shift by a constant; right shifts by zero places are by 32. -/
def shift? (w : Nat) : Option (List String) :=
  match bits w 5 2, bits w 7 5 with
  | 0, 0 => some []
  | 3, 0 => none
  | kind, count =>
    (shifts[kind]?).map fun name => [name ++ " #" ++ toString (if count = 0 then 32 else count)]

def lastOperand? (w : Nat) : Option (List Item) :=
  if flag w 25 then some [.immediate (constant w)]
  else if flag w 4 then none
  else (shift? w).map fun text => register (bits w 0 4) :: text.map .modifier

/-- Comparisons always set the flags and have no result; moves have one operand. -/
def process? (w : Nat) (condition : String) : Option Assembly := do
  let code := bits w 21 4
  let name ← operations[code]?
  let last ← lastOperand? w
  let sets := flag w 20
  let into := register (bits w 12 4)
  let left := register (bits w 16 4)
  let full := name ++ (if sets then "s" else "") ++ condition
  if bits w 26 2 ≠ 0 then failure
  else if 8 ≤ code ∧ code < 12 then
    if sets then return ⟨name ++ condition, left :: last⟩ else failure
  else if code = 13 then
    if last.length = 1 then return ⟨full, into :: last⟩ else failure
  else if code = 15 then return ⟨full, into :: last⟩
  else return ⟨full, into :: left :: last⟩

/-- The memory at an offset from a base register: a register that may be shifted, or a number. -/
def memory? (w : Nat) : Option Item :=
  let base := registerName (bits w 16 4)
  let isUp := flag w 23
  if flag w 25 then
    if flag w 4 then none
    else
      let index := registerName (bits w 0 4)
      (shift? w).map fun text =>
        let inside := base :: ((if isUp then "" else "-") ++ index) :: text
        .memory ("[" ++ ", ".intercalate inside ++ "]") 0 base (some index)
  else
    let n : Int := bits w 0 12
    let displacement := if isUp then n else -n
    let inside := if displacement = 0 then "" else ", " ++ number displacement
    some (.memory ("[" ++ base ++ inside ++ "]") displacement base none)

/-- Loads and stores that leave the base register as it is. -/
def transfer? (w : Nat) (condition : String) : Option Assembly :=
  if bits w 26 2 = 1 ∧ flag w 24 ∧ !flag w 21 then
    let name := (if flag w 20 then "ldr" else "str") ++ (if flag w 22 then "b" else "") ++ condition
    (memory? w).map fun memory => ⟨name, [register (bits w 12 4), memory]⟩
  else none

/-- Changes the byte order of data. -/
def setEnd? (w : Nat) : Option Assembly :=
  if w = 0xf1010000 then some ⟨"setend", [.word "le"]⟩
  else if w = 0xf1010200 then some ⟨"setend", [.word "be"]⟩
  else none

def assembly? (w address : Nat) : Option Assembly :=
  match conditions[bits w 28 4]? with
  | some c =>
    branch? w address c <|> stack? w c <|> process? w c <|> transfer? w c
  | none => setEnd? w

def handle (order : ByteOrder) : Capstone.Handle :=
  let set : InstructionSet := ⟨registers, assembly?⟩
  set.handle order fun parts => .arm32 (parts.map (set.detail Int32.ofInt))

end ElfAtlas.Arm.A32
