import ElfAtlas.Code.Arm.Assembly

/-!
Instructions of the 64-bit Arm set: branches, addresses, moves, sums, logic, loads and stores.
-/

namespace ElfAtlas.Arm.A64

/-- Number 31 of a register field is the zero register, or the stack pointer where one is allowed. -/
def registerText (wide stack : Bool) (n : Nat) : String :=
  if n = 31 then
    if stack then (if wide then "sp" else "wsp") else if wide then "xzr" else "wzr"
  else (if wide then "x" else "w") ++ toString n

/-- The frame pointer and the link register have names. -/
def registerName (wide stack : Bool) (n : Nat) : String :=
  if wide ∧ n = 29 then "fp" else if wide ∧ n = 30 then "lr" else registerText wide stack n

def register (wide stack : Bool) (n : Nat) : Item :=
  .register (registerText wide stack n) (registerName wide stack n)

def conditions : List String :=
  ["eq", "ne", "hs", "lo", "mi", "pl", "vs", "vc", "hi", "ls", "ge", "lt", "gt", "le", "al", "nv"]

/-- The address `offset` bytes away. Addresses wrap around. -/
def near (address : Nat) (offset : Int) : Item :=
  .address (((address : Int) + offset) % (UInt64.size : Nat)).toNat

def branch? (w address : Nat) : Option Assembly :=
  let offset := 4 * signed (bits w 0 26) 26
  if bits w 26 6 = 0b000101 then some ⟨"b", [near address offset]⟩
  else if bits w 26 6 = 0b100101 then some ⟨"bl", [near address offset]⟩
  else none

def branchIf? (w address : Nat) : Option Assembly :=
  if bits w 24 8 = 0x54 ∧ bits w 4 1 = 0 then
    (conditions[bits w 0 4]?).map fun c =>
      ⟨"b." ++ c, [near address (4 * signed (bits w 5 19) 19)]⟩
  else if bits w 25 6 = 0b011010 then
    some ⟨if flag w 24 then "cbnz" else "cbz",
      [register (flag w 31) false (bits w 0 5), near address (4 * signed (bits w 5 19) 19)]⟩
  else if bits w 25 6 = 0b011011 then
    some ⟨if flag w 24 then "tbnz" else "tbz",
      [register (flag w 31) false (bits w 0 5), .immediate (32 * bits w 31 1 + bits w 19 5 : Nat),
        near address (4 * signed (bits w 5 14) 14)]⟩
  else none

def branchRegister? (w : Nat) : Option Assembly :=
  if bits w 0 5 = 0 ∧ bits w 10 11 = 0b11111000000 ∧ bits w 23 9 = 0b110101100 then
    let target := register true false (bits w 5 5)
    match bits w 21 2 with
    | 0 => some ⟨"br", [target]⟩
    | 1 => some ⟨"blr", [target]⟩
    | 2 => some ⟨"ret", if bits w 5 5 = 30 then [] else [target]⟩
    | _ => none
  else none

def barriers : List (Nat × String) :=
  [(1, "oshld"), (2, "oshst"), (3, "osh"), (5, "nshld"), (6, "nshst"), (7, "nsh"), (9, "ishld"),
    (10, "ishst"), (11, "ish"), (13, "ld"), (14, "st"), (15, "sy")]

def system? (w : Nat) : Option Assembly :=
  if w = 0xd503201f then some ⟨"nop", []⟩
  else if bits w 12 20 = 0xd5033 ∧ bits w 0 8 = 0xbf then
    (barriers.lookup (bits w 8 4)).map fun name => ⟨"dmb", [.word name]⟩
  else if bits w 21 11 = 0b11010100000 ∧ bits w 0 5 = 1 then
    some ⟨"svc", [.immediate (bits w 5 16 : Nat)]⟩
  else none

/-- Addresses near the instruction, or pages near its page. -/
def addressOf? (w address : Nat) : Option Assembly :=
  if bits w 24 5 = 0b10000 then
    let offset := signed (4 * bits w 5 19 + bits w 29 2) 21
    let into := register true false (bits w 0 5)
    if flag w 31 then some ⟨"adrp", [into, near (address / 4096 * 4096) (4096 * offset)]⟩
    else some ⟨"adr", [into, near address offset]⟩
  else none

/-- A sum with the stack pointer and zero is a move, one without a result a comparison. -/
def sumImmediate? (w : Nat) : Option Assembly :=
  if bits w 23 6 = 0b100010 then
    let wide := flag w 31
    let sets := flag w 29
    let name := (if flag w 30 then "sub" else "add") ++ if sets then "s" else ""
    let into := register wide (!sets) (bits w 0 5)
    let left := register wide true (bits w 5 5)
    let right :=
      .immediate (bits w 10 12 : Nat) :: if flag w 22 then [.modifier "lsl #12"] else []
    if name = "add" ∧ bits w 10 13 = 0 ∧ (bits w 0 5 = 31 ∨ bits w 5 5 = 31) then
      some ⟨"mov", [into, left]⟩
    else if sets ∧ bits w 0 5 = 31 then
      some ⟨if flag w 30 then "cmp" else "cmn", left :: right⟩
    else some ⟨name, into :: left :: right⟩
  else none

/-- A constant of 16 bits at one of the places of a register. -/
def moveWide? (w : Nat) : Option Assembly :=
  let wide := flag w 31
  let place := bits w 21 2
  if bits w 23 6 = 0b100101 ∧ (wide ∨ place < 2) then
    let into := register wide false (bits w 0 5)
    let n := bits w 5 16
    let shifted : Int := (n <<< (16 * place) : Nat)
    let plain := .immediate (n : Nat) ::
      if place = 0 then [] else [Item.modifier ("lsl #" ++ toString (16 * place))]
    let isWhole := n ≠ 0 ∨ place = 0
    match bits w 29 2 with
    | 0 =>
      if isWhole ∧ (wide ∨ n ≠ 0xffff) then some ⟨"mov", [into, .immediate (-shifted - 1)]⟩
      else some ⟨"movn", into :: plain⟩
    | 2 =>
      if isWhole then some ⟨"mov", [into, .immediate shifted]⟩ else some ⟨"movz", into :: plain⟩
    | 3 => some ⟨"movk", into :: plain⟩
    | _ => none
  else none

def shifts : List String := ["lsl", "lsr", "asr", "ror"]

/-- How the last register is shifted; no shift is not written. -/
def shift (w : Nat) : List Item :=
  if bits w 10 6 = 0 ∧ bits w 22 2 = 0 then []
  else [.modifier ((shifts[bits w 22 2]?).getD "" ++ " #" ++ toString (bits w 10 6))]

def logic : List (String × String) :=
  [("and", "bic"), ("orr", "orn"), ("eor", "eon"), ("ands", "bics")]

def logic? (w : Nat) : Option Assembly :=
  let wide := flag w 31
  if bits w 24 5 = 0b01010 ∧ (wide ∨ bits w 15 1 = 0) then
    let into := register wide false (bits w 0 5)
    let left := register wide false (bits w 5 5)
    let right := register wide false (bits w 16 5) :: shift w
    (logic[bits w 29 2]?).map fun (name, inverted) =>
      let name := if flag w 21 then inverted else name
      if name = "orr" ∧ bits w 5 5 = 31 ∧ (shift w).isEmpty then ⟨"mov", into :: right⟩
      else if name = "orn" ∧ bits w 5 5 = 31 then ⟨"mvn", into :: right⟩
      else if name = "ands" ∧ bits w 0 5 = 31 then ⟨"tst", left :: right⟩
      else ⟨name, into :: left :: right⟩
  else none

def extensions : List String := ["uxtb", "uxth", "uxtw", "uxtx", "sxtb", "sxth", "sxtw", "sxtx"]

/-- How the last register is extended. Beside the stack pointer an extension that changes nothing is a
shift. -/
def extension (w : Nat) : List Item :=
  let count := bits w 10 3
  let isWhole := bits w 13 3 = (if flag w 31 then 3 else 2)
  let amount := if count = 0 then "" else " #" ++ toString count
  if isWhole ∧ (bits w 5 5 = 31 ∨ (bits w 0 5 = 31 ∧ !flag w 29)) then
    if count = 0 then [] else [.modifier ("lsl" ++ amount)]
  else [.modifier ((extensions[bits w 13 3]?).getD "" ++ amount)]

def sum? (w : Nat) : Option Assembly :=
  if bits w 24 5 = 0b01011 then
    let wide := flag w 31
    let sets := flag w 29
    let name := (if flag w 30 then "sub" else "add") ++ if sets then "s" else ""
    let isExtended := flag w 21
    let fits :=
      if isExtended then bits w 22 2 = 0 ∧ bits w 10 3 ≤ 4
      else bits w 22 2 ≠ 3 ∧ (wide ∨ bits w 15 1 = 0)
    if fits then
      let into := register wide (isExtended && !sets) (bits w 0 5)
      let left := register wide isExtended (bits w 5 5)
      let right :=
        if isExtended then
          register (wide && bits w 13 2 = 3) false (bits w 16 5) :: extension w
        else register wide false (bits w 16 5) :: shift w
      if sets ∧ bits w 0 5 = 31 then some ⟨if flag w 30 then "cmp" else "cmn", left :: right⟩
      else if !isExtended ∧ flag w 30 ∧ bits w 5 5 = 31 then
        some ⟨if sets then "negs" else "neg", into :: right⟩
      else some ⟨name, into :: left :: right⟩
    else none
  else none

/-- Where the address of a load or store is changed: not at all, before it or after it. -/
inductive Indexing where
  | offset
  | pre
  | post
  deriving DecidableEq, Repr

def memory (indexing : Indexing) (base : Nat) (displacement : Int) : List Item :=
  let text := registerText true true base
  let name := registerName true true base
  match indexing with
  | .offset =>
    let inside := if displacement = 0 then "" else ", " ++ number displacement
    [.memory ("[" ++ text ++ inside ++ "]") displacement name none]
  | .pre => [.memory ("[" ++ text ++ ", " ++ number displacement ++ "]!") displacement name none]
  | .post => [.memory ("[" ++ text ++ "]") 0 name none, .immediate displacement]

/-- Loads and stores of one register: the sizes are a byte, a half, a word and two words. -/
def single? (w : Nat) : Option Assembly :=
  if bits w 27 3 = 0b111 ∧ !flag w 26 ∧ bits w 23 1 = 0 then
    let size := bits w 30 2
    let name := (if flag w 22 then "ldr" else "str")
      ++ (if size = 0 then "b" else if size = 1 then "h" else "")
    let target := register (size = 3) false (bits w 0 5)
    if bits w 24 2 = 1 then
      some ⟨name, target :: memory .offset (bits w 5 5) (bits w 10 12 <<< size : Nat)⟩
    else if bits w 24 2 = 0 ∧ !flag w 21 then
      let displacement := signed (bits w 12 9) 9
      match bits w 10 2 with
      | 1 => some ⟨name, target :: memory .post (bits w 5 5) displacement⟩
      | 3 => some ⟨name, target :: memory .pre (bits w 5 5) displacement⟩
      | _ => none
    else none
  else none

def pair? (w : Nat) : Option Assembly :=
  let wide := flag w 31
  if bits w 27 3 = 0b101 ∧ !flag w 26 ∧ !flag w 30 then
    let name := if flag w 22 then "ldp" else "stp"
    let targets := [register wide false (bits w 0 5), register wide false (bits w 10 5)]
    let displacement := signed (bits w 15 7) 7 * (if wide then 8 else 4)
    let indexing : Option Indexing :=
      match bits w 23 3 with
      | 1 => some .post
      | 2 => some .offset
      | 3 => some .pre
      | _ => none
    indexing.map fun i => ⟨name, targets ++ memory i (bits w 5 5) displacement⟩
  else none

def registers : List String :=
  (List.range 29).map (registerName true true) ++ ["fp", "lr", "sp", "xzr"]
    ++ (List.range 31).map (registerName false true) ++ ["wsp", "wzr"]

/-- The classes of instructions have no words in common. -/
def assembly? (w address : Nat) : Option Assembly :=
  branch? w address <|> branchIf? w address <|> branchRegister? w <|> system? w
    <|> addressOf? w address <|> sumImmediate? w <|> moveWide? w <|> logic? w <|> sum? w
    <|> single? w <|> pair? w

def handle (order : ByteOrder) : Capstone.Handle :=
  let set : InstructionSet := ⟨registers, assembly?⟩
  set.handle order fun parts => .arm64 (parts.map (set.detail Int64.ofInt))

end ElfAtlas.Arm.A64
