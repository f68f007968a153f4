import ElfAtlas.Code.Iced
import ElfAtlas.Text.Hex

/-!
Operands of x86 instructions: registers, constants, memory and branch targets. What depends on where the
instruction ends is settled last.
-/

namespace ElfAtlas.X86

inductive Mode where
  | bits32
  | bits64
  deriving DecidableEq, Repr

namespace Mode

/-- The bits of an address. -/
def width : Mode → Nat
  | bits32 => 32
  | bits64 => 64

end Mode

inductive Size where
  | byte
  | dword
  | qword
  deriving DecidableEq, Repr

namespace Size

def bits : Size → Nat
  | byte => 8
  | dword => 32
  | qword => 64

def label : Size → String
  | byte => "byte ptr "
  | dword => "dword ptr "
  | qword => "qword ptr "

end Size

def stems : List String := ["ax", "cx", "dx", "bx", "sp", "bp", "si", "di"]

def bytes : List String := ["al", "cl", "dl", "bl", "ah", "ch", "dh", "bh"]

def extendedBytes : List String := ["al", "cl", "dl", "bl", "spl", "bpl", "sil", "dil"]

/-- Extended encodings have no high bytes of registers. -/
def registerName (size : Size) (extended : Bool) (n : Nat) : String :=
  match size with
  | .byte => ((if extended then extendedBytes else bytes)[n]?).getD ("r" ++ toString n ++ "b")
  | .dword => (stems[n]?).elim ("r" ++ toString n ++ "d") ("e" ++ ·)
  | .qword => (stems[n]?).elim ("r" ++ toString n) ("r" ++ ·)

structure Address where
  base : Option String := none
  index : Option String := none
  scale : Nat := 1
  displacement : Int := 0
  /-- Whether the displacement counts from the end of the instruction. -/
  relative : Bool := false
  deriving DecidableEq, Repr

inductive Arg where
  | register (name : String)
  /-- A constant, shown as an unsigned number of so many bits. -/
  | constant (value : Int) (bits : Nat)
  | memory (label : String) (address : Address)
  | near (short : Bool) (offset : Int)
  | far (offset selector : Nat)
  deriving DecidableEq, Repr

/-- Numbers of one digit are decimal, others hexadecimal. -/
def magnitude (n : Nat) : String := if n < 10 then toString n else Hex.marked n

/-- How a debug print names a register. -/
def upper (name : String) : String := String.ofList (name.toList.map Char.toUpper)

def wrap (bits : Nat) (n : Int) : Nat := (n % (1 <<< bits : Nat)).toNat

namespace Address

/-- A lone index shows its scale even if that is one. -/
def indexText (a : Address) : List String :=
  match a.index with
  | some name => [if a.scale = 1 ∧ a.base.isSome then name else name ++ "*" ++ toString a.scale]
  | none => []

def text (a : Address) (mode : Mode) : String :=
  let registers := "+".intercalate (a.base.toList ++ a.indexText)
  if registers = "" then "[" ++ magnitude (wrap mode.width a.displacement) ++ "]"
  else if a.displacement = 0 then "[" ++ registers ++ "]"
  else
    "[" ++ registers ++ (if a.displacement < 0 then "-" else "+")
      ++ magnitude a.displacement.natAbs ++ "]"

/-- The operand of an instruction that ends at `next`. Without registers the address is known. -/
def operand (a : Address) (mode : Mode) (next : Nat) (label : String) : Iced.Formatted :=
  if a.relative then
    let n := wrap mode.width (next + a.displacement)
    ⟨some (label ++ "[" ++ magnitude n ++ "]"),
      some (.memory ⟨some "RIP", none, UInt64.ofNat n, some (UInt64.ofNat n)⟩)⟩
  else
    let n := wrap mode.width a.displacement
    ⟨some (label ++ a.text mode),
      some (.memory ⟨a.base.map upper, a.index.map upper, UInt64.ofNat n, none⟩)⟩

end Address

namespace Arg

/-- The operand of an instruction that ends at `next`. -/
def operand (a : Arg) (mode : Mode) (next : Nat) : Iced.Formatted :=
  match a with
  | register name => ⟨some name, some (.register (some (upper name)))⟩
  | constant value bits =>
    ⟨some (magnitude (wrap bits value)), some (.immediate (UInt64.ofInt value))⟩
  | memory label address => address.operand mode next label
  | near short offset =>
    let n := wrap mode.width (next + offset)
    ⟨some ((if short then "short " else "") ++ magnitude n), some (.nearBranch (UInt64.ofNat n))⟩
  | far offset selector => ⟨some (magnitude offset ++ ", " ++ magnitude selector), some .other⟩

end Arg

end ElfAtlas.X86
