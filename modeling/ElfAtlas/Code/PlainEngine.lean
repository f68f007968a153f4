import ElfAtlas.Code.Engine
import ElfAtlas.Text.Hex

/-!
Engines for code that is only to be listed: words of four or two bytes, and a table of byte patterns.
-/

namespace ElfAtlas

namespace PlainEngine

/-- Words of four bytes. Zero returns, a word of ones is undecodable, any other branches to its value. -/
def decodeWord (order : ByteOrder) : PureDecoder
  | a :: b :: c :: d :: _, address =>
    let bytes := [a, b, c, d]
    let n := order.value bytes
    if n = 0xffffffff then none
    else if n = 0 then
      some { address, bytes, mnemonic := "ret", operandText := "", operands := [] }
    else
      let text := "#" ++ Hex.marked n
      some {
        address
        bytes
        mnemonic := "bl"
        operandText := text
        operands := [(Operand.ofImmediate text (Int64.ofNat n)).withTarget (some (UInt64.ofNat n))] }
  | _, _ => none

/-- Words of two bytes, each an operation on an immediate number. -/
def decodePair (order : ByteOrder) : PureDecoder
  | a :: b :: _, address =>
    let n := order.value [a, b]
    let text := Hex.marked n
    some {
      address
      bytes := [a, b]
      mnemonic := "op"
      operandText := text
      operands := [Operand.ofImmediate text (Int64.ofNat n)] }
  | _, _ => none

/-- What code that starts with given bytes is decoded to. -/
structure Pattern where
  start : List UInt8
  length : Nat
  mnemonic : String
  operands : List Operand
  operandText : String
  deriving DecidableEq, Repr

/-- The first `length` bytes of the code, filled up with zeros. -/
def padded (code : List UInt8) (length : Nat) : List UInt8 :=
  let bytes := code.take length
  bytes ++ List.replicate (length - bytes.length) 0

/-- The first pattern that the code starts with decides. -/
def decodePattern (patterns : List Pattern) : PureDecoder := fun code address =>
  (patterns.find? (·.start.isPrefixOf code)).map fun p =>
    { address, bytes := padded code p.length, mnemonic := p.mnemonic, operandText := p.operandText,
      operands := p.operands }

def words (name : String) (supports : Architecture → Bool) : Engine OpenBudget PureDecoder :=
  .ofDecoder name supports fun _ order => decodeWord order

def pairs (name : String) (supports : Architecture → Bool) : Engine OpenBudget PureDecoder :=
  .ofDecoder name supports fun _ order => decodePair order

def patterns (name : String) (supports : Architecture → Bool) (patterns : List Pattern) :
    Engine OpenBudget PureDecoder :=
  .ofDecoder name supports fun _ _ => decodePattern patterns

/-- Serves no architecture. -/
def none (name : String) : Engine OpenBudget PureDecoder :=
  .ofDecoder name (fun _ => false) fun _ _ _ _ => Option.none

end PlainEngine

end ElfAtlas
