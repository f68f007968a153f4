import ElfAtlas.External

/-!
Branches of the 64-bit Arm set to a distance that the word names, decoded with a library that reports the
address where they go as a signed immediate. The operand keeps that immediate. Its target is the same
address, but only where the immediate is not negative.
-/

namespace ElfAtlas

namespace Arm

theorem bits_low (high : Nat) {low width : Nat} (h : low < 1 <<< width) :
    bits (high <<< width + low) 0 width = low := by
  rw [Nat.one_shiftLeft] at h
  rw [bits, Nat.shiftRight_zero, Nat.shiftLeft_eq, Nat.one_shiftLeft, Nat.mul_comm, Nat.mul_add_mod,
    Nat.mod_eq_of_lt h]

theorem bits_high {high low width top : Nat} (h : low < 1 <<< width) (htop : high < 1 <<< top) :
    bits (high <<< width + low) width top = high := by
  rw [Nat.one_shiftLeft] at h
  rw [bits, Nat.shiftRight_eq_div_pow, Nat.shiftLeft_eq, Nat.mul_comm, Nat.mul_add_div (by omega),
    Nat.div_eq_of_lt h, Nat.add_zero, Nat.mod_eq_of_lt htop]

theorem signed_toNat {width : Nat} (n : BitVec (width + 1)) :
    signed n.toNat (width + 1) = n.toInt := by
  have hn := n.isLt
  rw [signed, BitVec.toInt_eq_toNat_cond, Nat.add_sub_cancel, Nat.one_shiftLeft, Nat.one_shiftLeft,
    Nat.pow_succ]
  split <;> split <;> omega

namespace A64

inductive Branch where
  | jump
  | call

namespace Branch

def mnemonic : Branch → String
  | jump => "b"
  | call => "bl"

def opcode : Branch → Nat
  | jump => 0b000101
  | call => 0b100101

/-- The opcode above the number of words to go. -/
def encode (b : Branch) (displacement : BitVec 26) : Nat := b.opcode <<< 26 + displacement.toNat

def destination (address : UInt64) (displacement : BitVec 26) : UInt64 :=
  address + UInt64.ofInt (4 * displacement.toInt)

theorem encode_lt (b : Branch) (displacement : BitVec 26) : b.encode displacement < 1 <<< 32 := by
  have hlow := displacement.isLt
  cases b <;> simp only [encode, opcode, Nat.reduceShiftLeft] <;> omega

end Branch

end A64

end Arm

open Arm.A64 (Branch)

/-! ### The decoder -/

/-- The library reports a branch wherever it stands and whatever comes behind it. What the text of its
operand says is left open. -/
def Capstone.Handle.ReportsBranches (handle : Capstone.Handle) (order : ByteOrder) : Prop :=
  ∀ (b : Branch) (displacement : BitVec 26) (address : UInt64) (rest : List UInt8),
    let word := order.bytes 4 (b.encode displacement)
    ∃ text,
      handle.first? (word ++ rest) address =
        some
          { bytes := word, mnemonic := some b.mnemonic, operandText := some text,
            details := some (.arm64 [.immediate (Branch.destination address displacement).toInt64]) }

namespace CapstoneDecoder

theorem isAbsolute_mnemonic (b : Branch) : isAbsolute b.mnemonic = true := by
  cases b <;> decide +kernel

theorem toInt64_nonneg_iff (n : UInt64) : 0 ≤ n.toInt64 ↔ n.toNat < 1 <<< 63 := by
  have hn := n.toNat_lt
  have htoInt : n.toInt64.toInt = n.toBitVec.toInt := rfl
  rw [Int64.le_iff_toInt_le, htoInt, BitVec.toInt_eq_toNat_cond, UInt64.toNat_toBitVec]
  simp only [Int64.toInt_zero, Nat.reduceShiftLeft]
  split <;> omega

theorem target?_toInt64 (n : UInt64) :
    target? n.toInt64 = if n.toNat < 1 <<< 63 then some n else none := by
  simp only [target?, toInt64_nonneg_iff, UInt64.toUInt64_toInt64]

/-- However the texts are split, the one operand there is gets a text and keeps its immediate. -/
theorem pairedOperands?_immediate (n : Int64) (texts : List String) :
    ∃ text, pairedOperands? [Operand.ofImmediate "" n] texts = some [Operand.ofImmediate text n] := by
  match texts with
  | [text] => exact ⟨text, rfl⟩
  | [] => exact ⟨_, rfl⟩
  | _ :: _ :: _ => exact ⟨_, rfl⟩

theorem withTargets_immediate {mnemonic : String} (h : isAbsolute mnemonic = true) (text : String)
    (n : Int64) :
    withTargets mnemonic [Operand.ofImmediate text n] =
      [(Operand.ofImmediate text n).withTarget (target? n)] := by
  rw [withTargets, if_pos h]
  rfl

variable {capstone : Capstone} {handle : Capstone.Handle} {order : ByteOrder}

/-- A branch is decoded wherever it stands and whatever comes behind it. Its operand has the address where
it goes as an immediate in two's complement. That address is also the target of the operand, but only in
the lower half of the address space; an operand that leads to the upper half has no target. -/
theorem decode?_branch (hopen : capstone .arm64 order = .ok handle)
    (hreports : handle.ReportsBranches order) (b : Branch) (displacement : BitVec 26)
    (address : UInt64) (rest : List UInt8) :
    let word := order.bytes 4 (b.encode displacement)
    let destination := Branch.destination address displacement
    ∃ d text operandText,
      CapstoneDecoder.new capstone .arm64 order = .ok d ∧
        d.decode? (word ++ rest) address =
          some (some
            { address, bytes := word, mnemonic := b.mnemonic, operandText,
              operands :=
                [(Operand.ofImmediate text destination.toInt64).withTarget
                  (if destination.toNat < 1 <<< 63 then some destination else none)] }) := by
  intro word destination
  obtain ⟨operandText, hreport⟩ := hreports b displacement address rest
  obtain ⟨text, hpaired⟩ :=
    pairedOperands?_immediate destination.toInt64 (splitOperands operandText)
  refine ⟨⟨.arm64, handle⟩, text, operandText, ?_, ?_⟩
  · rw [new, hopen]
  · rw [decode?, hreport]
    simp only [detailedOperands, List.map_cons, List.map_nil, operand, id, Option.getD_some]
    rw [hpaired, Option.bind_eq_bind, Option.bind_some,
      withTargets_immediate (isAbsolute_mnemonic b), target?_toInt64]
    rfl

end CapstoneDecoder

/-! ### The disassembler that comes with the library -/

namespace Arm.A64

theorem near_eq (address : UInt64) (offset : Int) :
    near address.toNat offset = .address (address + UInt64.ofInt offset).toNat := by
  have haddress := address.toNat_lt
  rw [near, UInt64.toNat_add]
  congr 1
  simp [UInt64.ofInt]
  omega

theorem assembly?_encode (b : Branch) (displacement : BitVec 26) (address : UInt64) :
    assembly? (b.encode displacement) address.toNat =
      some ⟨b.mnemonic, [.address (Branch.destination address displacement).toNat]⟩ := by
  have hlow : bits (b.encode displacement) 0 26 = displacement.toNat :=
    bits_low _ displacement.isLt
  have hhigh : bits (b.encode displacement) 26 6 = b.opcode :=
    bits_high displacement.isLt (by cases b <;> decide)
  have hbranch : branch? (b.encode displacement) address.toNat =
      some ⟨b.mnemonic, [.address (Branch.destination address displacement).toNat]⟩ := by
    rw [branch?, hlow, hhigh, signed_toNat, near_eq]
    cases b <;> rfl
  rw [assembly?, hbranch]
  rfl

theorem ofInt_toNat_eq_toInt64 (n : UInt64) : Int64.ofInt n.toNat = n.toInt64 := by
  rw [Int64.ofInt_eq_ofNat]
  exact congrArg UInt64.toInt64 UInt64.ofNat_toNat

theorem reportsBranches_handle (order : ByteOrder) : (handle order).ReportsBranches order := by
  intro b displacement address rest word
  have hvalue : order.value word = b.encode displacement := by
    rw [ByteOrder.value_bytes, Nat.mod_eq_of_lt (b.encode_lt displacement)]
  have hword : word.length = 4 := order.length_bytes 4 _
  match word, hword with
  | [a₁, a₂, a₃, a₄], _ =>
      refine ⟨(Item.address (Branch.destination address displacement).toNat).text, ?_⟩
      simp only [handle, InstructionSet.handle, InstructionSet.first?, List.cons_append, hvalue,
        assembly?_encode, Option.map_some, ← ofInt_toNat_eq_toInt64]
      rfl

end Arm.A64

theorem CapstoneDecoder.decode?_branch_call :
    External.capstone .arm64 .little = .ok (Arm.A64.handle .little) ∧
      (Arm.A64.handle .little).ReportsBranches .little ∧
      ∃ d text operandText,
        CapstoneDecoder.new External.capstone .arm64 .little = .ok d ∧
          d.decode? [0x04, 0x00, 0x00, 0x94, 0xc0, 0x03, 0x5f, 0xd6] 0x1000 =
            some (some
              { address := 0x1000, bytes := [0x04, 0x00, 0x00, 0x94], mnemonic := "bl", operandText,
                operands := [(Operand.ofImmediate text 0x1010).withTarget (some 0x1010)] }) :=
  have hreports := Arm.A64.reportsBranches_handle .little
  ⟨rfl, hreports,
    CapstoneDecoder.decode?_branch rfl hreports .call 4 0x1000 [0xc0, 0x03, 0x5f, 0xd6]⟩

/-- A call in the upper half of the address space is reported to go four words on, and its operand has no
target. -/
theorem CapstoneDecoder.decode?_misses_high_target :
    let address : UInt64 := 0xffff800000000000
    let destination := Branch.destination address 4
    let word := ByteOrder.little.bytes 4 (Branch.call.encode 4)
    let handle := Arm.A64.handle .little
    word = [0x04, 0x00, 0x00, 0x94] ∧ destination = 0xffff800000000010 ∧
      (handle.first? word address).map (·.details) =
        some (some (.arm64 [.immediate destination.toInt64])) ∧
      ((CapstoneDecoder.mk .arm64 handle).decode? word address).map
          (Option.map fun i => i.operands.map (·.target)) =
        some (some [none]) := by
  decide +kernel

end ElfAtlas
