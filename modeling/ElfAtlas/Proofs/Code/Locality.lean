import ElfAtlas.Proofs.Code.Sweep

/-!
Decoders that look no further than the longest instruction. Where that many bytes are left, cutting
off the bytes behind them does not change the item at the front.
-/

namespace ElfAtlas

namespace PureDecoder

def IsFaithful (f : PureDecoder) : Prop :=
  ∀ code address i, f code address = some i → i.address = address

/-- Where there are enough bytes for the longest instruction, only those count, and no instruction is
longer than the longest. -/
structure IsLocal (f : PureDecoder) (arch : Architecture) : Prop where
  front : ∀ code code' address, arch.maxLength ≤ code.length → arch.maxLength ≤ code'.length →
    code.take arch.maxLength = code'.take arch.maxLength → f code address = f code' address
  length : ∀ code address i, f code address = some i → i.length ≤ arch.maxLength

theorem minLength_le_maxLength (arch : Architecture) : arch.minLength ≤ arch.maxLength := by
  cases arch <;> decide

theorem address_item {f : PureDecoder} (hf : f.IsFaithful) (arch : Architecture)
    (code : List UInt8) (address : UInt64) : (f.item arch code address).address = address := by
  cases hi : f.accepted? code address with
  | none =>
      rw [item_of_rejected hi]
      rfl
  | some i =>
      rw [item_of_accepted hi]
      exact hf code address i (accepted?_eq_some_iff.1 hi).1

theorem IsLocal.item_eq {f : PureDecoder} {arch : Architecture} (hf : f.IsLocal arch)
    {code code' : List UInt8} (address : UInt64) (h : arch.maxLength ≤ code.length)
    (h' : arch.maxLength ≤ code'.length)
    (hfront : code.take arch.maxLength = code'.take arch.maxLength) :
    f.item arch code address = f.item arch code' address := by
  have hanswer := hf.front code code' address h h' hfront
  have hbad : code.take arch.minLength = code'.take arch.minLength := by
    have hmin := minLength_le_maxLength arch
    have := congrArg (List.take arch.minLength) hfront
    rwa [List.take_take, List.take_take, Nat.min_eq_left hmin] at this
  have haccepted : f.accepted? code address = f.accepted? code' address := by
    refine Option.ext fun i => ?_
    rw [accepted?_eq_some_iff, accepted?_eq_some_iff, hanswer]
    refine and_congr_right fun hi => ?_
    have := hf.length code' address i hi
    omega
  rw [item, item, haccepted, hbad]

end PureDecoder

end ElfAtlas
