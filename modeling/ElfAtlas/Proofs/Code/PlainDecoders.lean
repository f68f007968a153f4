import ElfAtlas.Code.PlainEngine
import ElfAtlas.Proofs.Code.Boundary
import ElfAtlas.Proofs.Code.Locality
import Mathlib.Tactic.SplitIfs

/-!
What the plain decoders promise. Words of four bytes bear their address and can be cut between words;
with a table of byte patterns that name all the bytes of an instruction, code can be cut behind any
instruction.
-/

namespace ElfAtlas

namespace PlainEngine

theorem decodeWord_of_short (order : ByteOrder) {code : List UInt8} (address : UInt64)
    (h : code.length < 4) : decodeWord order code address = Option.none := by
  match code, h with
  | [], _ | [_], _ | [_, _], _ | [_, _, _], _ => rfl
  | _ :: _ :: _ :: _ :: rest, h => simp only [List.length_cons] at h; omega

theorem decodeWord_take (order : ByteOrder) {code : List UInt8} (address : UInt64)
    (h : 4 ≤ code.length) :
    decodeWord order code address = decodeWord order (code.take 4) address := by
  match code, h with
  | a :: b :: c :: d :: rest, _ => rfl

theorem length_of_decodeWord {order : ByteOrder} {code : List UInt8} {address : UInt64}
    {i : Instruction} (h : decodeWord order code address = some i) :
    i.address = address ∧ i.length = 4 := by
  unfold decodeWord at h
  split at h
  · simp only at h
    split_ifs at h
    all_goals
      rw [← Option.some.inj h]
      exact ⟨rfl, rfl⟩
  · simp at h

theorem decodeWord_isFaithful (order : ByteOrder) :
    PureDecoder.IsFaithful (decodeWord order) :=
  fun _ _ _ h => (length_of_decodeWord h).1

theorem decodeWord_isWordwise (order : ByteOrder) :
    PureDecoder.IsWordwise (decodeWord order) where
  short _ address h := decodeWord_of_short order address h
  length _ _ _ _ h := (length_of_decodeWord h).2
  front _ address h := decodeWord_take order address h

theorem decodeWord_isLocal (order : ByteOrder) {arch : Architecture}
    (harch : arch.isFixedWidth = true) : PureDecoder.IsLocal (decodeWord order) arch := by
  have hmax : arch.maxLength = 4 := by
    cases arch <;> simp_all [Architecture.isFixedWidth, Architecture.maxLength]
  refine ⟨fun code code' address h h' hfront => ?_, fun _ _ _ h => ?_⟩
  · rw [hmax] at h h' hfront
    rw [decodeWord_take order address h, decodeWord_take order address h', hfront]
  · exact Nat.le_of_eq ((length_of_decodeWord h).2.trans hmax.symm)

def AreExact (patterns : List Pattern) : Prop :=
  ∀ p ∈ patterns, p.length = p.start.length ∧ 0 < p.length

theorem length_padded (code : List UInt8) (length : Nat) : (padded code length).length = length := by
  rw [padded, List.length_append, List.length_replicate, List.length_take]
  omega

theorem padded_of_le {code : List UInt8} {length : Nat} (h : length ≤ code.length) :
    padded code length = code.take length := by
  rw [padded, List.length_take, Nat.min_eq_left h, Nat.sub_self, List.replicate_zero,
    List.append_nil]

theorem padded_take (code : List UInt8) {length n : Nat} (h : length ≤ n) :
    padded (code.take n) length = padded code length := by
  rw [padded, padded, List.take_take, Nat.min_eq_left h]

theorem isPrefixOf_take {start : List UInt8} (code : List UInt8) {n : Nat}
    (h : start.length ≤ n) : start.isPrefixOf (code.take n) = start.isPrefixOf code := by
  rw [Bool.eq_iff_iff, List.isPrefixOf_iff_prefix, List.isPrefixOf_iff_prefix,
    List.prefix_take_iff]
  exact ⟨fun hp => hp.1, fun hp => ⟨hp, h⟩⟩

/-- A pattern that does not match does not match less code either. -/
theorem isPrefixOf_of_take {start code : List UInt8} {n : Nat}
    (h : start.isPrefixOf (code.take n) = true) : start.isPrefixOf code = true := by
  rw [List.isPrefixOf_iff_prefix] at h ⊢
  exact h.trans (List.take_prefix n code)

theorem decodePattern_isPrefixStable {patterns : List Pattern} (h : AreExact patterns) :
    PureDecoder.IsPrefixStable (decodePattern patterns) where
  accepted code address i n hi hn := by
    rw [PureDecoder.accepted?_eq_some_iff] at hi ⊢
    obtain ⟨hanswer, hpos, hle⟩ := hi
    obtain ⟨p, hp, rfl⟩ := Option.map_eq_some_iff.1 hanswer
    obtain ⟨hmatch, before, after, hpatterns, hbefore⟩ := List.find?_eq_some_iff_append.1 hp
    have hmem : p ∈ patterns := by simp [hpatterns]
    simp only [Instruction.length, length_padded] at hn hpos hle
    have hfind : patterns.find? (·.start.isPrefixOf (code.take n)) = some p := by
      refine List.find?_eq_some_iff_append.2 ⟨?_, before, after, hpatterns, fun q hq => ?_⟩
      · rw [isPrefixOf_take code (by have := (h p hmem).1; omega)]
        exact hmatch
      · have hno := hbefore q hq
        rw [Bool.not_eq_true'] at hno ⊢
        rw [Bool.eq_false_iff] at hno ⊢
        exact fun hq' => hno (isPrefixOf_of_take hq')
    refine ⟨?_, ?_, ?_⟩
    · rw [decodePattern, hfind, Option.map_some, padded_take code hn]
    · simpa only [Instruction.length, length_padded] using hpos
    · simp only [Instruction.length, length_padded, List.length_take]
      omega
  rejected code address n hnone _ := by
    refine Option.eq_none_iff_forall_ne_some.2 fun i hi => ?_
    obtain ⟨hanswer, hpos, hle⟩ := PureDecoder.accepted?_eq_some_iff.1 hi
    obtain ⟨p, hp, rfl⟩ := Option.map_eq_some_iff.1 hanswer
    have hmem := List.mem_of_find?_eq_some hp
    have hfront := List.find?_some hp
    have hmatch := isPrefixOf_of_take hfront
    obtain ⟨q, hq⟩ := Option.isSome_iff_exists.1
      (List.find?_isSome.2 ⟨p, hmem, hmatch⟩ :
        (patterns.find? (·.start.isPrefixOf code)).isSome = true)
    obtain ⟨hlen, hqpos⟩ := h q (List.mem_of_find?_eq_some hq)
    have hqfront := List.find?_some hq
    have hfit := (List.isPrefixOf_iff_prefix.1 hqfront).length_le
    have hsome : PureDecoder.accepted? (decodePattern patterns) code address =
        some { address, bytes := padded code q.length, mnemonic := q.mnemonic,
               operandText := q.operandText, operands := q.operands } := by
      rw [PureDecoder.accepted?_eq_some_iff, decodePattern, hq]
      simp only [Option.map_some, Instruction.length, length_padded, true_and]
      omega
    rw [hsome] at hnone
    simp at hnone

end PlainEngine

end ElfAtlas
