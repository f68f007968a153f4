import ElfAtlas.Proofs.Code.Sweep

/-!
Where a sweep can be cut. If the item at the front of the code does not depend on the bytes behind
it, the sweeps over the two sides of an instruction boundary make up the sweep over the whole.
-/

namespace ElfAtlas

namespace Instruction

def totalLength : List Instruction → Nat
  | [] => 0
  | i :: is => i.length + totalLength is

/-- A position between two neighbouring instructions, or at either end. -/
def IsBoundary (is : List Instruction) (m : Nat) : Prop := ∃ k, totalLength (is.take k) = m

@[simp] theorem totalLength_cons (i : Instruction) (is : List Instruction) :
    totalLength (i :: is) = i.length + totalLength is := rfl

theorem totalLength_append (is js : List Instruction) :
    totalLength (is ++ js) = totalLength is + totalLength js := by
  induction is with
  | nil => rw [List.nil_append, totalLength, Nat.zero_add]
  | cons i is ih =>
      rw [List.cons_append, totalLength_cons, totalLength_cons, ih, Nat.add_assoc]

theorem isBoundary_zero (is : List Instruction) : IsBoundary is 0 := ⟨0, rfl⟩

theorem isBoundary_cons_iff {i : Instruction} {is : List Instruction} {m : Nat} :
    IsBoundary (i :: is) m ↔ m = 0 ∨ ∃ m', IsBoundary is m' ∧ m = i.length + m' := by
  constructor
  · rintro ⟨k, rfl⟩
    cases k with
    | zero => exact .inl rfl
    | succ k => exact .inr ⟨_, ⟨k, rfl⟩, by rw [List.take_succ_cons, totalLength_cons]⟩
  · rintro (rfl | ⟨m', ⟨k, rfl⟩, rfl⟩)
    · exact isBoundary_zero _
    · exact ⟨k + 1, by rw [List.take_succ_cons, totalLength_cons]⟩

theorem IsBoundary.le {is : List Instruction} {m : Nat} (h : IsBoundary is m) :
    m ≤ totalLength is := by
  obtain ⟨k, rfl⟩ := h
  have happend := totalLength_append (is.take k) (is.drop k)
  rw [List.take_append_drop] at happend
  omega

/-- A boundary that is not inside the first part is a boundary of the second part. -/
theorem IsBoundary.of_append {is js : List Instruction} {m : Nat} (h : IsBoundary (is ++ js) m)
    (hm : totalLength is ≤ m) : IsBoundary js (m - totalLength is) := by
  obtain ⟨k, rfl⟩ := h
  by_cases hk : k ≤ is.length
  · rw [List.take_append_of_le_length hk] at hm ⊢
    have hle : totalLength (is.take k) ≤ totalLength is := IsBoundary.le ⟨k, rfl⟩
    rw [show totalLength (is.take k) - totalLength is = 0 by omega]
    exact isBoundary_zero js
  · have hall : is.take k = is := List.take_of_length_le (by omega)
    refine ⟨k - is.length, ?_⟩
    rw [List.take_append, hall, totalLength_append]
    omega

end Instruction

namespace PureDecoder

open Instruction

/-- The items of a sweep tile the code. -/
theorem totalLength_sweep (f : PureDecoder) (arch : Architecture) (address : UInt64)
    (code : List UInt8) : totalLength (f.sweep arch address code) = code.length := by
  induction hn : code.length using Nat.strongRecOn generalizing address code with
  | ind n ih =>
      by_cases hcode : code = []
      · rw [hcode, sweep_nil, ← hn, hcode]
        rfl
      · have hlen := f.length_item arch address hcode
        rw [f.sweep_of_ne_nil arch address hcode, totalLength_cons,
          ih _ (by rw [List.length_drop]; omega) _ _ rfl, List.length_drop]
        omega

/-- The boundaries behind the item at the front are those of the sweep over the rest. -/
theorem isBoundary_of_item {f : PureDecoder} {arch : Architecture} {address : UInt64}
    {code : List UInt8} {n m : Nat} (hcode : code ≠ [])
    (hn : (f.item arch code address).length = n)
    (hm : IsBoundary (f.sweep arch (address + UInt64.ofNat n) (code.drop n)) m) :
    IsBoundary (f.sweep arch address code) (n + m) := by
  rw [f.sweep_of_ne_nil arch address hcode, hn, isBoundary_cons_iff]
  exact .inr ⟨m, hm, by rw [hn]⟩

/-- What stands behind the item at the front can be cut off. -/
def IsCutStable (f : PureDecoder) (arch : Architecture) : Prop :=
  ∀ code address n, code ≠ [] → (f.item arch code address).length ≤ n →
    f.item arch (code.take n) address = f.item arch code address

/-- Cut at a boundary, code is swept as before on both sides. -/
theorem sweep_cut {f : PureDecoder} {arch : Architecture} (hf : f.IsCutStable arch)
    {address : UInt64} {code : List UInt8} {m : Nat}
    (hm : IsBoundary (f.sweep arch address code) m) :
    f.sweep arch address code =
      f.sweep arch address (code.take m) ++
        f.sweep arch (address + UInt64.ofNat m) (code.drop m) := by
  induction hn : code.length using Nat.strongRecOn generalizing address code m with
  | ind n ih =>
      by_cases hcode : code = []
      · simp [hcode]
      · have hlen := f.length_item arch address hcode
        rw [f.sweep_of_ne_nil arch address hcode] at hm
        rcases isBoundary_cons_iff.1 hm with rfl | ⟨m', hm', rfl⟩
        · simp
        · have hitem := hf code address ((f.item arch code address).length + m') hcode
            (Nat.le_add_right _ _)
          have hfront : code.take ((f.item arch code address).length + m') ≠ [] := by
            rw [← List.length_pos_iff, List.length_take]
            omega
          have hrest := ih _ (by rw [List.length_drop]; omega) hm' rfl
          rw [f.sweep_of_ne_nil arch address hcode, f.sweep_of_ne_nil arch address hfront, hitem,
            List.cons_append, hrest, List.drop_take, Nat.add_sub_cancel_left, List.drop_drop,
            UInt64.ofNat_add, UInt64.add_assoc]

/-- Behind a boundary, the later boundaries are those of the sweep that starts there. -/
theorem isBoundary_drop {f : PureDecoder} {arch : Architecture} (hf : f.IsCutStable arch)
    {address : UInt64} {code : List UInt8} {m n : Nat}
    (hm : IsBoundary (f.sweep arch address code) m)
    (hn : IsBoundary (f.sweep arch address code) n) (hmn : m ≤ n) :
    IsBoundary (f.sweep arch (address + UInt64.ofNat m) (code.drop m)) (n - m) := by
  have hle := hm.le
  rw [totalLength_sweep] at hle
  have hfront : totalLength (f.sweep arch address (code.take m)) = m := by
    rw [totalLength_sweep, List.length_take]
    omega
  rw [sweep_cut hf hm] at hn
  have hrest := hn.of_append (by omega)
  rwa [hfront] at hrest

/-- Words of four bytes: nothing is read behind the first word, and less than a word is nothing. -/
structure IsWordwise (f : PureDecoder) : Prop where
  short : ∀ code address, code.length < 4 → f code address = none
  length : ∀ code address i, 4 ≤ code.length → f code address = some i → i.length = 4
  front : ∀ code address, 4 ≤ code.length → f code address = f (code.take 4) address

/-- Instructions of any length: an accepted instruction stays as it is when bytes behind it are cut
off, and what is not accepted at the front of the code is not accepted at the front of less code. -/
structure IsPrefixStable (f : PureDecoder) : Prop where
  accepted : ∀ code address i n, f.accepted? code address = some i → i.length ≤ n →
    f.accepted? (code.take n) address = some i
  rejected : ∀ code address n, f.accepted? code address = none → 0 < n →
    f.accepted? (code.take n) address = none

theorem minLength_of_isFixedWidth {arch : Architecture} (h : arch.isFixedWidth = true) :
    arch.minLength = 4 := by
  cases arch <;> simp_all [Architecture.isFixedWidth, Architecture.minLength]

theorem minLength_of_not_isFixedWidth {arch : Architecture} (h : arch.isFixedWidth = false) :
    arch.minLength = 1 := by
  cases arch <;> simp_all [Architecture.isFixedWidth, Architecture.minLength]

theorem IsWordwise.accepted?_eq {f : PureDecoder} (hf : f.IsWordwise) {code : List UInt8}
    (address : UInt64) (h : 4 ≤ code.length) : f.accepted? code address = f (code.take 4) address := by
  rw [accepted?, hf.front code address h]
  cases hi : f (code.take 4) address with
  | none => rfl
  | some i =>
      rw [Option.filter_some, if_pos]
      rw [← hf.front code address h] at hi
      have hlen := hf.length code address i h hi
      exact acceptable_iff.2 ⟨by omega, by omega⟩

theorem IsWordwise.length_item {f : PureDecoder} (hf : f.IsWordwise) {arch : Architecture}
    (harch : arch.isFixedWidth = true) (code : List UInt8) (address : UInt64) :
    (f.item arch code address).length = min 4 code.length := by
  cases hi : f.accepted? code address with
  | none =>
      rw [item_of_rejected hi, length_bad, List.length_take, minLength_of_isFixedWidth harch]
  | some i =>
      rw [item_of_accepted hi]
      obtain ⟨hanswer, -, hle⟩ := accepted?_eq_some_iff.1 hi
      by_cases h : 4 ≤ code.length
      · rw [hf.length code address i h hanswer]
        omega
      · rw [hf.short code address (by omega)] at hanswer
        simp at hanswer

theorem IsWordwise.isCutStable {f : PureDecoder} (hf : f.IsWordwise) {arch : Architecture}
    (harch : arch.isFixedWidth = true) : f.IsCutStable arch := by
  intro code address n _ hn
  rw [hf.length_item harch] at hn
  by_cases h : 4 ≤ code.length
  · have h' : 4 ≤ (code.take n).length := by
      rw [List.length_take]
      omega
    have hfront : (code.take n).take 4 = code.take 4 := by
      rw [List.take_take, Nat.min_eq_left (by omega)]
    rw [item, item, hf.accepted?_eq address h', hf.accepted?_eq address h,
      minLength_of_isFixedWidth harch, hfront]
  · rw [List.take_of_length_le (by omega)]

/-- Every multiple of the word within the code is a boundary. -/
theorem IsWordwise.isBoundary {f : PureDecoder} (hf : f.IsWordwise) {arch : Architecture}
    (harch : arch.isFixedWidth = true) {address : UInt64} {code : List UInt8} {m : Nat}
    (hm : 4 ∣ m) (hle : m ≤ code.length) : IsBoundary (f.sweep arch address code) m := by
  obtain ⟨k, rfl⟩ := hm
  induction k generalizing address code with
  | zero => exact isBoundary_zero _
  | succ k ih =>
      have hcode : code ≠ [] := by
        rw [← List.length_pos_iff]
        omega
      have hlen : (f.item arch code address).length = 4 := by
        rw [hf.length_item harch]
        omega
      rw [Nat.mul_succ, Nat.add_comm]
      refine isBoundary_of_item hcode hlen (ih ?_)
      rw [List.length_drop]
      omega

theorem IsPrefixStable.isCutStable {f : PureDecoder} (hf : f.IsPrefixStable) {arch : Architecture}
    (harch : arch.isFixedWidth = false) : f.IsCutStable arch := by
  intro code address n hcode hn
  cases hi : f.accepted? code address with
  | some i =>
      rw [item_of_accepted hi] at hn ⊢
      exact item_of_accepted (hf.accepted code address i n hi hn)
  | none =>
      have hpos : 0 < code.length := List.length_pos_iff.2 hcode
      rw [item_of_rejected hi, length_bad, minLength_of_not_isFixedWidth harch,
        List.length_take] at hn
      rw [item_of_rejected hi, item_of_rejected (hf.rejected code address n hi (by omega)),
        minLength_of_not_isFixedWidth harch, List.take_take, Nat.min_eq_left (by omega)]

end PureDecoder

end ElfAtlas
