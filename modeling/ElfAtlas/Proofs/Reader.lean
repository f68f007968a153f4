import ElfAtlas.Reader

/-!
When a bounds-checked computation has a result. Sums and products of positions have one if it is a
64-bit quantity, reads if the bytes lie in the image as well. How far a word stands behind another is
compared with a size as their numbers are.
-/

namespace ElfAtlas

theorem bind_eq_ok_iff {α β : Type} {x : Except Fault α} {f : α → Except Fault β} {b : β} :
    x >>= f = .ok b ↔ ∃ a, x = .ok a ∧ f a = .ok b := by
  cases x <;> simp [bind, Except.bind]

theorem bind_eq_error_iff {α β : Type} {x : Except Fault α} {f : α → Except Fault β} {fault : Fault} :
    x >>= f = .error fault ↔ x = .error fault ∨ ∃ a, x = .ok a ∧ f a = .error fault := by
  cases x <;> simp [bind, Except.bind]

theorem map_eq_ok_iff {α β : Type} {x : Except Fault α} {f : α → β} {b : β} :
    f <$> x = .ok b ↔ ∃ a, x = .ok a ∧ f a = b := by
  cases x <;> simp [Functor.map, Except.map]

theorem toOption_eq_some_iff {α : Type} {x : Except Fault α} {a : α} :
    x.toOption = some a ↔ x = .ok a := by
  cases x <;> simp [Except.toOption]

theorem checkedAdd_eq_ok_iff {a b n : Nat} {computing : String} :
    checkedAdd a b computing = .ok n ↔ a + b = n ∧ n < UInt64.size := by
  rw [checkedAdd]
  split
  · simp only [Except.ok.injEq]
    omega
  · simp only [reduceCtorEq, false_iff]
    omega

theorem checkedMul_eq_ok_iff {a b n : Nat} {computing : String} :
    checkedMul a b computing = .ok n ↔ a * b = n ∧ n < UInt64.size := by
  rw [checkedMul]
  split
  · simp only [Except.ok.injEq]
    omega
  · simp only [reduceCtorEq, false_iff]
    omega

/-- The product cannot overflow where the sum does not. -/
theorem entryOffset_eq_ok_iff {base index size offset : Nat} :
    entryOffset base index size = .ok offset ↔
      base + index * size = offset ∧ offset < UInt64.size := by
  simp only [entryOffset, bind_eq_ok_iff, checkedMul_eq_ok_iff, checkedAdd_eq_ok_iff]
  constructor
  · rintro ⟨delta, ⟨rfl, -⟩, h⟩
    exact h
  · intro h
    exact ⟨_, ⟨rfl, by omega⟩, h⟩

/-- Whether the product or the sum overflows, the fault is the same. -/
theorem entryOffset_eq (base index size : Nat) :
    entryOffset base index size =
      if base + index * size < UInt64.size then .ok (base + index * size)
      else .error (.overflow "entry offset") := by
  split
  · exact entryOffset_eq_ok_iff.2 ⟨rfl, ‹_›⟩
  · rename_i hsum
    rw [entryOffset, checkedMul]
    split
    · exact if_neg hsum
    · rfl

theorem wordSum?_eq_some_iff {a b c : UInt64} :
    wordSum? a b = some c ↔ a.toNat + b.toNat = c.toNat := by
  have hc := c.toNat_lt
  rw [wordSum?]
  split
  · rename_i hlt
    rw [Option.some.injEq, ← UInt64.toNat_inj, UInt64.toNat_add, Nat.mod_eq_of_lt hlt]
  · rename_i hlt
    simp only [reduceCtorEq, false_iff]
    exact fun hsum => hlt (hsum ▸ hc)

/-- The place of an address in a range that starts at `start` and whose bytes stand at `offset`. -/
theorem wordSum?_sub_eq_some_iff {offset start address place : UInt64} (hstart : start ≤ address) :
    wordSum? offset (address - start) = some place ↔
      offset.toNat + (address.toNat - start.toNat) = place.toNat := by
  rw [wordSum?_eq_some_iff, UInt64.toNat_sub_of_le _ _ hstart]

theorem sub_lt_iff {start address size : UInt64} (hstart : start ≤ address) :
    address - start < size ↔ address.toNat < start.toNat + size.toNat := by
  have hle := UInt64.le_iff_toNat_le.1 hstart
  rw [UInt64.lt_iff_toNat_lt, UInt64.toNat_sub_of_le _ _ hstart]
  omega

namespace Reader

variable {r : Reader} {offset len : Nat}

theorem contains_eq_true_iff :
    r.contains offset len = true ↔ offset + len ≤ r.length ∧ offset + len < UInt64.size := by
  simp [contains]

theorem slice_eq_ok_iff {bytes : List UInt8} :
    r.slice offset len = .ok bytes ↔
      r.contains offset len = true ∧ (r.bytes.extract offset (offset + len)).toList = bytes := by
  simp only [slice, bind_eq_ok_iff, checkedAdd_eq_ok_iff, contains_eq_true_iff]
  constructor
  · rintro ⟨stop, ⟨rfl, hlt⟩, h⟩
    split at h
    · rename_i hle
      exact ⟨⟨hle, hlt⟩, Except.ok.inj h⟩
    · cases h
  · rintro ⟨⟨hle, hlt⟩, rfl⟩
    exact ⟨_, ⟨rfl, hlt⟩, if_pos hle⟩

/-- A text is read at a position of a table that lies in the image. It ends before a NUL or with the
table. -/
theorem text_eq_ok_iff {start size rel : Nat} {name : String} :
    r.text start size rel = .ok name ↔
      ∃ table, r.slice start size = .ok table ∧ rel < table.length ∧
        name = Utf8.decode ((table.drop rel).takeWhile (· != 0)) := by
  rw [text, bind_eq_ok_iff]
  refine exists_congr fun table => and_congr_right fun _ => ?_
  split
  · rename_i hrel
    simp [hrel, eq_comm]
  · rename_i hrel
    simp [hrel, bind_eq_ok_iff]

end Reader

end ElfAtlas
