import ElfAtlas.Proofs.Reader

/-!
Reads from an image and from one that continues it. A range inside the shorter image is read alike from
both; a read that leaves the shorter image ends in a fault of its range there.
-/

namespace ElfAtlas

def Fault.IsRange : Fault → Prop
  | outOfBounds .. | overflow _ => True
  | _ => False

theorem Fault.IsRange.isFatal_eq_false {fault : Fault} (h : fault.IsRange) : fault.isFatal = false := by
  cases fault with
  | outOfBounds | overflow => rfl
  | _ => exact h.elim

theorem isRange_of_checkedAdd {a b : Nat} {computing : String} {fault : Fault}
    (h : checkedAdd a b computing = .error fault) : fault.IsRange := by
  rw [checkedAdd] at h
  split at h
  · cases h
  · cases h
    trivial

theorem isRange_of_checkedMul {a b : Nat} {computing : String} {fault : Fault}
    (h : checkedMul a b computing = .error fault) : fault.IsRange := by
  rw [checkedMul] at h
  split at h
  · cases h
  · cases h
    trivial

theorem isRange_of_entryOffset {base index size : Nat} {fault : Fault}
    (h : entryOffset base index size = .error fault) : fault.IsRange := by
  rw [entryOffset, bind_eq_error_iff] at h
  obtain h | ⟨delta, -, h⟩ := h
  · exact isRange_of_checkedMul h
  · exact isRange_of_checkedAdd h

namespace Reader

/-- The image of `r` starts with that of `p`, and both are read in one byte order. -/
structure Continues (r p : Reader) : Prop where
  order : r.order = p.order
  bytes : p.bytes.toList <+: r.bytes.toList

variable {r p : Reader} {offset size : Nat} {α β : Type}

theorem Continues.refl (r : Reader) : r.Continues r := ⟨rfl, List.prefix_refl _⟩

theorem Continues.length_le (h : r.Continues p) : p.length ≤ r.length := h.bytes.length_le

theorem Continues.contains (h : r.Continues p) (hp : p.contains offset size = true) :
    r.contains offset size = true := by
  have hle := h.length_le
  rw [contains_eq_true_iff] at hp ⊢
  omega

theorem Continues.extract (h : r.Continues p) {start stop : Nat} (hstop : stop ≤ p.length) :
    (p.bytes.extract start stop).toList = (r.bytes.extract start stop).toList := by
  obtain ⟨rest, hrest⟩ := h.bytes
  have hlength : stop - start ≤ (p.bytes.toList.drop start).length := by
    rw [List.length_drop, Array.length_toList]
    exact Nat.sub_le_sub_right hstop start
  rw [Array.toList_extract, Array.toList_extract, List.extract_eq_take_drop,
    List.extract_eq_take_drop, ← hrest, List.drop_append, List.take_append_of_le_length hlength]

theorem isRange_of_slice {fault : Fault} (h : r.slice offset size = .error fault) :
    fault.IsRange := by
  rw [slice, bind_eq_error_iff] at h
  obtain h | ⟨stop, -, h⟩ := h
  · exact isRange_of_checkedAdd h
  · split at h
    · cases h
    · cases h
      trivial

/-- What a reading computation over `[offset, offset + size)` yields for an image, `x`, and for one that
continues it, `y`: the same value if the range lies in the shorter image, else a fault of the range. -/
structure ReadsRange (p : Reader) (offset size : Nat) (x y : Except Fault α) : Prop where
  exists_ok : p.contains offset size = true → ∃ a, x = .ok a ∧ y = .ok a
  exists_error : p.contains offset size = false → ∃ fault, x = .error fault ∧ fault.IsRange

namespace ReadsRange

variable {x y : Except Fault α}

theorem eq (h : ReadsRange p offset size x y) (hin : p.contains offset size = true) : x = y := by
  obtain ⟨a, hx, hy⟩ := h.exists_ok hin
  rw [hx, hy]

theorem isRange_of_error (h : ReadsRange p offset size x y) {fault : Fault} (hx : x = .error fault) :
    fault.IsRange := by
  cases hin : p.contains offset size with
  | false =>
      obtain ⟨fault', hx', hrange⟩ := h.exists_error hin
      rw [hx] at hx'
      cases hx'
      exact hrange
  | true =>
      obtain ⟨a, hx', -⟩ := h.exists_ok hin
      rw [hx] at hx'
      cases hx'

theorem contains_of_ok (h : ReadsRange p offset size x y) {a : α} (hx : x = .ok a) :
    p.contains offset size = true := by
  cases hin : p.contains offset size with
  | true => rfl
  | false =>
      obtain ⟨fault, hfault, -⟩ := h.exists_error hin
      rw [hx] at hfault
      cases hfault

theorem exists_ok_iff (h : ReadsRange p offset size x y) :
    (∃ a, x = .ok a) ↔ p.contains offset size = true :=
  ⟨fun ⟨_, hx⟩ => h.contains_of_ok hx, fun hin =>
    have ⟨a, hx, _⟩ := h.exists_ok hin
    ⟨a, hx⟩⟩

theorem map (f : α → β) (h : ReadsRange p offset size x y) :
    ReadsRange p offset size (f <$> x) (f <$> y) where
  exists_ok hin := by
    obtain ⟨a, rfl, rfl⟩ := h.exists_ok hin
    exact ⟨f a, rfl, rfl⟩
  exists_error hout := by
    obtain ⟨fault, rfl, hrange⟩ := h.exists_error hout
    exact ⟨fault, rfl, hrange⟩

/-- One read of a part of the range, followed by what reads the rest. -/
theorem read {o w : Nat} {f g : α → Except Fault β} (h : ReadsRange p o w x y)
    (hstop : o + w ≤ offset + size)
    (hrest : ∀ a, p.contains o w = true → ReadsRange p offset size (f a) (g a)) :
    ReadsRange p offset size (x >>= f) (y >>= g) where
  exists_ok hin := by
    have hpart : p.contains o w = true := by
      rw [contains_eq_true_iff] at hin ⊢
      omega
    obtain ⟨a, rfl, rfl⟩ := h.exists_ok hpart
    exact (hrest a hpart).exists_ok hin
  exists_error hout := by
    cases hpart : p.contains o w with
    | true =>
        obtain ⟨a, rfl, rfl⟩ := h.exists_ok hpart
        exact (hrest a hpart).exists_error hout
    | false =>
        obtain ⟨fault, rfl, hrange⟩ := h.exists_error hpart
        exact ⟨fault, rfl, hrange⟩

/-- The range is read once its last part is. -/
theorem done {o w : Nat} (h : p.contains o w = true) (hstop : offset + size = o + w) (a : α) :
    ReadsRange p offset size (pure a) (pure a) where
  exists_ok _ := ⟨a, rfl, rfl⟩
  exists_error hout := by
    rw [← Bool.not_eq_true, contains_eq_true_iff] at hout
    rw [contains_eq_true_iff] at h
    omega

end ReadsRange

theorem Continues.number (h : r.Continues p) (offset width : Nat) :
    ReadsRange p offset width (p.number offset width) (r.number offset width) where
  exists_ok hin := by
    have hfits := (contains_eq_true_iff.1 hin).1
    have hp := slice_eq_ok_iff.2 ⟨hin, rfl⟩
    have hr := slice_eq_ok_iff.2 ⟨h.contains hin, rfl⟩
    rw [← h.extract hfits] at hr
    refine ⟨_, by rw [Reader.number, hp]; rfl, ?_⟩
    rw [Reader.number, hr, h.order]
    rfl
  exists_error hout := by
    cases hslice : p.slice offset width with
    | ok bytes =>
        have := (slice_eq_ok_iff.1 hslice).1
        rw [hout] at this
        cases this
    | error fault =>
        refine ⟨fault, ?_, isRange_of_slice hslice⟩
        rw [Reader.number, hslice]
        rfl

theorem Continues.u8 (h : r.Continues p) (offset : Nat) :
    ReadsRange p offset 1 (p.u8 offset) (r.u8 offset) := (h.number offset 1).map _

theorem Continues.u16 (h : r.Continues p) (offset : Nat) :
    ReadsRange p offset 2 (p.u16 offset) (r.u16 offset) := (h.number offset 2).map _

theorem Continues.u32 (h : r.Continues p) (offset : Nat) :
    ReadsRange p offset 4 (p.u32 offset) (r.u32 offset) := (h.number offset 4).map _

theorem Continues.u64 (h : r.Continues p) (offset : Nat) :
    ReadsRange p offset 8 (p.u64 offset) (r.u64 offset) := (h.number offset 8).map _

theorem Continues.i32 (h : r.Continues p) (offset : Nat) :
    ReadsRange p offset 4 (p.i32 offset) (r.i32 offset) := (h.u32 offset).map _

theorem Continues.i64 (h : r.Continues p) (offset : Nat) :
    ReadsRange p offset 8 (p.i64 offset) (r.i64 offset) := (h.u64 offset).map _

/-- A text that can be read stays the same in a longer image. -/
theorem Continues.text_eq_ok (h : r.Continues p) {start size rel : Nat} {name : String}
    (hp : p.text start size rel = .ok name) : r.text start size rel = .ok name := by
  rw [text_eq_ok_iff] at hp ⊢
  obtain ⟨table, hslice, hname⟩ := hp
  obtain ⟨hin, htable⟩ := slice_eq_ok_iff.1 hslice
  rw [h.extract (contains_eq_true_iff.1 hin).1] at htable
  exact ⟨table, slice_eq_ok_iff.2 ⟨h.contains hin, htable⟩, hname⟩

end Reader

end ElfAtlas
