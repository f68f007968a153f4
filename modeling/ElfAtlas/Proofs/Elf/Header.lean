import ElfAtlas.Proofs.Elf.Records

/-!
When an image has a header. What can be wrong with it is the magic number, the length, the class and the
byte order; bytes behind the header do not matter to it.
-/

namespace ElfAtlas

def Fault.IsOfHeader : Fault → Prop
  | notElf | truncatedHeader .. | unsupportedVariant .. => True
  | _ => False

theorem Fault.IsOfHeader.isFatal_eq_true {fault : Fault} (h : fault.IsOfHeader) :
    fault.isFatal = true := by
  cases fault with
  | notElf | truncatedHeader | unsupportedVariant => rfl
  | _ => exact h.elim

namespace FileHeader

variable {image cut : Array UInt8} {order : ByteOrder} {h : FileHeader} {fault : Fault}

theorem identSize_le_headerSize (c : ElfClass) : identSize ≤ c.headerSize := by
  cases c <;> decide

theorem contains_ident (hsize : identSize ≤ image.size) {offset : Nat} (hoffset : offset < identSize) :
    Reader.contains ⟨image, order⟩ offset 1 = true :=
  Reader.contains_eq_true_iff.2
    ⟨Nat.le_trans hoffset hsize, Nat.lt_of_le_of_lt hoffset (by decide)⟩

theorem contains_header {c : ElfClass} (hsize : c.headerSize ≤ image.size) :
    Reader.contains ⟨image, order⟩ 0 c.headerSize = true := by
  rw [Reader.contains_eq_true_iff, Nat.zero_add]
  exact ⟨hsize, by cases c <;> decide⟩

theorem isOfHeader_of_readClass (hsize : identSize ≤ image.size)
    (hread : readClass ⟨image, order⟩ = .error fault) : fault.IsOfHeader := by
  obtain ⟨code, hcode, -⟩ :=
    ((Reader.Continues.refl ⟨image, order⟩).u8 4).exists_ok (contains_ident hsize (by decide))
  rw [readClass, hcode] at hread
  simp only [bind, Except.bind] at hread
  split at hread
  · cases hread
  · split at hread <;> cases hread
    trivial

theorem isOfHeader_of_readOrder (hsize : identSize ≤ image.size)
    (hread : readOrder ⟨image, order⟩ = .error fault) : fault.IsOfHeader := by
  obtain ⟨code, hcode, -⟩ :=
    ((Reader.Continues.refl ⟨image, order⟩).u8 5).exists_ok (contains_ident hsize (by decide))
  rw [readOrder, hcode] at hread
  simp only [bind, Except.bind] at hread
  split at hread
  · cases hread
  · split at hread <;> cases hread
    trivial

theorem elfClass_of_readFields {r : Reader} {c : ElfClass} (hfields : readFields c r = .ok h) :
    h.elfClass = c := by
  rw [readFields] at hfields
  repeat
    obtain ⟨_, -, hfields⟩ := bind_eq_ok_iff.1 hfields
  cases hfields
  rfl

/-- The checks of a header in their order. -/
theorem parse_eq (image : Array UInt8) :
    parse image =
      let ident : Reader := ⟨image, .little⟩
      if (image.extract 0 4).toList ≠ magic then .error .notElf
      else if image.size < identSize then .error (.truncatedHeader identSize image.size)
      else
        readClass ident >>= fun c => readOrder ident >>= fun order =>
          if image.size < c.headerSize then .error (.truncatedHeader c.headerSize image.size)
          else readFields c (ident.withOrder order) := by
  rw [parse]
  dsimp only
  split
  · rfl
  split
  · rfl
  refine bind_congr fun c => bind_congr fun order => ?_
  split <;> rfl

theorem parse_eq_ok_iff :
    parse image = .ok h ↔
      (image.extract 0 4).toList = magic ∧ identSize ≤ image.size ∧
        ∃ c order, readClass ⟨image, .little⟩ = .ok c ∧ readOrder ⟨image, .little⟩ = .ok order ∧
          c.headerSize ≤ image.size ∧ readFields c ⟨image, order⟩ = .ok h := by
  rw [parse_eq]
  dsimp only
  constructor
  · intro hparse
    split at hparse
    · cases hparse
    rename_i hmagic
    split at hparse
    · cases hparse
    rename_i hsize
    simp only [bind_eq_ok_iff] at hparse
    obtain ⟨c, hclass, order, horder, hparse⟩ := hparse
    split at hparse
    · cases hparse
    rename_i hfits
    exact ⟨Decidable.not_not.1 hmagic, Nat.le_of_not_lt hsize, c, order, hclass, horder,
      Nat.le_of_not_lt hfits, hparse⟩
  · rintro ⟨hmagic, hsize, c, order, hclass, horder, hfits, hfields⟩
    rw [if_neg (Decidable.not_not.2 hmagic), if_neg (Nat.not_lt.2 hsize)]
    simp only [bind_eq_ok_iff]
    exact ⟨c, hclass, order, horder, by rwa [if_neg (Nat.not_lt.2 hfits)]⟩

/-- Where the checks of the length pass, every field can be read. -/
theorem isOfHeader_of_parse (hparse : parse image = .error fault) : fault.IsOfHeader := by
  rw [parse_eq] at hparse
  dsimp only at hparse
  split at hparse
  · cases hparse
    trivial
  split at hparse
  · cases hparse
    trivial
  rename_i hsize
  replace hsize : identSize ≤ image.size := Nat.le_of_not_lt hsize
  rw [bind_eq_error_iff] at hparse
  obtain hclass | ⟨c, -, hparse⟩ := hparse
  · exact isOfHeader_of_readClass hsize hclass
  rw [bind_eq_error_iff] at hparse
  obtain horder | ⟨order, -, hparse⟩ := hparse
  · exact isOfHeader_of_readOrder hsize horder
  split at hparse
  · cases hparse
    trivial
  rename_i hfits
  replace hfits : c.headerSize ≤ image.size := Nat.le_of_not_lt hfits
  obtain ⟨h, hfields, -⟩ :=
    ((Reader.Continues.refl ⟨image, order⟩).headerFields c).exists_ok (contains_header hfits)
  rw [Reader.withOrder, hfields] at hparse
  cases hparse

/-- A cut behind the header leaves the header as it is. -/
theorem parse_eq_ok_of_prefix (hparse : parse image = .ok h) (hcut : cut.toList <+: image.toList)
    (hsize : h.elfClass.headerSize ≤ cut.size) : parse cut = .ok h := by
  obtain ⟨hmagic, -, c, order, hclass, horder, -, hfields⟩ := parse_eq_ok_iff.1 hparse
  obtain rfl := elfClass_of_readFields hfields
  have hident : identSize ≤ cut.size := Nat.le_trans (identSize_le_headerSize _) hsize
  have hcontinues (order : ByteOrder) : Reader.Continues ⟨image, order⟩ ⟨cut, order⟩ := ⟨rfl, hcut⟩
  refine parse_eq_ok_iff.2 ⟨?_, hident, h.elfClass, order, ?_, ?_, hsize, ?_⟩
  · rw [← hmagic]
    exact (hcontinues order).extract (Nat.le_trans (by decide) hident)
  · rw [← hclass, readClass, readClass,
      ((hcontinues .little).u8 4).eq (contains_ident hident (by decide))]
  · rw [← horder, readOrder, readOrder,
      ((hcontinues .little).u8 5).eq (contains_ident hident (by decide))]
  · rw [← hfields]
    exact ((hcontinues order).headerFields h.elfClass).eq (contains_header hsize)

end FileHeader

end ElfAtlas
