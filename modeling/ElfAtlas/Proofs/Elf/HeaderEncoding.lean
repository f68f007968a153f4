import ElfAtlas.Proofs.Elf.Encoding
import ElfAtlas.Proofs.Elf.Header

/-!
The file header as it is written: the magic number and the identification, seven bytes that say nothing,
and the fields in the byte order that the identification names. The images that have a header are those
that start with such bytes; the first thing that is wrong with any other image decides how it is refused.
-/

namespace ElfAtlas

def ElfClass.code : ElfClass → UInt8
  | elf32 => 1
  | elf64 => 2

def ByteOrder.code : ByteOrder → UInt8
  | little => 1
  | big => 2

/-- In both byte orders a byte is written as it is. -/
theorem ByteOrder.bytes_byte (o : ByteOrder) (b : UInt8) : o.bytes 1 b.toNat = [b] := by
  cases o <;> simp [bytes, toLittle]

namespace FileHeader

def fields (h : FileHeader) : List (Nat × Nat) :=
  [(2, h.fileTypeCode.toNat), (2, h.machineCode.toNat), (4, h.version.toNat),
    (h.elfClass.wordSize, h.entry.toNat), (h.elfClass.wordSize, h.segmentOffset.toNat),
    (h.elfClass.wordSize, h.sectionOffset.toNat), (4, h.flags.toNat), (2, h.headerSize.toNat),
    (2, h.segmentEntrySize.toNat), (2, h.segmentCount.toNat), (2, h.sectionEntrySize.toNat),
    (2, h.sectionCount.toNat), (2, h.nameTableIndex.toNat)]

structure Fits (h : FileHeader) : Prop where
  entry : h.elfClass.FitsWord h.entry
  segmentOffset : h.elfClass.FitsWord h.segmentOffset
  sectionOffset : h.elfClass.FitsWord h.sectionOffset

def ident (h : FileHeader) : List UInt8 :=
  magic ++ [h.elfClass.code, h.order.code, h.identVersion, h.osAbi, h.abiVersion]

def encode (h : FileHeader) (padding : List UInt8) : List UInt8 :=
  h.ident ++ padding ++ h.order.record h.fields

theorem length_encode (h : FileHeader) {padding : List UInt8} (hpadding : padding.length = 7) :
    (h.encode padding).length = h.elfClass.headerSize := by
  have hident : h.ident.length = 9 := rfl
  rw [encode, List.length_append, List.length_append, hident, hpadding, ByteOrder.length_record, fields]
  simp only [List.foldr_cons, List.foldr_nil]
  cases h.elfClass <;> rfl

theorem readFields_eq_ok_iff {c : ElfClass} {r : Reader} {h : FileHeader} :
    readFields c r = .ok h ↔
      h.elfClass = c ∧ h.order = r.order ∧ h.Fits ∧
        r.Holds 6 [h.identVersion, h.osAbi, h.abiVersion] ∧ r.Holds 16 (h.order.record h.fields) := by
  cases c
  all_goals
    simp only [readFields, bind_eq_ok_iff, Reader.u8_eq_ok_iff, Reader.u16_eq_ok_iff,
      Reader.u32_eq_ok_iff, ElfClass.word_eq_ok_iff, ByteOrder.bytes_byte, ElfClass.bits,
      ElfClass.wordSize, Nat.reduceDiv, Nat.reduceMul, Nat.reduceAdd]
    constructor
    · rintro ⟨identVersion, ⟨-, hident⟩, osAbi, ⟨-, hosAbi⟩, abiVersion, ⟨-, habi⟩, typeCode, ⟨-, htype⟩,
        machineCode, ⟨-, hmachine⟩, version, ⟨-, hversion⟩, entry, ⟨-, fentry, hentry⟩,
        segmentOffset, ⟨-, fsegment, hsegment⟩, sectionOffset, ⟨-, fsection, hsection⟩,
        flags, ⟨-, hflags⟩, headerSize, ⟨-, hsize⟩, segmentEntrySize, ⟨-, hsegmentSize⟩,
        segmentCount, ⟨-, hsegments⟩, sectionEntrySize, ⟨-, hsectionSize⟩, sectionCount,
        ⟨-, hsections⟩, nameTableIndex, ⟨-, hnames⟩, hread⟩
      obtain rfl := Except.ok.inj hread
      have hend := hnames.nil
      rw [ByteOrder.length_bytes] at hend
      refine ⟨rfl, rfl, ⟨fentry, fsegment, fsection⟩, ?_, ?_⟩
      · rw [Reader.holds_cons_cons, Reader.holds_cons_cons]
        exact ⟨hident, hosAbi, habi⟩
      · simp only [fields, Reader.holds_record_cons, ElfClass.wordSize, ElfClass.bits, Nat.reduceDiv,
          Nat.reduceAdd]
        exact ⟨htype, hmachine, hversion, hentry, hsegment, hsection, hflags, hsize, hsegmentSize,
          hsegments, hsectionSize, hsections, hnames, hend⟩
    · rintro ⟨hclass, horder, ⟨fentry, fsegment, fsection⟩, hident, hrecord⟩
      simp only [fields, Reader.holds_record_cons, hclass, horder, ElfClass.wordSize, ElfClass.bits,
        Nat.reduceDiv, Nat.reduceAdd] at hrecord fentry fsegment fsection
      rw [Reader.holds_cons_cons, Reader.holds_cons_cons] at hident
      obtain ⟨hident, hosAbi, habi⟩ := hident
      obtain ⟨htype, hmachine, hversion, hentry, hsegment, hsection, hflags, hsize, hsegmentSize,
        hsegments, hsectionSize, hsections, hnames, -⟩ := hrecord
      refine ⟨_, ⟨by decide, hident⟩, _, ⟨by decide, hosAbi⟩, _, ⟨by decide, habi⟩,
        _, ⟨by decide, htype⟩, _, ⟨by decide, hmachine⟩, _, ⟨by decide, hversion⟩,
        _, ⟨by decide, fentry, hentry⟩, _, ⟨by decide, fsegment, hsegment⟩,
        _, ⟨by decide, fsection, hsection⟩, _, ⟨by decide, hflags⟩, _, ⟨by decide, hsize⟩,
        _, ⟨by decide, hsegmentSize⟩, _, ⟨by decide, hsegments⟩, _, ⟨by decide, hsectionSize⟩,
        _, ⟨by decide, hsections⟩, _, ⟨by decide, hnames⟩, ?_⟩
      refine congrArg Except.ok ?_
      rw [← hclass, ← horder]

variable {image : Array UInt8} {order : ByteOrder} {h : FileHeader} {fault : Fault}

theorem holds_zero_iff {bytes : List UInt8} :
    Reader.Holds ⟨image, order⟩ 0 bytes ↔ bytes <+: image.toList :=
  ⟨fun h => h.2, fun h => ⟨Nat.zero_le _, h⟩⟩

theorem holds_byte_iff {offset : Nat} {b : UInt8} :
    Reader.Holds ⟨image, order⟩ offset [b] ↔ image[offset]? = some b := by
  constructor
  · rintro ⟨-, rest, hrest⟩
    rw [← Array.getElem?_toList, ← List.head?_drop, ← hrest]
    rfl
  · intro hb
    rw [← Array.getElem?_toList, ← List.head?_drop, List.head?_eq_some_iff] at hb
    obtain ⟨rest, hrest⟩ := hb
    refine ⟨?_, rest, hrest.symm⟩
    have hlength := congrArg List.length hrest
    rw [List.length_drop, List.length_cons, Array.length_toList] at hlength
    change offset ≤ image.size
    omega

theorem u8_eq_ok_iff_getElem? {offset : Nat} (hoffset : offset + 1 < UInt64.size) {b : UInt8} :
    Reader.u8 ⟨image, order⟩ offset = .ok b ↔ image[offset]? = some b := by
  rw [Reader.u8_eq_ok_iff, ByteOrder.bytes_byte, holds_byte_iff, and_iff_right hoffset]

def readCode {α : Type} (first second : α) (what : String) (r : Reader) (offset : Nat) :
    Except Fault α := do
  let code ← r.u8 offset
  if code = 1 then return first
  else if code = 2 then return second
  else throw (.unsupportedVariant what code)

theorem readClass_eq_readCode (r : Reader) :
    readClass r = readCode ElfClass.elf32 ElfClass.elf64 "class" r 4 := rfl

theorem readOrder_eq_readCode (r : Reader) :
    readOrder r = readCode ByteOrder.little ByteOrder.big "data encoding" r 5 := rfl

section Code

variable {α : Type} {first second x : α} {what : String} {offset : Nat} {code : UInt8}

theorem readCode_eq_ok_iff (hoffset : offset + 1 < UInt64.size) :
    readCode first second what ⟨image, order⟩ offset = .ok x ↔
      image[offset]? = some 1 ∧ first = x ∨ image[offset]? = some 2 ∧ second = x := by
  simp only [readCode, bind_eq_ok_iff, u8_eq_ok_iff_getElem? hoffset]
  constructor
  · rintro ⟨code, hcode, hx⟩
    split at hx
    · rename_i hone
      exact .inl ⟨hone ▸ hcode, Except.ok.inj hx⟩
    · split at hx
      · rename_i htwo
        exact .inr ⟨htwo ▸ hcode, Except.ok.inj hx⟩
      · cases hx
  · rintro (⟨hcode, rfl⟩ | ⟨hcode, rfl⟩)
    · exact ⟨1, hcode, rfl⟩
    · exact ⟨2, hcode, rfl⟩

theorem readCode_of_unknown (hoffset : offset + 1 < UInt64.size) (hcode : image[offset]? = some code)
    (hone : code ≠ 1) (htwo : code ≠ 2) :
    readCode first second what ⟨image, order⟩ offset = .error (.unsupportedVariant what code) := by
  rw [readCode, (u8_eq_ok_iff_getElem? hoffset).2 hcode]
  change (if code = 1 then _ else if code = 2 then _ else _) = _
  rw [if_neg hone, if_neg htwo]
  rfl

end Code

theorem readClass_eq_ok_iff {c : ElfClass} :
    readClass ⟨image, order⟩ = .ok c ↔ image[4]? = some c.code := by
  rw [readClass_eq_readCode, readCode_eq_ok_iff (by decide)]
  cases c <;> simp [ElfClass.code]

theorem readOrder_eq_ok_iff {o : ByteOrder} :
    readOrder ⟨image, order⟩ = .ok o ↔ image[5]? = some o.code := by
  rw [readOrder_eq_readCode, readCode_eq_ok_iff (by decide)]
  cases o <;> simp [ByteOrder.code]

theorem extract_eq_magic_iff : (image.extract 0 4).toList = magic ↔ magic <+: image.toList := by
  rw [List.prefix_iff_eq_take, Array.toList_extract, List.extract_eq_take_drop, eq_comm]
  rfl

/-- What is wrong with an image that has no header: the first of these that holds. -/
inductive IsRefused (image : Array UInt8) : Fault → Prop
  | magic (hmagic : ¬ magic <+: image.toList) : IsRefused image .notElf
  | ident (hmagic : FileHeader.magic <+: image.toList) (hshort : image.size < identSize) :
      IsRefused image (.truncatedHeader identSize image.size)
  | elfClass {code : UInt8} (hmagic : FileHeader.magic <+: image.toList) (hident : identSize ≤ image.size)
      (hcode : image[4]? = some code) (hunknown : ∀ c : ElfClass, code ≠ c.code) :
      IsRefused image (.unsupportedVariant "class" code)
  | order {c : ElfClass} {code : UInt8} (hmagic : FileHeader.magic <+: image.toList)
      (hident : identSize ≤ image.size) (hclass : image[4]? = some c.code)
      (hcode : image[5]? = some code) (hunknown : ∀ o : ByteOrder, code ≠ o.code) :
      IsRefused image (.unsupportedVariant "data encoding" code)
  | header {c : ElfClass} {o : ByteOrder} (hmagic : FileHeader.magic <+: image.toList)
      (hident : identSize ≤ image.size) (hclass : image[4]? = some c.code)
      (horder : image[5]? = some o.code) (hshort : image.size < c.headerSize) :
      IsRefused image (.truncatedHeader c.headerSize image.size)

theorem parse_of_isRefused (h : IsRefused image fault) : parse image = .error fault := by
  rw [parse_eq]
  dsimp only
  cases h with
  | magic hmagic => rw [if_pos (mt extract_eq_magic_iff.1 hmagic)]
  | ident hmagic hshort =>
      rw [if_neg (not_not_intro (extract_eq_magic_iff.2 hmagic)), if_pos hshort]
  | elfClass hmagic hident hcode hunknown =>
      rw [if_neg (not_not_intro (extract_eq_magic_iff.2 hmagic)), if_neg (Nat.not_lt.2 hident),
        readClass_eq_readCode, readCode_of_unknown (by decide) hcode (hunknown .elf32) (hunknown .elf64)]
      rfl
  | order hmagic hident hclass hcode hunknown =>
      rw [if_neg (not_not_intro (extract_eq_magic_iff.2 hmagic)), if_neg (Nat.not_lt.2 hident),
        readClass_eq_ok_iff.2 hclass, readOrder_eq_readCode,
        readCode_of_unknown (by decide) hcode (hunknown .little) (hunknown .big)]
      rfl
  | header hmagic hident hclass horder hshort =>
      rw [if_neg (not_not_intro (extract_eq_magic_iff.2 hmagic)), if_neg (Nat.not_lt.2 hident),
        readClass_eq_ok_iff.2 hclass, readOrder_eq_ok_iff.2 horder]
      exact if_pos hshort

/-- Where nothing is wrong, every field is in the image. -/
theorem exists_parse_or_isRefused (image : Array UInt8) :
    (∃ h, parse image = .ok h) ∨ ∃ fault, IsRefused image fault := by
  by_cases hmagic : magic <+: image.toList
  · by_cases hident : image.size < identSize
    · exact .inr ⟨_, .ident hmagic hident⟩
    replace hident : 16 ≤ image.size := Nat.le_of_not_lt hident
    have hcode (i : Nat) (hi : i < 16) : image[i]? = some image[i] :=
      Array.getElem?_eq_getElem _
    by_cases hclass : ∃ c : ElfClass, image[4] = c.code
    · obtain ⟨c, hclass⟩ := hclass
      replace hclass := hclass ▸ hcode 4 (by decide)
      by_cases horder : ∃ o : ByteOrder, image[5] = o.code
      · obtain ⟨o, horder⟩ := horder
        replace horder := horder ▸ hcode 5 (by decide)
        by_cases hshort : image.size < c.headerSize
        · exact .inr ⟨_, .header hmagic hident hclass horder hshort⟩
        replace hshort : c.headerSize ≤ image.size := Nat.le_of_not_lt hshort
        obtain ⟨h, hfields, -⟩ :=
          ((Reader.Continues.refl ⟨image, o⟩).headerFields c).exists_ok (contains_header hshort)
        exact .inl ⟨h, parse_eq_ok_iff.2 ⟨extract_eq_magic_iff.2 hmagic, hident, c, o,
          readClass_eq_ok_iff.2 hclass, readOrder_eq_ok_iff.2 horder, hshort, hfields⟩⟩
      · exact .inr ⟨_, .order hmagic hident hclass (hcode 5 (by decide)) fun o ho => horder ⟨o, ho⟩⟩
    · exact .inr ⟨_, .elfClass hmagic hident (hcode 4 (by decide)) fun c hc => hclass ⟨c, hc⟩⟩
  · exact .inr ⟨_, .magic hmagic⟩

theorem parse_eq_error_iff : parse image = .error fault ↔ IsRefused image fault := by
  constructor
  · intro hparse
    obtain ⟨h, hok⟩ | ⟨fault', hrefused⟩ := exists_parse_or_isRefused image
    · rw [hparse] at hok
      cases hok
    · have herror := parse_of_isRefused hrefused
      rw [hparse] at herror
      cases herror
      exact hrefused
  · exact parse_of_isRefused

/-- Where the parts of an encoded header stand. -/
theorem encode_prefix_iff {padding : List UInt8} (hpadding : padding.length = 7) :
    h.encode padding <+: image.toList ↔
      magic <+: image.toList ∧ image[4]? = some h.elfClass.code ∧ image[5]? = some h.order.code ∧
        Reader.Holds ⟨image, h.order⟩ 6 [h.identVersion, h.osAbi, h.abiVersion] ∧
        Reader.Holds ⟨image, h.order⟩ 9 padding ∧
        Reader.Holds ⟨image, h.order⟩ 16 (h.order.record h.fields) := by
  have hident : h.ident.length = 9 := rfl
  have hmagic : magic.length = 4 := rfl
  rw [← @holds_zero_iff image h.order, ← @holds_zero_iff image h.order, encode,
    Reader.holds_append, Reader.holds_append, List.length_append, hident, hpadding, ident,
    Reader.holds_append, hmagic, Reader.holds_cons_cons, Reader.holds_cons_cons, holds_byte_iff,
    holds_byte_iff]
  simp only [Nat.zero_add, Nat.reduceAdd, and_assoc]

/-- An image has the header that its first bytes encode. -/
theorem parse_eq_ok_iff_encode :
    parse image = .ok h ↔
      h.Fits ∧ ∃ padding, padding.length = 7 ∧ h.encode padding <+: image.toList := by
  rw [parse_eq_ok_iff]
  simp only [extract_eq_magic_iff, readClass_eq_ok_iff, readOrder_eq_ok_iff, readFields_eq_ok_iff]
  constructor
  · rintro ⟨hmagic, hident, c, o, hclass, horder, hsize, rfl, rfl, hfits, hrest, hfields⟩
    replace hident : 16 ≤ image.size := hident
    have hpadding : ((image.toList.drop 9).take 7).length = 7 := by
      rw [List.length_take, List.length_drop, Array.length_toList]
      omega
    have hholds : Reader.Holds ⟨image, h.order⟩ 9 ((image.toList.drop 9).take 7) :=
      ⟨Nat.le_trans (by decide) hident, List.take_prefix ..⟩
    exact ⟨hfits, _, hpadding,
      (encode_prefix_iff hpadding).2 ⟨hmagic, hclass, horder, hrest, hholds, hfields⟩⟩
  · rintro ⟨hfits, padding, hpadding, hencode⟩
    have hsize := hencode.length_le
    rw [length_encode h hpadding, Array.length_toList] at hsize
    obtain ⟨hmagic, hclass, horder, hrest, -, hfields⟩ := (encode_prefix_iff hpadding).1 hencode
    exact ⟨hmagic, Nat.le_trans (identSize_le_headerSize _) hsize, h.elfClass, h.order, hclass, horder,
      hsize, rfl, rfl, hfits, hrest, hfields⟩

/-- An image has a header exactly if it starts with the bytes of that header, whatever the padding; if it
has none, the first thing that is wrong is reported. Bytes behind the header do not matter. -/
theorem parse_iff_encode (image : Array UInt8) :
    (∀ h, parse image = .ok h ↔
      h.Fits ∧ ∃ padding, padding.length = 7 ∧ h.encode padding <+: image.toList) ∧
      (∀ fault, parse image = .error fault ↔ IsRefused image fault) ∧
      ∀ h rest, parse image = .ok h → parse (image ++ rest) = .ok h := by
  refine ⟨fun h => parse_eq_ok_iff_encode, fun fault => parse_eq_error_iff, fun h rest hparse => ?_⟩
  obtain ⟨hfits, padding, hpadding, hencode⟩ := parse_eq_ok_iff_encode.1 hparse
  refine parse_eq_ok_iff_encode.2 ⟨hfits, padding, hpadding, ?_⟩
  rw [Array.toList_append]
  exact hencode.trans (List.prefix_append ..)

def imageWith (h : FileHeader) (rest : List UInt8) : Array UInt8 :=
  (h.encode (List.replicate 7 0) ++ rest).toArray

theorem parse_imageWith {h : FileHeader} (hfits : h.Fits) (rest : List UInt8) :
    parse (h.imageWith rest) = .ok h :=
  parse_eq_ok_iff_encode.2 ⟨hfits, _, List.length_replicate, List.prefix_append ..⟩

/-- A header of the 32-bit class in the byte order of its machine, with padding that is not zero, by itself
and with a byte behind it. -/
theorem parse_encode_padded :
    let header : FileHeader :=
      { elfClass := .elf32, order := .big, identVersion := 1, osAbi := 3, abiVersion := 0,
        fileTypeCode := 2, machineCode := 40, version := 1, entry := 0x8000, segmentOffset := 52,
        sectionOffset := 0, flags := 0x5000400, headerSize := 52, segmentEntrySize := 32,
        segmentCount := 1, sectionEntrySize := 40, sectionCount := 0, nameTableIndex := 0 }
    let image := (header.encode [1, 2, 3, 4, 5, 6, 7]).toArray
    let cut := image.extract 0 51
    image.size = 52 ∧ parse image = .ok header ∧ parse (image ++ #[0xff]) = .ok header ∧
      parse cut = .error (.truncatedHeader 52 cut.size) := by
  intro header image cut
  have hparse : parse image = .ok header :=
    ((parse_iff_encode image).1 header).2
      ⟨⟨by decide, by decide, by decide⟩, [1, 2, 3, 4, 5, 6, 7], rfl, List.prefix_refl _⟩
  have hshort : IsRefused cut (.truncatedHeader 52 cut.size) :=
    @IsRefused.header cut .elf32 .big (by decide) (by decide) (by decide) (by decide) (by decide)
  exact ⟨by decide, hparse, (parse_iff_encode image).2.2 header #[0xff] hparse,
    ((parse_iff_encode _).2.1 _).2 hshort⟩

end FileHeader

end ElfAtlas
