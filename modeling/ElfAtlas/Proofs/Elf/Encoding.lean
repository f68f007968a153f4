import ElfAtlas.Elf.Relocation
import ElfAtlas.Elf.Segment
import ElfAtlas.Proofs.Elf.Fields

/-!
The records of ELF tables as they are written, in either class: which fields there are, in which order
and how wide. Decoding what an image holds gives the record back.
-/

namespace ElfAtlas

def ElfClass.wordSize (c : ElfClass) : Nat := c.bits / 8

def ElfClass.FitsWord (c : ElfClass) (n : UInt64) : Prop := n.toNat < 1 <<< c.bits

instance (c : ElfClass) (n : UInt64) : Decidable (c.FitsWord n) := inferInstanceAs (Decidable (_ < _))

/-- In the 32-bit class, what fits a word survives being written in 32 bits. -/
theorem toUInt64_toUInt32 {n : UInt64} (hn : ElfClass.elf32.FitsWord n) : n.toUInt32.toUInt64 = n := by
  have hn : n.toNat < UInt32.size := hn
  apply UInt64.toNat_inj.1
  rw [UInt32.toNat_toUInt64, UInt64.toNat_toUInt32]
  exact Nat.mod_eq_of_lt hn

theorem Reader.u32_of_holds_word {r : Reader} (hr : r.length < UInt64.size) {n : UInt64}
    (hn : ElfClass.elf32.FitsWord n) {offset : Nat} (h : r.Holds offset (r.order.bytes 4 n.toNat)) :
    r.u32 offset = .ok n.toUInt32 := by
  apply u32_of_holds hr
  rwa [← UInt32.toNat_toUInt64, toUInt64_toUInt32 hn]

/-- A word is read where it is held in the width of the class. -/
theorem ElfClass.word_eq_ok_iff {c : ElfClass} {r : Reader} {offset : Nat} {n : UInt64} :
    c.word r offset = .ok n ↔
      offset + c.wordSize < UInt64.size ∧ c.FitsWord n ∧
        r.Holds offset (r.order.bytes c.wordSize n.toNat) := by
  cases c with
  | elf32 =>
      rw [word, map_eq_ok_iff]
      simp only [Reader.u32_eq_ok_iff]
      constructor
      · rintro ⟨m, ⟨hoffset, h⟩, rfl⟩
        rw [FitsWord, UInt32.toNat_toUInt64]
        exact ⟨hoffset, m.toNat_lt, h⟩
      · rintro ⟨hoffset, hn, h⟩
        refine ⟨n.toUInt32, ⟨hoffset, ?_⟩, toUInt64_toUInt32 hn⟩
        rwa [← UInt32.toNat_toUInt64, toUInt64_toUInt32 hn]
  | elf64 =>
      rw [word, Reader.u64_eq_ok_iff]
      exact ⟨fun h => ⟨h.1, n.toNat_lt, h.2⟩, fun h => ⟨h.1, h.2.2⟩⟩

/-- A program header before its type and flags are interpreted. -/
structure SegmentRecord where
  typeCode : UInt32
  flags : UInt32
  offset : UInt64
  vaddr : UInt64
  paddr : UInt64
  fileSize : UInt64
  memSize : UInt64
  align : UInt64
  deriving DecidableEq, Repr

namespace SegmentRecord

def fields (c : ElfClass) (s : SegmentRecord) : List (Nat × Nat) :=
  match c with
  | .elf32 =>
    [(4, s.typeCode.toNat), (4, s.offset.toNat), (4, s.vaddr.toNat), (4, s.paddr.toNat),
      (4, s.fileSize.toNat), (4, s.memSize.toNat), (4, s.flags.toNat), (4, s.align.toNat)]
  | .elf64 =>
    [(4, s.typeCode.toNat), (4, s.flags.toNat), (8, s.offset.toNat), (8, s.vaddr.toNat),
      (8, s.paddr.toNat), (8, s.fileSize.toNat), (8, s.memSize.toNat), (8, s.align.toNat)]

def Fits (c : ElfClass) (s : SegmentRecord) : Prop :=
  ∀ n ∈ [s.offset, s.vaddr, s.paddr, s.fileSize, s.memSize, s.align], c.FitsWord n

instance (c : ElfClass) (s : SegmentRecord) : Decidable (s.Fits c) :=
  List.decidableBAll c.FitsWord _

def toSegment (index : Nat) (s : SegmentRecord) : Segment :=
  { index, kind := .ofCode s.typeCode, flags := ⟨s.flags⟩, offset := s.offset, vaddr := s.vaddr,
    paddr := s.paddr, fileSize := s.fileSize, memSize := s.memSize, align := s.align }

theorem length_encode (o : ByteOrder) (c : ElfClass) (s : SegmentRecord) :
    (o.record (s.fields c)).length = c.segmentSize := by
  rw [ByteOrder.length_record]
  cases c <;> rfl

theorem decode_of_holds {r : Reader} (hr : r.length < UInt64.size) {c : ElfClass} {s : SegmentRecord}
    (hs : s.Fits c) {offset : Nat} (index : Nat) (h : r.Holds offset (r.order.record (s.fields c))) :
    Segment.decode c r offset index = .ok (s.toSegment index) := by
  cases c with
  | elf32 =>
      simp only [Fits, List.forall_mem_cons] at hs
      obtain ⟨foffset, fvaddr, fpaddr, ffile, fmem, falign, -⟩ := hs
      simp only [fields, Reader.holds_record_cons, Nat.add_assoc, Nat.reduceAdd] at h
      obtain ⟨htype, hoffset, hvaddr, hpaddr, hfile, hmem, hflags, halign, -⟩ := h
      simp only [Segment.decode, Segment.decodeWith, monadLift_self,
        Reader.u32_of_holds hr htype, Reader.u32_of_holds hr hflags,
        Reader.u32_of_holds_word hr foffset hoffset, Reader.u32_of_holds_word hr fvaddr hvaddr,
        Reader.u32_of_holds_word hr fpaddr hpaddr, Reader.u32_of_holds_word hr ffile hfile,
        Reader.u32_of_holds_word hr fmem hmem, Reader.u32_of_holds_word hr falign halign,
        bind, Except.bind, pure, Except.pure]
      simp (disch := assumption) only [toUInt64_toUInt32]
      rfl
  | elf64 =>
      simp only [fields, Reader.holds_record_cons, Nat.add_assoc, Nat.reduceAdd] at h
      obtain ⟨htype, hflags, hoffset, hvaddr, hpaddr, hfile, hmem, halign, -⟩ := h
      simp only [Segment.decode, Segment.decodeWith, monadLift_self, pure_bind,
        Reader.u32_of_holds hr htype, Reader.u32_of_holds hr hflags,
        Reader.u64_of_holds hr hoffset, Reader.u64_of_holds hr hvaddr,
        Reader.u64_of_holds hr hpaddr, Reader.u64_of_holds hr hfile, Reader.u64_of_holds hr hmem,
        Reader.u64_of_holds hr halign]
      rfl

end SegmentRecord

namespace SectionRecord

def fields (c : ElfClass) (s : SectionRecord) : List (Nat × Nat) :=
  [(4, s.nameOffset.toNat), (4, s.typeCode.toNat), (c.wordSize, s.flags.toNat),
    (c.wordSize, s.addr.toNat), (c.wordSize, s.offset.toNat), (c.wordSize, s.size.toNat),
    (4, s.link.toNat), (4, s.info.toNat), (c.wordSize, s.addrAlign.toNat),
    (c.wordSize, s.entrySize.toNat)]

def Fits (c : ElfClass) (s : SectionRecord) : Prop :=
  ∀ n ∈ [s.flags, s.addr, s.offset, s.size, s.addrAlign, s.entrySize], c.FitsWord n

instance (c : ElfClass) (s : SectionRecord) : Decidable (s.Fits c) :=
  List.decidableBAll c.FitsWord _

theorem length_encode (o : ByteOrder) (c : ElfClass) (s : SectionRecord) :
    (o.record (s.fields c)).length = c.sectionSize := by
  rw [ByteOrder.length_record]
  cases c <;> rfl

theorem decode_of_holds {r : Reader} (hr : r.length < UInt64.size) {c : ElfClass} {s : SectionRecord}
    (hs : s.Fits c) {offset : Nat} (h : r.Holds offset (r.order.record (s.fields c))) :
    SectionRecord.decode c r offset = .ok s := by
  simp only [Fits, List.forall_mem_cons] at hs
  obtain ⟨fflags, faddr, foffset, fsize, falign, fentry, -⟩ := hs
  cases c with
  | elf32 =>
      simp only [fields, ElfClass.wordSize, ElfClass.bits, Nat.reduceDiv, Reader.holds_record_cons,
        Nat.add_assoc, Nat.reduceAdd] at h
      obtain ⟨hname, htype, hflags, haddr, hoffset, hsize, hlink, hinfo, halign, hentry, -⟩ := h
      simp only [decode, decodeWith, monadLift_self,
        Reader.u32_of_holds hr hname, Reader.u32_of_holds hr htype,
        Reader.u32_of_holds_word hr fflags hflags, Reader.u32_of_holds_word hr faddr haddr,
        Reader.u32_of_holds_word hr foffset hoffset, Reader.u32_of_holds_word hr fsize hsize,
        Reader.u32_of_holds hr hlink, Reader.u32_of_holds hr hinfo,
        Reader.u32_of_holds_word hr falign halign, Reader.u32_of_holds_word hr fentry hentry,
        bind, Except.bind, pure, Except.pure]
      simp (disch := assumption) only [toUInt64_toUInt32]
  | elf64 =>
      simp only [fields, ElfClass.wordSize, ElfClass.bits, Nat.reduceDiv, Reader.holds_record_cons,
        Nat.add_assoc, Nat.reduceAdd] at h
      obtain ⟨hname, htype, hflags, haddr, hoffset, hsize, hlink, hinfo, halign, hentry, -⟩ := h
      simp only [decode, decodeWith, monadLift_self, pure_bind,
        Reader.u32_of_holds hr hname, Reader.u32_of_holds hr htype,
        Reader.u64_of_holds hr hflags, Reader.u64_of_holds hr haddr, Reader.u64_of_holds hr hoffset,
        Reader.u64_of_holds hr hsize, Reader.u32_of_holds hr hlink, Reader.u32_of_holds hr hinfo,
        Reader.u64_of_holds hr halign, Reader.u64_of_holds hr hentry]
      rfl

end SectionRecord

namespace SymbolRecord

def fields (c : ElfClass) (s : SymbolRecord) : List (Nat × Nat) :=
  match c with
  | .elf32 =>
    [(4, s.nameOffset.toNat), (4, s.value.toNat), (4, s.size.toNat), (1, s.info.toNat),
      (1, s.other.toNat), (2, s.sectionIndex.toNat)]
  | .elf64 =>
    [(4, s.nameOffset.toNat), (1, s.info.toNat), (1, s.other.toNat), (2, s.sectionIndex.toNat),
      (8, s.value.toNat), (8, s.size.toNat)]

def Fits (c : ElfClass) (s : SymbolRecord) : Prop := ∀ n ∈ [s.value, s.size], c.FitsWord n

instance (c : ElfClass) (s : SymbolRecord) : Decidable (s.Fits c) :=
  List.decidableBAll c.FitsWord _

theorem length_encode (o : ByteOrder) (c : ElfClass) (s : SymbolRecord) :
    (o.record (s.fields c)).length = c.symbolSize := by
  rw [ByteOrder.length_record]
  cases c <;> rfl

theorem decode_of_holds {r : Reader} (hr : r.length < UInt64.size) {c : ElfClass} {s : SymbolRecord}
    (hs : s.Fits c) {offset : Nat} (h : r.Holds offset (r.order.record (s.fields c))) :
    SymbolRecord.decode c r offset = .ok s := by
  simp only [Fits, List.forall_mem_cons] at hs
  obtain ⟨fvalue, fsize, -⟩ := hs
  cases c with
  | elf32 =>
      simp only [fields, Reader.holds_record_cons, Nat.add_assoc, Nat.reduceAdd] at h
      obtain ⟨hname, hvalue, hsize, hinfo, hother, hindex, -⟩ := h
      simp only [decode, decodeWith, monadLift_self,
        Reader.u32_of_holds hr hname, Reader.u32_of_holds_word hr fvalue hvalue,
        Reader.u32_of_holds_word hr fsize hsize, Reader.u8_of_holds hr hinfo,
        Reader.u8_of_holds hr hother, Reader.u16_of_holds hr hindex, bind, Except.bind, pure,
        Except.pure]
      simp (disch := assumption) only [toUInt64_toUInt32]
  | elf64 =>
      simp only [fields, Reader.holds_record_cons, Nat.add_assoc, Nat.reduceAdd] at h
      obtain ⟨hname, hinfo, hother, hindex, hvalue, hsize, -⟩ := h
      simp only [decode, decodeWith, monadLift_self, pure_bind,
        Reader.u32_of_holds hr hname, Reader.u8_of_holds hr hinfo,
        Reader.u8_of_holds hr hother, Reader.u16_of_holds hr hindex, Reader.u64_of_holds hr hvalue,
        Reader.u64_of_holds hr hsize]
      rfl

end SymbolRecord

/-- An entry of a relocation table before its type and symbol share a word. Tables without addends leave
the addend out. -/
structure RelocationEntry where
  offset : UInt64
  symbol : UInt32
  typeCode : UInt32
  addend : Int64
  deriving DecidableEq, Repr

namespace RelocationEntry

def typeBits : ElfClass → Nat
  | .elf32 => 8
  | .elf64 => 32

def info (c : ElfClass) (e : RelocationEntry) : UInt64 :=
  UInt64.ofNat (e.symbol.toNat * 1 <<< typeBits c + e.typeCode.toNat)

def fields (c : ElfClass) (withAddend : Bool) (e : RelocationEntry) : List (Nat × Nat) :=
  [(c.wordSize, e.offset.toNat), (c.wordSize, (e.info c).toNat)] ++
    if withAddend then [(c.wordSize, (BitVec.ofInt c.bits e.addend.toInt).toNat)] else []

structure Fits (c : ElfClass) (withAddend : Bool) (e : RelocationEntry) : Prop where
  offset : c.FitsWord e.offset
  typeCode : e.typeCode.toNat < 1 <<< typeBits c
  symbol : e.symbol.toNat < 1 <<< (c.bits - typeBits c)
  addend : withAddend = true →
    -(1 <<< (c.bits - 1) : Nat) ≤ e.addend.toInt ∧ e.addend.toInt < (1 <<< (c.bits - 1) : Nat)

theorem length_encode (o : ByteOrder) (c : ElfClass) (withAddend : Bool) (e : RelocationEntry) :
    (o.record (e.fields c withAddend)).length = c.relocationSize withAddend := by
  rw [ByteOrder.length_record]
  cases c <;> cases withAddend <;> rfl

variable {c : ElfClass} {withAddend : Bool} {e : RelocationEntry}

/-- The type stays below the symbol, and both together fill no more than a word. -/
theorem toNat_info (he : e.Fits c withAddend) :
    (e.info c).toNat = e.symbol.toNat * 1 <<< typeBits c + e.typeCode.toNat ∧
      c.FitsWord (e.info c) := by
  obtain ⟨-, htype, hsymbol, -⟩ := he
  have hsum : e.symbol.toNat * 1 <<< typeBits c + e.typeCode.toNat < 1 <<< c.bits := by
    cases c <;> simp only [typeBits, ElfClass.bits, Nat.reduceSub, Nat.reduceShiftLeft] at * <;> omega
  have hword : 1 <<< c.bits ≤ UInt64.size := by cases c <;> decide
  have htoNat : (e.info c).toNat = e.symbol.toNat * 1 <<< typeBits c + e.typeCode.toNat :=
    UInt64.toNat_ofNat_of_lt' (Nat.lt_of_lt_of_le hsum hword)
  refine ⟨htoNat, ?_⟩
  rwa [ElfClass.FitsWord, htoNat]

/-- Splitting the info word gives back what was packed into it. -/
theorem ofInfo_info (he : e.Fits c withAddend) :
    Relocation.ofInfo c (e.info c) = (e.symbol, e.typeCode) := by
  obtain ⟨hinfo, -⟩ := toNat_info he
  obtain ⟨-, htype, hsymbol, -⟩ := he
  cases c with
  | elf32 =>
      simp only [typeBits, ElfClass.bits, Nat.reduceSub, Nat.reduceShiftLeft] at hinfo htype hsymbol
      have hhigh : (e.info .elf32 >>> 8).toUInt32 = e.symbol := by
        have hshift : (e.info .elf32 >>> 8).toNat = (e.info .elf32).toNat / 256 :=
          Nat.shiftRight_eq_div_pow _ 8
        apply UInt32.toNat_inj.1
        rw [UInt64.toNat_toUInt32, hshift, hinfo]
        omega
      have hlow : (e.info .elf32 &&& 0xff).toUInt32 = e.typeCode := by
        have hand : (e.info .elf32 &&& 0xff).toNat = (e.info .elf32).toNat % 256 :=
          Nat.and_two_pow_sub_one_eq_mod _ 8
        apply UInt32.toNat_inj.1
        rw [UInt64.toNat_toUInt32, hand, hinfo]
        omega
      rw [Relocation.ofInfo, hhigh, hlow]
  | elf64 =>
      simp only [typeBits, ElfClass.bits, Nat.reduceSub, Nat.reduceShiftLeft] at hinfo htype hsymbol
      have hhigh : (e.info .elf64 >>> 32).toUInt32 = e.symbol := by
        have hshift : (e.info .elf64 >>> 32).toNat = (e.info .elf64).toNat / 4294967296 :=
          Nat.shiftRight_eq_div_pow _ 32
        apply UInt32.toNat_inj.1
        rw [UInt64.toNat_toUInt32, hshift, hinfo]
        omega
      have hlow : (e.info .elf64).toUInt32 = e.typeCode := by
        apply UInt32.toNat_inj.1
        rw [UInt64.toNat_toUInt32, hinfo]
        omega
      rw [Relocation.ofInfo, hhigh, hlow]

theorem i32_of_holds {r : Reader} (hr : r.length < UInt64.size) {n : Int64}
    (hn : -(1 <<< 31 : Nat) ≤ n.toInt ∧ n.toInt < (1 <<< 31 : Nat)) {offset : Nat}
    (h : r.Holds offset (r.order.bytes 4 (BitVec.ofInt 32 n.toInt).toNat)) :
    ∃ m, r.i32 offset = .ok m ∧ m.toInt64 = n := by
  have hvalue : (BitVec.ofInt 32 n.toInt).toNat < 1 <<< (8 * 4) := BitVec.isLt _
  refine ⟨(UInt32.ofNat (BitVec.ofInt 32 n.toInt).toNat).toInt32, ?_, ?_⟩
  · rw [Reader.i32, Reader.u32, Reader.number_of_holds hr hvalue h]
    rfl
  · have hbits : (UInt32.ofNat (BitVec.ofInt 32 n.toInt).toNat).toInt32.toBitVec =
        BitVec.ofInt 32 n.toInt := by
      rw [UInt32.toBitVec_toInt32, UInt32.toBitVec_ofNat', BitVec.ofNat_toNat, BitVec.setWidth_eq]
    apply Int64.toInt_inj.1
    rw [Int32.toInt_toInt64, ← Int32.toInt_toBitVec, hbits, BitVec.toInt_ofInt]
    exact Int.bmod_eq_of_le (by simpa using hn.1) (by simpa using hn.2)

theorem i64_of_holds {r : Reader} (hr : r.length < UInt64.size) {n : Int64} {offset : Nat}
    (h : r.Holds offset (r.order.bytes 8 (BitVec.ofInt 64 n.toInt).toNat)) :
    r.i64 offset = .ok n := by
  have hn : (BitVec.ofInt 64 n.toInt).toNat = n.toUInt64.toNat := by
    rw [← Int64.toInt_toBitVec, BitVec.ofInt_toInt]
    rfl
  rw [hn] at h
  rw [Reader.i64, Reader.u64_of_holds hr h]
  exact congrArg Except.ok (Int64.toInt64_toUInt64 n)

theorem decode_of_holds {r : Reader} (hr : r.length < UInt64.size) (he : e.Fits c withAddend)
    {offset : Nat} (h : r.Holds offset (r.order.record (e.fields c withAddend))) :
    RelocationRecord.decode c withAddend r offset =
      .ok ⟨e.offset, e.info c, if withAddend then some e.addend else none⟩ := by
  obtain ⟨-, finfo⟩ := toNat_info he
  obtain ⟨foffset, -, -, faddend⟩ := he
  simp only [fields, ElfClass.wordSize] at h
  cases c with
  | elf32 =>
      simp only [ElfClass.bits, Nat.reduceDiv, List.cons_append, Reader.holds_record_cons] at h
      obtain ⟨hoffset, hinfo, haddend⟩ := h
      simp only [RelocationRecord.decode, RelocationRecord.decodeWith, monadLift_self,
        Reader.u32_of_holds_word hr foffset hoffset,
        Reader.u32_of_holds_word hr finfo hinfo, bind, Except.bind, pure, Except.pure]
      simp (disch := assumption) only [toUInt64_toUInt32]
      cases withAddend with
      | false => rfl
      | true =>
          obtain ⟨n, hn, heq⟩ := i32_of_holds hr (faddend rfl) (Reader.holds_record_cons.1 haddend).1
          rw [Nat.add_assoc] at hn
          simp only [hn, ← heq, if_true]
  | elf64 =>
      simp only [ElfClass.bits, Nat.reduceDiv, List.cons_append, Reader.holds_record_cons] at h
      obtain ⟨hoffset, hinfo, haddend⟩ := h
      simp only [RelocationRecord.decode, RelocationRecord.decodeWith, monadLift_self,
        Reader.u64_of_holds hr hoffset,
        Reader.u64_of_holds hr hinfo, bind, Except.bind, pure, Except.pure]
      cases withAddend with
      | false => rfl
      | true =>
          have hn := i64_of_holds hr (Reader.holds_record_cons.1 haddend).1
          rw [Nat.add_assoc] at hn
          simp only [hn, if_true]

end RelocationEntry

end ElfAtlas
