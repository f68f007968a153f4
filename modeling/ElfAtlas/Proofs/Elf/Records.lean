import ElfAtlas.Elf.Dynamic
import ElfAtlas.Elf.Relocation
import ElfAtlas.Elf.Segment
import ElfAtlas.Proofs.Prefix

/-!
Each record is read field by field from its own bytes. So a record that lies in the image is decoded,
with the same result in every image that continues this one, and any other record ends in a fault of its
range.
-/

namespace ElfAtlas.Reader.Continues

variable {r p : Reader}

theorem sectionRecord (h : r.Continues p) (c : ElfClass) (offset : Nat) :
    ReadsRange p offset c.sectionSize (SectionRecord.decode c p offset)
      (SectionRecord.decode c r offset) := by
  cases c <;> simp only [SectionRecord.decode, SectionRecord.decodeWith, monadLift_self, pure_bind,
    ElfClass.sectionSize]
  all_goals
    repeat
      refine .read (by apply_rules [h.u32, h.u64]) (by omega) fun _ _ => ?_
    exact .done ‹_› (by omega) _

theorem segment (h : r.Continues p) (c : ElfClass) (offset index : Nat) :
    ReadsRange p offset c.segmentSize (Segment.decode c p offset index)
      (Segment.decode c r offset index) := by
  cases c <;> simp only [Segment.decode, Segment.decodeWith, monadLift_self, pure_bind,
    ElfClass.segmentSize]
  all_goals
    repeat
      refine .read (by apply_rules [h.u32, h.u64]) (by omega) fun _ _ => ?_
    exact .done ‹_› (by omega) _

theorem symbolRecord (h : r.Continues p) (c : ElfClass) (offset : Nat) :
    ReadsRange p offset c.symbolSize (SymbolRecord.decode c p offset)
      (SymbolRecord.decode c r offset) := by
  cases c <;> simp only [SymbolRecord.decode, SymbolRecord.decodeWith, monadLift_self, pure_bind,
    ElfClass.symbolSize]
  all_goals
    repeat
      refine .read (by apply_rules [h.u8, h.u16, h.u32, h.u64]) (by omega) fun _ _ => ?_
    exact .done ‹_› (by omega) _

/-- The addend is a field only of records that have one. -/
theorem relocationRecord (h : r.Continues p) (c : ElfClass) (withAddend : Bool) (offset : Nat) :
    ReadsRange p offset (c.relocationSize withAddend)
      (RelocationRecord.decode c withAddend p offset)
      (RelocationRecord.decode c withAddend r offset) := by
  cases c <;> cases withAddend <;>
    simp only [RelocationRecord.decode, RelocationRecord.decodeWith, monadLift_self, pure_bind,
      ElfClass.relocationSize, if_true, Bool.false_eq_true, if_false]
  all_goals
    repeat
      refine .read (by apply_rules [h.u32, h.u64, h.i32, h.i64, ReadsRange.map]) (by omega) fun _ _ => ?_
    exact .done ‹_› (by omega) _

theorem dynamicEntry (h : r.Continues p) (c : ElfClass) (offset : Nat) :
    ReadsRange p offset c.dynamicSize (DynamicEntry.decode c p offset)
      (DynamicEntry.decode c r offset) := by
  cases c <;> simp only [DynamicEntry.decode, ElfClass.dynamicSize]
  all_goals
    repeat
      refine .read (by apply_rules [h.u32, h.u64, h.i32, h.i64]) (by omega) fun _ _ => ?_
    exact .done ‹_› (by omega) _

/-- The padding of the identification is not read, but what comes behind it is. -/
theorem headerFields (h : r.Continues p) (c : ElfClass) :
    ReadsRange p 0 c.headerSize (FileHeader.readFields c p) (FileHeader.readFields c r) := by
  cases c <;> simp only [FileHeader.readFields, ElfClass.headerSize, ElfClass.word, ElfClass.bits,
    h.order]
  all_goals
    repeat
      refine .read (by apply_rules [h.u8, h.u16, h.u32, h.u64, ReadsRange.map]) (by omega) fun _ _ => ?_
    exact .done ‹_› (by omega) _

end ElfAtlas.Reader.Continues
