import ElfAtlas.Elf.SectionTable

/-!
Which section owns a file position. Ranges are sorted by start and end once; of those that contain a
position, the last in that order owns it.
-/

namespace ElfAtlas

structure SectionRange where
  start : Nat
  stop : Nat
  owner : Section

namespace SectionRange

def le (a b : SectionRange) : Bool := a.start < b.start || (a.start = b.start && a.stop ≤ b.stop)

/-- The file range of a section that can own a position. -/
def ofSection? (s : Section) : Option SectionRange :=
  let stop := s.offset.toNat + s.size.toNat
  if s.index ≠ 0 ∧ s.hasFileData ∧ s.size ≠ 0 ∧ stop < UInt64.size then some ⟨s.offset.toNat, stop, s⟩
  else none

end SectionRange

structure SectionIndex where
  ranges : List SectionRange

namespace SectionIndex

def ofTable (t : SectionTable) : SectionIndex :=
  ⟨(t.toList.filterMap SectionRange.ofSection?).mergeSort SectionRange.le⟩

def owner? (i : SectionIndex) (offset : Nat) : Option Section :=
  ((i.ranges.takeWhile (·.start ≤ offset)).reverse.find? (offset < ·.stop)).map (·.owner)

end SectionIndex

end ElfAtlas
