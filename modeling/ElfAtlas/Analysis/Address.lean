import ElfAtlas.Analysis.Basic

/-!
From addresses to the file: load segments are asked first, then the section at the address.
-/

namespace ElfAtlas

/-- File bytes behind an address: where they start and how many follow. -/
structure Backing where
  offset : UInt64
  length : UInt64
  deriving DecidableEq, Repr

namespace Segment

def backing? (s : Segment) (address : UInt64) : Option Backing :=
  if s.isLoad then
    (s.offsetOf? address).map fun offset => ⟨offset, s.fileSize - (address - s.vaddr)⟩
  else none

end Segment

namespace Section

def backing? (s : Section) (address : UInt64) : Option Backing :=
  if s.hasFileData then
    (wordSum? s.offset (address - s.addr)).map fun offset =>
      ⟨offset, s.size - (address - s.addr)⟩
  else none

end Section

namespace Analysis

def backing? (a : Analysis) (address : UInt64) : Option Backing :=
  match a.segments.findSome? (·.backing? address) with
  | some b => some b
  | none => (a.sections.byAddress? address).bind (·.backing? address)

def offsetOf? (a : Analysis) (address : UInt64) : Option UInt64 :=
  (a.backing? address).map (·.offset)

/-- How many bytes of the image lie at and after a position. -/
def available (a : Analysis) (offset : Nat) : Nat := a.image.size - offset

def unmapped (a : Analysis) (address : UInt64) (length : Nat) : Fault :=
  .outOfBounds address.toNat length a.image.size

end Analysis

end ElfAtlas
