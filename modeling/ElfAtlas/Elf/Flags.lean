import ElfAtlas.Text.Hex

/-!
Flag words. Bits without a name are kept, and are written together as one hexadecimal number.
-/

namespace ElfAtlas

/-- The names of the set bits, in the order of the list, then the nameless rest. -/
def flagText (names : List (Nat × String)) (bits : Nat) : String :=
  let named := names.filterMap fun (bit, name) => if bits.testBit bit then some name else none
  let rest := names.foldl (fun rest (bit, _) => if rest.testBit bit then rest - 1 <<< bit else rest) bits
  " | ".intercalate (named ++ if rest = 0 then [] else [Hex.marked rest])

structure SectionFlags where
  bits : UInt64
  deriving DecidableEq, Repr

namespace SectionFlags

def names : List (Nat × String) :=
  [(0, "WRITE"), (1, "ALLOC"), (2, "EXECINSTR"), (4, "MERGE"), (5, "STRINGS"), (6, "INFO_LINK"),
    (7, "LINK_ORDER"), (9, "GROUP"), (10, "TLS"), (11, "COMPRESSED")]

def text (f : SectionFlags) : String := flagText names f.bits.toNat

def writable (f : SectionFlags) : Bool := f.bits &&& 1 != 0

def allocated (f : SectionFlags) : Bool := f.bits &&& 2 != 0

def executable (f : SectionFlags) : Bool := f.bits &&& 4 != 0

end SectionFlags

structure SegmentFlags where
  bits : UInt32
  deriving DecidableEq, Repr

namespace SegmentFlags

def names : List (Nat × String) := [(0, "X"), (1, "W"), (2, "R")]

def text (f : SegmentFlags) : String := flagText names f.bits.toNat

def executable (f : SegmentFlags) : Bool := f.bits &&& 1 != 0

end SegmentFlags

end ElfAtlas
