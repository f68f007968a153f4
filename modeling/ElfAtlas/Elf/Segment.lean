import ElfAtlas.Elf.Flags
import ElfAtlas.Elf.Header
import ElfAtlas.Elf.Table

/-!
Program headers. A segment maps addresses to file positions as far as it is backed by the file; what
lies past its file size exists in memory only.
-/

namespace ElfAtlas

inductive SegmentType where
  | null
  | load
  | dynamic
  | interp
  | note
  | shlib
  | phdr
  | tls
  | gnuEhFrame
  | gnuStack
  | gnuRelro
  | gnuProperty
  | other (code : UInt32)
  deriving DecidableEq, Repr

def SegmentType.ofCode (code : UInt32) : SegmentType :=
  match code.toNat with
  | 0 => .null
  | 1 => .load
  | 2 => .dynamic
  | 3 => .interp
  | 4 => .note
  | 5 => .shlib
  | 6 => .phdr
  | 7 => .tls
  | 0x6474e550 => .gnuEhFrame
  | 0x6474e551 => .gnuStack
  | 0x6474e552 => .gnuRelro
  | 0x6474e553 => .gnuProperty
  | _ => .other code

structure Segment where
  index : Nat
  kind : SegmentType
  flags : SegmentFlags
  offset : UInt64
  vaddr : UInt64
  paddr : UInt64
  fileSize : UInt64
  memSize : UInt64
  align : UInt64
  deriving DecidableEq, Repr

namespace Segment

def isLoad (s : Segment) : Bool := s.kind = .load

def isExecutable (s : Segment) : Bool := s.flags.executable

def containsAddress (s : Segment) (address : UInt64) : Bool :=
  s.vaddr ≤ address && address - s.vaddr < s.memSize

/-- The file position behind an address of this segment. -/
def offsetOf? (s : Segment) (address : UInt64) : Option UInt64 :=
  if s.containsAddress address ∧ address - s.vaddr < s.fileSize then
    wordSum? s.offset (address - s.vaddr)
  else none

/-- Reads a segment, given how the distance of a field is added to its place. The flags are the second
field in 64-bit files and the last but one in 32-bit files. -/
def decodeWith {m : Type → Type} [Monad m] [MonadLiftT (Except Fault) m]
    (plus : Nat → Nat → m Nat) (elfClass : ElfClass) (r : Reader) (offset index : Nat) :
    m Segment := do
  match elfClass with
  | .elf32 =>
    return {
      index
      kind := .ofCode (← r.u32 offset)
      offset := (← r.u32 (← plus offset 4)).toUInt64
      vaddr := (← r.u32 (← plus offset 8)).toUInt64
      paddr := (← r.u32 (← plus offset 12)).toUInt64
      fileSize := (← r.u32 (← plus offset 16)).toUInt64
      memSize := (← r.u32 (← plus offset 20)).toUInt64
      flags := ⟨← r.u32 (← plus offset 24)⟩
      align := (← r.u32 (← plus offset 28)).toUInt64 }
  | .elf64 =>
    return {
      index
      kind := .ofCode (← r.u32 offset)
      flags := ⟨← r.u32 (← plus offset 4)⟩
      offset := ← r.u64 (← plus offset 8)
      vaddr := ← r.u64 (← plus offset 16)
      paddr := ← r.u64 (← plus offset 24)
      fileSize := ← r.u64 (← plus offset 32)
      memSize := ← r.u64 (← plus offset 40)
      align := ← r.u64 (← plus offset 48) }

def decode (elfClass : ElfClass) (r : Reader) (offset index : Nat) : Except Fault Segment :=
  decodeWith (fun a b => pure (a + b)) elfClass r offset index

/-- The program header table of `count` entries. -/
def table (r : Reader) (h : FileHeader) (count : Nat) : List Segment × List Fault :=
  if h.segmentOffset = 0 then ([], [])
  else
    TableLayout.walk
      { name := "program headers", offset := h.segmentOffset.toNat, count,
        entrySize := h.segmentEntrySize.toNat, recordSize := h.elfClass.segmentSize }
      r (decode h.elfClass r)

end Segment

end ElfAtlas
