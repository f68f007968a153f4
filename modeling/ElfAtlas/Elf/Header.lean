import ElfAtlas.Elf.Class
import ElfAtlas.Elf.Ident

/-!
The file header: sixteen identification bytes, then fields whose places depend on the class and whose
byte order the identification names. `FileHeader.parse` decides both, and nothing else does.
-/

namespace ElfAtlas

structure FileHeader where
  elfClass : ElfClass
  order : ByteOrder
  identVersion : UInt8
  osAbi : UInt8
  abiVersion : UInt8
  fileTypeCode : UInt16
  machineCode : UInt16
  version : UInt32
  entry : UInt64
  segmentOffset : UInt64
  sectionOffset : UInt64
  flags : UInt32
  headerSize : UInt16
  segmentEntrySize : UInt16
  segmentCount : UInt16
  sectionEntrySize : UInt16
  sectionCount : UInt16
  nameTableIndex : UInt16
  deriving DecidableEq, Repr

namespace FileHeader

def magic : List UInt8 := [0x7f, 0x45, 0x4c, 0x46]

def identSize : Nat := 16

def fileType (h : FileHeader) : FileType := .ofCode h.fileTypeCode

def machine (h : FileHeader) : Machine := .ofCode h.machineCode

/-- Built to be loaded at any address. -/
def isPositionIndependent (h : FileHeader) : Bool := h.fileType = .sharedObject

def reader (h : FileHeader) (image : Array UInt8) : Reader := ⟨image, h.order⟩

def readClass (ident : Reader) : Except Fault ElfClass := do
  let code ← ident.u8 4
  if code = 1 then return .elf32
  else if code = 2 then return .elf64
  else throw (.unsupportedVariant "class" code)

def readOrder (ident : Reader) : Except Fault ByteOrder := do
  let code ← ident.u8 5
  if code = 1 then return .little
  else if code = 2 then return .big
  else throw (.unsupportedVariant "data encoding" code)

/-- The addresses of the class's width come at byte 24; the fields after them follow without a gap. -/
def readFields (elfClass : ElfClass) (r : Reader) : Except Fault FileHeader := do
  let width := elfClass.bits / 8
  let tail := 24 + 3 * width
  return {
    elfClass
    order := r.order
    identVersion := ← r.u8 6
    osAbi := ← r.u8 7
    abiVersion := ← r.u8 8
    fileTypeCode := ← r.u16 16
    machineCode := ← r.u16 18
    version := ← r.u32 20
    entry := ← elfClass.word r 24
    segmentOffset := ← elfClass.word r (24 + width)
    sectionOffset := ← elfClass.word r (24 + 2 * width)
    flags := ← r.u32 tail
    headerSize := ← r.u16 (tail + 4)
    segmentEntrySize := ← r.u16 (tail + 6)
    segmentCount := ← r.u16 (tail + 8)
    sectionEntrySize := ← r.u16 (tail + 10)
    sectionCount := ← r.u16 (tail + 12)
    nameTableIndex := ← r.u16 (tail + 14) }

/-- The header at the start of an image. -/
def parse (image : Array UInt8) : Except Fault FileHeader := do
  let ident : Reader := ⟨image, .little⟩
  if (image.extract 0 4).toList ≠ magic then throw .notElf
  if image.size < identSize then throw (.truncatedHeader identSize image.size)
  let elfClass ← readClass ident
  let order ← readOrder ident
  if image.size < elfClass.headerSize then
    throw (.truncatedHeader elfClass.headerSize image.size)
  readFields elfClass (ident.withOrder order)

end FileHeader

end ElfAtlas
