import ElfAtlas.ByteOrder
import ElfAtlas.Fault
import ElfAtlas.Text.Utf8

/-!
Bounds-checked reads from an image. A position in the file is a natural number; every sum or product of
positions is checked against 2^64 where it is formed, and every read against the end of the image.
-/

namespace ElfAtlas

/-- The sum as a 64-bit quantity, or a fault that names what was being computed. -/
def checkedAdd (a b : Nat) (computing : String) : Except Fault Nat :=
  if a + b < UInt64.size then .ok (a + b) else .error (.overflow computing)

def checkedMul (a b : Nat) (computing : String) : Except Fault Nat :=
  if a * b < UInt64.size then .ok (a * b) else .error (.overflow computing)

/-- Where entry `index` of a table at `base` starts. -/
def entryOffset (base index size : Nat) : Except Fault Nat := do
  let delta ← checkedMul index size "entry offset"
  checkedAdd base delta "entry offset"

/-- The sum of two words, if it is a word. -/
def wordSum? (a b : UInt64) : Option UInt64 :=
  if a.toNat + b.toNat < UInt64.size then some (a + b) else none

structure Reader where
  bytes : Array UInt8
  order : ByteOrder

namespace Reader

def length (r : Reader) : Nat := r.bytes.size

def withOrder (r : Reader) (order : ByteOrder) : Reader := { r with order }

/-- The range `[offset, offset + len)` lies inside the image. -/
def contains (r : Reader) (offset len : Nat) : Bool := offset + len ≤ r.length && offset + len < UInt64.size

def outOfBounds (r : Reader) (offset width : Nat) : Fault := .outOfBounds offset width r.length

def slice (r : Reader) (offset len : Nat) : Except Fault (List UInt8) := do
  let stop ← checkedAdd offset len "slice end"
  if stop ≤ r.length then .ok (r.bytes.extract offset stop).toList
  else .error (r.outOfBounds offset len)

/-- The number that `width` bytes write in the image's byte order. -/
def number (r : Reader) (offset width : Nat) : Except Fault Nat := do
  let bytes ← r.slice offset width
  return r.order.value bytes

def u8 (r : Reader) (offset : Nat) : Except Fault UInt8 := UInt8.ofNat <$> r.number offset 1

def u16 (r : Reader) (offset : Nat) : Except Fault UInt16 := UInt16.ofNat <$> r.number offset 2

def u32 (r : Reader) (offset : Nat) : Except Fault UInt32 := UInt32.ofNat <$> r.number offset 4

def u64 (r : Reader) (offset : Nat) : Except Fault UInt64 := UInt64.ofNat <$> r.number offset 8

/-- Two's complement. -/
def i32 (r : Reader) (offset : Nat) : Except Fault Int32 := UInt32.toInt32 <$> r.u32 offset

def i64 (r : Reader) (offset : Nat) : Except Fault Int64 := UInt64.toInt64 <$> r.u64 offset

/-- A number of one, two, four or eight bytes. -/
def uint (r : Reader) (offset width : Nat) : Except Fault Nat :=
  if width = 1 ∨ width = 2 ∨ width = 4 ∨ width = 8 then r.number offset width
  else .error (r.outOfBounds offset width)

/-- The text at position `rel` of the table `[start, start + size)`, up to a NUL or the table's end. -/
def text (r : Reader) (start size rel : Nat) : Except Fault String := do
  let table ← r.slice start size
  if rel < table.length then .ok (Utf8.decode ((table.drop rel).takeWhile (· != 0)))
  else
    let position ← checkedAdd start rel "string offset"
    .error (r.outOfBounds position 1)

end Reader

end ElfAtlas
