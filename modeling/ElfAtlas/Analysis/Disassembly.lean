import ElfAtlas.Analysis.Address
import ElfAtlas.Code.Stream

/-!
Code on demand: a range of addresses, a section, or a range decoded in pieces.
-/

namespace ElfAtlas

namespace Analysis

variable {σ δ : Type}

/-- A stream over `length` bytes of the image from `offset` on. -/
def streamAt (e : Engine σ δ) (a : Analysis) (arch : Architecture) (offset length : Nat)
    (base : UInt64) (shared : σ) : Except Fault (Stream δ) × σ :=
  match checkedAdd offset length "disassembly end" with
  | .error fault => (.error fault, shared)
  | .ok stop => Stream.ofRange e arch a.header.order base a.image offset stop shared

/-- The architecture, and the file bytes behind an address. -/
def located (a : Analysis) (address : UInt64) (length : Nat) :
    Except Fault (Architecture × Backing) := do
  let arch ← a.architecture
  match a.backing? address with
  | some b => return (arch, b)
  | none => throw (a.unmapped address length)

/-- How many bytes a request of `length` bytes covers: no more than lie behind the address, and no more
than the image holds. -/
def clampedLength (a : Analysis) (b : Backing) (length : Nat) : Nat :=
  min (min length b.length.toNat) (a.available b.offset.toNat)

/-- A stream over a range of addresses, no longer than the window and the bytes behind the range. -/
def disassembleRange (e : Engine σ δ) (a : Analysis) (address : UInt64) (length : Nat) (shared : σ) :
    Except Fault (Stream δ) × σ :=
  match a.located address length with
  | .error fault => (.error fault, shared)
  | .ok (arch, b) =>
    let window := a.config.disasm.windowBytes.toNat
    streamAt e a arch b.offset.toNat (a.clampedLength b (min length window)) address shared

/-- A stream over a named section, absent if there is no such section. -/
def disassembleSection (e : Engine σ δ) (a : Analysis) (name : String) (shared : σ) :
    Except Fault (Option (Stream δ)) × σ :=
  match a.sections.byName? name with
  | none => (.ok none, shared)
  | some s =>
    match a.architecture with
    | .error fault => (.error fault, shared)
    | .ok arch =>
      let window := a.config.disasm.windowBytes.toNat
      let length :=
        if s.hasFileData then min (min s.size.toNat window) (a.available s.offset.toNat) else 0
      let offset := if length = 0 then 0 else s.offset.toNat
      let (stream, shared) := streamAt e a arch offset length s.addr shared
      (stream.map some, shared)

/-- The points `at, at + step, …` below `stop`; there are none if the step is zero. -/
def pointsFrom (step stop : Nat) (point : Nat) : List Nat :=
  if _h : 0 < step ∧ point < stop then point :: pointsFrom step stop (point + step) else []
termination_by stop - point

/-- Of ascending points those at least `chunk` after the last one taken. -/
def spaced (chunk : Nat) (last : Nat) : List Nat → List Nat
  | [] => []
  | p :: rest => if chunk ≤ p - last then p :: spaced chunk p rest else spaced chunk last rest

/-- The defined functions strictly inside a range, in ascending order without repetitions. -/
def functionStarts (a : Analysis) (start stop : Nat) : List Nat :=
  let starts := (a.symbols.filter fun s => s.isFunction && s.isDefined).map (·.value.toNat)
  ((starts.filter fun p => start < p ∧ p < stop).mergeSort (· ≤ ·)).eraseDups

/-- The chunk size rounded up to whole words of four bytes, if that is a 64-bit quantity. -/
def chunkStep? (chunk : Nat) : Option Nat :=
  let step := max ((chunk + 3) / 4) 1 * 4
  if step < UInt64.size then some step else none

/-- Where a range is cut to be decoded in pieces, its ends included. Code of fixed width is cut every
chunk, other code at the starts of functions. Absent when the chunk size cannot be rounded up. -/
def splitPoints? (a : Analysis) (arch : Architecture) (start stop : Nat) : Option (List Nat) :=
  let chunk := a.config.disasm.parallelChunkBytes.toNat
  if arch.isFixedWidth then
    (chunkStep? chunk).map fun step => start :: pointsFrom step stop (start + step) ++ [stop]
  else some (start :: spaced chunk start (a.functionStarts start stop) ++ [stop])

/-- The non-empty pieces between neighbouring points. -/
def pieces : List Nat → List (Nat × Nat)
  | p :: q :: rest => if p < q then (p, q) :: pieces (q :: rest) else pieces (q :: rest)
  | _ => []

/-- Decodes pieces one after the other, each with a decoder of its own; the first fault ends it. -/
def decodePieces (e : Engine σ δ) (a : Analysis) (arch : Architecture) (address offset : Nat) :
    List (Nat × Nat) → σ → Except Fault (List Instruction) × σ
  | [], shared => (.ok [], shared)
  | (p, q) :: rest, shared =>
    match streamAt e a arch (offset + (p - address)) (q - p) (UInt64.ofNat p) shared with
    | (.error fault, shared) => (.error fault, shared)
    | (.ok stream, shared) =>
      let (is, _, shared) := stream.drain e shared
      let (more, shared) := decodePieces e a arch address offset rest shared
      (more.map (is ++ ·), shared)

/-- The instructions of a range, decoded in independent pieces. The window does not bound the range.
Absent when the range cannot be cut. -/
def disassembleParallel (e : Engine σ δ) (a : Analysis) (address : UInt64) (length : Nat)
    (shared : σ) : Option (Except Fault (List Instruction)) × σ :=
  match a.located address length with
  | .error fault => (some (.error fault), shared)
  | .ok (arch, b) =>
    let start := address.toNat
    let stop := min (start + a.clampedLength b length) (UInt64.size - 1)
    match a.splitPoints? arch start stop with
    | none => (none, shared)
    | some points =>
      let (is, shared) := decodePieces e a arch start b.offset.toNat (pieces points) shared
      (some is, shared)

end Analysis

end ElfAtlas
