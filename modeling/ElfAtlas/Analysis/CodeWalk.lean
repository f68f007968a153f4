import ElfAtlas.Analysis.Disassembly

/-!
All code of a file, one window at a time. Near the end of a window that is not the last an instruction
may be cut short, so the next window starts over at that instruction.
-/

namespace ElfAtlas

/-- A range of code in the file and the address of its first byte. -/
structure CodeRegion where
  offset : Nat
  length : Nat
  base : UInt64
  deriving DecidableEq, Repr

/-- Why a walk stops before its end: a fault, or an instruction behind the end of its window, for which
the bytes that are left of the window cannot be computed. -/
inductive CodeWalk.Halt where
  | fault (f : Fault)
  | overflow
  deriving DecidableEq, Repr

/-- What a walk has seen: the instructions, how many more are wanted, and why it stopped. -/
structure CodeWalk where
  seen : List Instruction
  wanted : Option Nat
  halt : Option CodeWalk.Halt

namespace CodeWalk

def isOver (w : CodeWalk) : Bool := w.halt.isSome || w.wanted = some 0

/-- The walk that goes on after `seen` has been looked at. -/
def after (seen : List Instruction) (w : CodeWalk) : CodeWalk := { w with seen := seen ++ w.seen }

/-- The walk over given instructions, as far as they are wanted. -/
def ofList (is : List Instruction) : Option Nat → CodeWalk
  | none => ⟨is, none, none⟩
  | some n => ⟨is.take n, some (n - is.length), none⟩

end CodeWalk

namespace Analysis

variable {σ δ : Type}

def clampedRegion (a : Analysis) (offset length base : UInt64) : CodeRegion :=
  { offset := offset.toNat, length := min length.toNat (a.available offset.toNat), base }

/-- The executable sections, or the executable load segments if there are none. -/
def codeRegions (a : Analysis) : List CodeRegion :=
  let ofSections :=
    (a.sections.executable.map fun s => a.clampedRegion s.offset s.size s.addr).filter
      (0 < ·.length)
  if ofSections.isEmpty then
    ((a.segments.filter fun s => s.isLoad && s.isExecutable).map fun s =>
      a.clampedRegion s.offset s.fileSize s.vaddr).filter (0 < ·.length)
  else ofSections

/-- How many bytes the window at `pos` takes of a region. -/
def taken (a : Analysis) (region : CodeRegion) (pos : Nat) : Nat :=
  min (region.length - pos) a.config.disasm.windowBytes.toNat

/-- The start of an instruction that is too near the end of a window of `taken` bytes at `pos`, or
nothing if it is not too near. An instruction at the start of the window is never too near; there is no
result for one behind the end. -/
def seam? (region : CodeRegion) (longest pos taken : Nat) (i : Instruction) : Option (Option Nat) :=
  let start := (i.address - region.base).toNat
  if pos < start then
    if start - pos ≤ taken then
      some (if taken - (start - pos) < longest then some start else none)
    else none
  else some none

/-- The seam in the window at `pos`; the last window of a region has none. -/
def seamAt? (a : Analysis) (arch : Architecture) (region : CodeRegion) (pos : Nat)
    (i : Instruction) : Option (Option Nat) :=
  if a.taken region pos = region.length - pos then some none
  else seam? region arch.maxLength pos (a.taken region pos) i

/-- The instructions of a window before the first seam, and where the next window starts: there, or
else where this one stops. There is no next window behind an instruction for which `seam` has no
result. -/
def windowed (seam : Instruction → Option (Option Nat)) (stop : Nat) :
    List Instruction → List Instruction × Option Nat
  | [] => ([], some stop)
  | i :: is =>
    match seam i with
    | none => ([], none)
    | some (some start) => ([], some start)
    | some none =>
      let (seen, next) := windowed seam stop is
      (i :: seen, next)

/-- The instructions of a region from `pos` on, as many as are wanted. -/
def walkRegion (e : Engine σ δ) (a : Analysis) (arch : Architecture) (region : CodeRegion)
    (pos : Nat) (wanted : Option Nat) (shared : σ) : CodeWalk × σ :=
  if _hpos : pos < region.length then
    let taken := a.taken region pos
    match streamAt e a arch (region.offset + pos) taken (region.base + UInt64.ofNat pos) shared with
    | (.error fault, shared) => (⟨[], wanted, some (.fault fault)⟩, shared)
    | (.ok stream, shared) =>
      let (is, _, shared) := stream.drain e shared
      let window := windowed (a.seamAt? arch region pos) (pos + taken) is
      let first := CodeWalk.ofList window.1 wanted
      if first.isOver then (first, shared)
      else
        match window.2 with
        | none => ({ first with halt := some .overflow }, shared)
        | some next =>
          if _h : pos < next then
            let (w, shared) := walkRegion e a arch region next first.wanted shared
            (w.after first.seen, shared)
          else (first, shared)
  else (⟨[], wanted, none⟩, shared)
termination_by region.length - pos
decreasing_by exact Nat.sub_lt_sub_left _hpos _h

def walkRegions (e : Engine σ δ) (a : Analysis) (arch : Architecture) :
    List CodeRegion → Option Nat → σ → CodeWalk × σ
  | [], wanted, shared => (⟨[], wanted, none⟩, shared)
  | region :: rest, wanted, shared =>
    let (w, shared) := walkRegion e a arch region 0 wanted shared
    if w.isOver then (w, shared)
    else
      let (more, shared) := walkRegions e a arch rest w.wanted shared
      (more.after w.seen, shared)

/-- The first `wanted` instructions of all code regions, or all of them. -/
def walkCode (e : Engine σ δ) (a : Analysis) (arch : Architecture) (wanted : Option Nat)
    (shared : σ) : CodeWalk × σ :=
  walkRegions e a arch a.codeRegions wanted shared

end Analysis

end ElfAtlas
