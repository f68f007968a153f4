import ElfAtlas.Analysis.Disassembly
import ElfAtlas.External
import ElfAtlas.Proofs.Code.Sweep

/-!
The bytes behind a stream of an analysis. A stream over a range of the image is opened over the bytes
of that range, and taking or dropping bytes of a range gives the bytes of a smaller one.
-/

namespace ElfAtlas

namespace Analysis

variable {σ δ : Type}

def codeAt (a : Analysis) (offset length : Nat) : List UInt8 :=
  (a.image.toList.drop offset).take length

theorem length_codeAt {a : Analysis} {offset length : Nat} (h : offset + length ≤ a.image.size) :
    (a.codeAt offset length).length = length := by
  rw [codeAt, List.length_take, List.length_drop, Array.length_toList]
  omega

theorem drop_codeAt (a : Analysis) (offset length n : Nat) :
    (a.codeAt offset length).drop n = a.codeAt (offset + n) (length - n) := by
  rw [codeAt, codeAt, List.drop_take, List.drop_drop]

theorem take_codeAt (a : Analysis) (offset : Nat) {length n : Nat} (h : n ≤ length) :
    (a.codeAt offset length).take n = a.codeAt offset n := by
  rw [codeAt, codeAt, List.take_take, Nat.min_eq_left h]

/-- A range that lies inside the image is opened over its bytes. -/
theorem streamAt_eq_start (e : Engine σ δ) {a : Analysis} (arch : Architecture)
    {offset length : Nat} (base : UInt64) (shared : σ) (hfits : offset + length ≤ a.image.size)
    (hword : offset + length < UInt64.size) :
    streamAt e a arch offset length base shared =
      Stream.start e arch a.header.order base (a.codeAt offset length) shared := by
  have hsum : checkedAdd offset length "disassembly end" = .ok (offset + length) := by
    rw [checkedAdd, if_pos hword]
  have hbytes : (a.image.extract offset (offset + length)).toList = a.codeAt offset length := by
    rw [Array.toList_extract, List.extract_eq_take_drop, Nat.add_sub_cancel_left, codeAt]
  rw [streamAt, hsum]
  simp only [Stream.ofRange]
  rw [if_neg (by omega), hbytes]

/-- Drained, a stream over a range yields the sweep over the bytes of the range. -/
theorem streamAt_eq_sweep {e : Engine σ δ} {f : PureDecoder} {a : Analysis} {arch : Architecture}
    {offset length : Nat} {shared : σ} (hs : e.Serves arch a.header.order f shared)
    (base : UInt64) (hfits : offset + length ≤ a.image.size)
    (himage : a.image.size < UInt64.size) :
    ∃ s shared', streamAt e a arch offset length base shared = (.ok s, shared') ∧
      e.Serves arch a.header.order f shared' ∧
      (s.drain e shared').1 = f.sweep arch base (a.codeAt offset length) ∧
      (s.drain e shared').2.2 = shared' := by
  obtain ⟨s, shared', hstart, hs', hdrain⟩ :=
    Stream.start_eq hs base (a.codeAt offset length)
  refine ⟨s, shared', ?_, hs', hdrain shared'⟩
  rw [streamAt_eq_start e arch base shared hfits (Nat.lt_of_le_of_lt hfits himage), hstart]

/-- An image that is nothing but code, loaded at an address as one executable segment. -/
def ofCode (machineCode : UInt16) (config : Config) (address : UInt64) (symbols : List Symbol)
    (code : List UInt8) : Analysis where
  image := code.toArray
  header :=
    { elfClass := .elf64, order := .little, identVersion := 1, osAbi := 0, abiVersion := 0,
      fileTypeCode := 2, machineCode, version := 1, entry := address, segmentOffset := 64,
      sectionOffset := 0, flags := 0, headerSize := 64, segmentEntrySize := 56, segmentCount := 1,
      sectionEntrySize := 64, sectionCount := 0, nameTableIndex := 0 }
  segments :=
    [{ index := 0, kind := .load, flags := ⟨5⟩, offset := 0, vaddr := address, paddr := address,
       fileSize := UInt64.ofNat code.length, memSize := UInt64.ofNat code.length, align := 4096 }]
  sections := {}
  symbols
  relocations := []
  dynamic := none
  strings := []
  sha256 := External.libraries.digest code
  diagnostics := []
  config

end Analysis

end ElfAtlas
