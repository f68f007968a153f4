import ElfAtlas.Analysis.Address
import ElfAtlas.Proofs.Analysis.Completeness

/-!
Which addresses have a place in the file. Every load segment is asked. Of the sections only the first
that covers the address is asked, so a section without file data hides those behind it.
-/

namespace ElfAtlas

namespace Segment

def place (s : Segment) (address : UInt64) : Nat :=
  s.offset.toNat + (address.toNat - s.vaddr.toNat)

/-- The segment is loaded, and a byte of the file stands behind the address. -/
structure Backs (s : Segment) (address : UInt64) : Prop where
  load : s.isLoad = true
  start : s.vaddr ≤ address
  memory : address.toNat < s.vaddr.toNat + s.memSize.toNat
  file : address.toNat < s.vaddr.toNat + s.fileSize.toNat
  place : s.place address < UInt64.size

theorem offset_backing?_eq_some_iff {s : Segment} {address offset : UInt64} :
    (s.backing? address).map (·.offset) = some offset ↔
      s.Backs address ∧ s.place address = offset.toNat := by
  constructor
  · intro h
    simp only [backing?, offsetOf?, containsAddress, Bool.and_eq_true, decide_eq_true_eq] at h
    split at h
    · rename_i hload
      split at h
      · rename_i hrange
        obtain ⟨⟨hstart, hmemory⟩, hfile⟩ := hrange
        rw [Option.map_map, Option.map_eq_some_iff] at h
        obtain ⟨place, hplace, rfl⟩ := h
        rw [wordSum?_sub_eq_some_iff hstart] at hplace
        rw [sub_lt_iff hstart] at hmemory hfile
        have hfits : s.place address < UInt64.size := by
          rw [Segment.place, hplace]
          exact place.toNat_lt
        exact ⟨⟨hload, hstart, hmemory, hfile, hfits⟩, hplace⟩
      · cases h
    · cases h
  · rintro ⟨⟨hload, hstart, hmemory, hfile, -⟩, hplace⟩
    rw [← sub_lt_iff hstart] at hmemory hfile
    simp only [backing?, offsetOf?, containsAddress, hload, hstart, hmemory, hfile,
      (wordSum?_sub_eq_some_iff hstart).2 hplace]
    rfl

end Segment

namespace Section

def place (s : Section) (address : UInt64) : Nat :=
  s.offset.toNat + (address.toNat - s.addr.toNat)

structure Covers (s : Section) (address : UInt64) : Prop where
  allocated : s.isAllocated = true
  start : s.addr ≤ address
  stop : address.toNat < s.addr.toNat + s.size.toNat

/-- The section covers the address with a byte of the file. -/
structure Backs (s : Section) (address : UInt64) : Prop extends s.Covers address where
  fileData : s.hasFileData = true
  place : s.place address < UInt64.size

theorem containsAddress_iff {s : Section} {address : UInt64} :
    s.containsAddress address = true ↔ s.Covers address := by
  simp only [containsAddress, Bool.and_eq_true, decide_eq_true_eq]
  constructor
  · rintro ⟨⟨hallocated, hstart⟩, hsize⟩
    exact ⟨hallocated, hstart, (sub_lt_iff hstart).1 hsize⟩
  · rintro ⟨hallocated, hstart, hstop⟩
    exact ⟨⟨hallocated, hstart⟩, (sub_lt_iff hstart).2 hstop⟩

theorem offset_backing?_eq_some_iff {s : Section} {address offset : UInt64} (hs : s.Covers address) :
    (s.backing? address).map (·.offset) = some offset ↔
      s.Backs address ∧ s.place address = offset.toNat := by
  rw [backing?]
  split
  · rename_i hdata
    rw [Option.map_map, Option.map_eq_some_iff]
    constructor
    · rintro ⟨place, hplace, rfl⟩
      rw [wordSum?_sub_eq_some_iff hs.start] at hplace
      have hfits : s.place address < UInt64.size := by
        rw [Section.place, hplace]
        exact place.toNat_lt
      exact ⟨⟨hs, hdata, hfits⟩, hplace⟩
    · rintro ⟨-, hplace⟩
      exact ⟨offset, (wordSum?_sub_eq_some_iff hs.start).2 hplace, rfl⟩
  · rename_i hdata
    simp only [Option.map_none, reduceCtorEq, false_iff]
    rintro ⟨hbacks, -⟩
    exact hdata hbacks.fileData

end Section

/-- The section at an address is the first in the table that covers it. -/
theorem SectionTable.byAddress?_eq_some_iff {t : SectionTable} {s : Section} {address : UInt64} :
    t.byAddress? address = some s ↔
      s.Covers address ∧
        ∃ front back, t.toList = front ++ s :: back ∧ ∀ x ∈ front, ¬ x.Covers address := by
  simp only [byAddress?, List.find?_eq_some_iff_append, Section.containsAddress_iff,
    Bool.not_eq_true', ← Bool.not_eq_true]

namespace Analysis

variable {a : Analysis} {address offset : UInt64}

/-- A load segment's answer is taken before any section is looked at. -/
theorem segmentOffset_eq_some {b : Backing}
    (hb : a.segments.findSome? (·.backing? address) = some b) :
    ∃ s ∈ a.segments, s.Backs address ∧ s.place address = b.offset.toNat := by
  obtain ⟨s, hs, hsb⟩ := List.exists_of_findSome?_eq_some hb
  exact ⟨s, hs, Segment.offset_backing?_eq_some_iff.1 (by rw [hsb]; rfl)⟩

theorem segmentOffset_eq_none_iff :
    a.segments.findSome? (·.backing? address) = none ↔ ∀ s ∈ a.segments, ¬ s.Backs address := by
  rw [List.findSome?_eq_none_iff]
  refine forall₂_congr fun s _ => ⟨fun hnone hs => ?_, fun hs => ?_⟩
  · have hsome := Segment.offset_backing?_eq_some_iff.2
      ⟨hs, (UInt64.toNat_ofNat_of_lt' hs.place).symm⟩
    simp [hnone] at hsome
  · rw [Option.eq_none_iff_forall_ne_some]
    intro b hb
    exact hs (Segment.offset_backing?_eq_some_iff.1 (by rw [hb]; rfl)).1

/-- The section at the address gives its own place, or none: no section behind it is asked. -/
theorem sectionOffset_eq_some_iff :
    ((a.sections.byAddress? address).bind (·.backing? address)).map (·.offset) = some offset ↔
      ∃ front s back, a.sections.toList = front ++ s :: back ∧ s.Backs address ∧
        s.place address = offset.toNat ∧ ∀ x ∈ front, ¬ x.Covers address := by
  rw [Option.map_bind, Option.bind_eq_some_iff]
  constructor
  · rintro ⟨s, hs, hoffset⟩
    obtain ⟨hcovers, front, back, hlist, hfront⟩ := SectionTable.byAddress?_eq_some_iff.1 hs
    obtain ⟨hbacks, hplace⟩ := (Section.offset_backing?_eq_some_iff hcovers).1 hoffset
    exact ⟨front, s, back, hlist, hbacks, hplace, hfront⟩
  · rintro ⟨front, s, back, hlist, hbacks, hplace, hfront⟩
    exact ⟨s, SectionTable.byAddress?_eq_some_iff.2 ⟨hbacks.toCovers, front, back, hlist, hfront⟩,
      (Section.offset_backing?_eq_some_iff hbacks.toCovers).2 ⟨hbacks, hplace⟩⟩

/-- An address has a place in the file when some load segment backs it, or when the first section that
covers it does. Any place given is the one where the byte behind the address stands. -/
theorem isSome_offsetOf?_iff_backs (a : Analysis) (address : UInt64) :
    ((a.offsetOf? address).isSome = true ↔
      (∃ s ∈ a.segments, s.Backs address) ∨
        ∃ front s back, a.sections.toList = front ++ s :: back ∧ s.Backs address ∧
          ∀ x ∈ front, ¬ x.Covers address) ∧
      ∀ offset, a.offsetOf? address = some offset →
        (∃ s ∈ a.segments, s.Backs address ∧ s.place address = offset.toNat) ∨
          ∃ s ∈ a.sections.toList, s.Backs address ∧ s.place address = offset.toNat := by
  cases hb : a.segments.findSome? (·.backing? address) with
  | some b =>
      obtain ⟨s, hs, hbacks, hplace⟩ := segmentOffset_eq_some hb
      have hoffset : a.offsetOf? address = some b.offset := by simp [offsetOf?, backing?, hb]
      rw [hoffset]
      refine ⟨⟨fun _ => .inl ⟨s, hs, hbacks⟩, fun _ => rfl⟩, ?_⟩
      rintro - ⟨⟩
      exact .inl ⟨s, hs, hbacks, hplace⟩
  | none =>
      have hsegments := segmentOffset_eq_none_iff.1 hb
      have hoffset : a.offsetOf? address =
          ((a.sections.byAddress? address).bind (·.backing? address)).map (·.offset) := by
        simp [offsetOf?, backing?, hb]
      rw [hoffset]
      constructor
      · rw [Option.isSome_iff_exists]
        constructor
        · rintro ⟨offset, h⟩
          obtain ⟨front, s, back, hlist, hbacks, -, hfront⟩ := sectionOffset_eq_some_iff.1 h
          exact .inr ⟨front, s, back, hlist, hbacks, hfront⟩
        · rintro (⟨s, hs, hbacks⟩ | ⟨front, s, back, hlist, hbacks, hfront⟩)
          · exact absurd hbacks (hsegments s hs)
          · exact ⟨.ofNat (s.place address), sectionOffset_eq_some_iff.2
              ⟨front, s, back, hlist, hbacks, (UInt64.toNat_ofNat_of_lt' hbacks.place).symm,
                hfront⟩⟩
      · intro offset h
        obtain ⟨front, s, back, hlist, hbacks, hplace, -⟩ := sectionOffset_eq_some_iff.1 h
        exact .inr ⟨s, by simp [hlist], hbacks, hplace⟩

/-- In an object all addresses start at zero: `.bss` covers the bytes of `.data` behind it in the
table, and has none of its own. -/
theorem offsetOf?_hidden_by_noBits :
    let header : FileHeader :=
      { elfClass := .elf32, order := .little, identVersion := 1, osAbi := 0, abiVersion := 0,
        fileTypeCode := 1, machineCode := 3, version := 1, entry := 0, segmentOffset := 0,
        sectionOffset := 56, flags := 0, headerSize := 52, segmentEntrySize := 32, segmentCount := 0,
        sectionEntrySize := 40, sectionCount := 3, nameTableIndex := 0 }
    let data : List UInt8 := [1, 2, 3, 4]
    let sections : List SectionRecord :=
      [⟨0, 0, 0, 0, 0, 0, 0, 0, 0, 0⟩, ⟨0, 8, 3, 0, 52, 16, 0, 0, 1, 0⟩,
        ⟨0, 1, 3, 0, 52, 4, 0, 0, 1, 0⟩]
    let image := header.imageWith
      (data ++ sections.flatMap fun s : SectionRecord => ByteOrder.little.record (s.fields .elf32))
    ∃ a, run External.libraries {} false image = .ok a ∧ a.header = header ∧ a.diagnostics = [] ∧
      (∃ s ∈ a.sections.toList, s.Backs 1) ∧ a.offsetOf? 1 = none := by
  intro header data sections image
  have hparse : FileHeader.parse image = .ok header :=
    FileHeader.parse_imageWith ⟨by decide, by decide, by decide⟩ _
  have hrun : run External.libraries {} false image =
      .ok (assemble External.libraries {} image header ([], [])) :=
    run_eq_ok_of_parse (by cbv) hparse (by decide +kernel)
  have hbacks : (Section.ofRecord 2 "" sections[2]).Backs 1 :=
    ⟨⟨by decide, by decide, by decide⟩, by decide, by decide⟩
  exact ⟨_, hrun, rfl, by decide +kernel, ⟨_, by decide +kernel, hbacks⟩, by decide +kernel⟩

end Analysis

end ElfAtlas
