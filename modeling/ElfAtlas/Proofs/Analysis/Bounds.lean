import ElfAtlas.Proofs.Analysis.Completeness
import ElfAtlas.Proofs.Analysis.Outcome

/-!
Where the tables of a result end. Each entry that is kept has its record in the image. What the entry
size adds to the record is not checked: behind the last entry it may reach past the end of the image.
-/

namespace ElfAtlas

variable {r : Reader} {h : FileHeader}

theorem Segment.stop_le_of_table_ne_nil {count : Nat} (hne : (table r h count).1 ≠ []) :
    h.segmentOffset.toNat + (table r h count).1.length * h.segmentEntrySize.toNat ≤
      r.length + (h.segmentEntrySize.toNat - h.elfClass.segmentSize) := by
  rw [table_eq_walk] at hne ⊢
  exact TableLayout.stop_le_of_walk_ne_nil hne

theorem SectionTable.stop_le_of_size_ne_zero {counts : TableCounts}
    (hne : (parse r h counts).1.size ≠ 0) :
    h.sectionOffset.toNat + (parse r h counts).1.size * h.sectionEntrySize.toNat ≤
      r.length + (h.sectionEntrySize.toNat - h.elfClass.sectionSize) := by
  rw [size_parse_eq_length] at hne ⊢
  exact TableLayout.stop_le_of_walk_ne_nil (mt List.length_eq_zero_iff.2 hne)

theorem Segment.dropped_of_length_lt {count i : Nat} (hi : i < count) (hoffset : h.segmentOffset ≠ 0)
    (hsize : h.elfClass.segmentSize ≤ h.segmentEntrySize.toNat)
    (hout : r.length <
      h.segmentOffset.toNat + i * h.segmentEntrySize.toNat + h.elfClass.segmentSize) :
    (table r h count).1.length ≤ i ∧
      .truncatedTable "program headers" (table r h count).1.length count ∈ (table r h count).2 := by
  have hi : i < (h.segmentLayout count).count := Nat.lt_of_lt_of_eq hi (if_neg hoffset).symm
  rw [table_eq_walk, ← TableLayout.truncated_ofHeader (Nat.zero_lt_of_lt hi)]
  exact TableLayout.dropped_of_length_lt hi hsize hout

theorem SectionTable.dropped_of_length_lt {counts : TableCounts} {i : Nat} (hi : i < counts.sections)
    (hoffset : h.sectionOffset ≠ 0) (hsize : h.elfClass.sectionSize ≤ h.sectionEntrySize.toNat)
    (hout : r.length <
      h.sectionOffset.toNat + i * h.sectionEntrySize.toNat + h.elfClass.sectionSize) :
    (parse r h counts).1.size ≤ i ∧
      .truncatedTable "section headers" (parse r h counts).1.size counts.sections ∈
        (parse r h counts).2 := by
  have hi : i < (h.sectionLayout counts.sections).count :=
    Nat.lt_of_lt_of_eq hi (if_neg hoffset).symm
  rw [size_parse_eq_length, ← TableLayout.truncated_ofHeader (Nat.zero_lt_of_lt hi),
    parse_eq_ofRecords]
  obtain ⟨hle, hmem⟩ := TableLayout.dropped_of_length_lt hi hsize hout
  exact ⟨hle, List.mem_append_left _ hmem⟩

namespace Analysis

/-- The tables of a result end in the image, but for what the entry size adds to the last record. An
entry whose record ends behind the image is dropped, and a diagnostic says how many are left. -/
theorem tables_end_in_image {l : Libraries} {c : Config} {cancelled : Bool}
    {image : Array UInt8} {a : Analysis}
    (hrun : run l c cancelled image = .ok a) :
    let h := a.header
    let counts := TableCounts.resolve (h.reader image) h
    (a.segments ≠ [] →
      h.segmentOffset.toNat + a.segments.length * h.segmentEntrySize.toNat ≤
        image.size + (h.segmentEntrySize.toNat - h.elfClass.segmentSize)) ∧
      (a.sections.size ≠ 0 →
        h.sectionOffset.toNat + a.sections.size * h.sectionEntrySize.toNat ≤
          image.size + (h.sectionEntrySize.toNat - h.elfClass.sectionSize)) ∧
      (h.segmentOffset ≠ 0 → h.elfClass.segmentSize ≤ h.segmentEntrySize.toNat →
        ∀ i < counts.segments, image.size <
          h.segmentOffset.toNat + i * h.segmentEntrySize.toNat + h.elfClass.segmentSize →
        a.segments.length ≤ i ∧
          ⟨.programHeaders, .truncatedTable "program headers" a.segments.length counts.segments⟩ ∈
            a.diagnostics) ∧
      (h.sectionOffset ≠ 0 → h.elfClass.sectionSize ≤ h.sectionEntrySize.toNat →
        ∀ i < counts.sections, image.size <
          h.sectionOffset.toNat + i * h.sectionEntrySize.toNat + h.elfClass.sectionSize →
        a.sections.size ≤ i ∧
          ⟨.sectionHeaders, .truncatedTable "section headers" a.sections.size counts.sections⟩ ∈
            a.diagnostics) := by
  obtain ⟨-, -, h, found, -, -, rfl⟩ := run_eq_ok_iff.1 hrun
  refine ⟨Segment.stop_le_of_table_ne_nil, SectionTable.stop_le_of_size_ne_zero, ?_, ?_⟩
  · intro hoffset hsize i hi hout
    obtain ⟨hle, hmem⟩ := Segment.dropped_of_length_lt (r := h.reader image) hi hoffset hsize hout
    exact ⟨hle, mem_diagnostics_of_mem_table hmem⟩
  · intro hoffset hsize i hi hout
    obtain ⟨hle, hmem⟩ := SectionTable.dropped_of_length_lt (r := h.reader image) hi hoffset hsize hout
    exact ⟨hle, mem_diagnostics_of_mem_parse hmem⟩

def paddedHeader (segmentCount : UInt16) : FileHeader :=
  { elfClass := .elf32, order := .little, identVersion := 1, osAbi := 0, abiVersion := 0,
    fileTypeCode := 2, machineCode := 3, version := 1, entry := 0, segmentOffset := 52,
    sectionOffset := 0, flags := 0, headerSize := 52, segmentEntrySize := 40, segmentCount,
    sectionEntrySize := 0, sectionCount := 0, nameTableIndex := 0 }

/-- A file of 124 bytes with that header. It ends with the record of the second entry; the eight bytes
that the entry has behind its record are missing. -/
def paddedImage (segmentCount : UInt16) : Array UInt8 :=
  let first : SegmentRecord := ⟨1, 5, 0, 0x1000, 0x1000, 124, 124, 4096⟩
  let second : SegmentRecord := ⟨4, 4, 84, 0x2000, 0x2000, 8, 8, 4⟩
  (paddedHeader segmentCount).imageWith
    (ByteOrder.little.record (first.fields .elf32) ++ List.replicate 8 0 ++
      ByteOrder.little.record (second.fields .elf32))

theorem parse_paddedImage (segmentCount : UInt16) :
    FileHeader.parse (paddedImage segmentCount) = .ok (paddedHeader segmentCount) := by
  have hzero : ElfClass.elf32.FitsWord 0 := by decide
  have hoffset : ElfClass.elf32.FitsWord 52 := by decide
  exact FileHeader.parse_imageWith ⟨hzero, hoffset, hzero⟩ _

/-- Of three entries the last one is dropped; the others end eight bytes behind the file. -/
theorem tables_end_in_image_padded :
    ∃ a, run External.libraries {} false (paddedImage 3) = .ok a ∧ a.header = paddedHeader 3 ∧
      a.segments.length = 2 ∧
      a.header.segmentOffset.toNat + a.segments.length * a.header.segmentEntrySize.toNat ≤
        (paddedImage 3).size + (a.header.segmentEntrySize.toNat - a.header.elfClass.segmentSize) ∧
      ⟨.programHeaders, .truncatedTable "program headers" 2 3⟩ ∈ a.diagnostics := by
  have hrun : run External.libraries {} false (paddedImage 3) =
      .ok (assemble External.libraries {} (paddedImage 3) (paddedHeader 3) ([], [])) :=
    run_eq_ok_of_parse (by cbv) (parse_paddedImage 3) (by decide +kernel)
  have hlength :
      (assemble External.libraries {} (paddedImage 3) (paddedHeader 3)
        ([], [])).segments.length = 2 := by
    decide +kernel
  obtain ⟨hstop, -, hdropped, -⟩ := tables_end_in_image hrun
  obtain ⟨-, hreport⟩ := hdropped (by decide) (by decide) 2 (by decide +kernel) (by decide +kernel)
  rw [hlength] at hreport
  exact ⟨_, hrun, rfl, hlength, hstop (List.ne_nil_of_length_pos (by omega)), hreport⟩

/-- Of two entries both are kept without a word, though the second one ends behind the file. -/
theorem segments_end_behind_image :
    ∃ a, run External.libraries {} false (paddedImage 2) = .ok a ∧ a.header = paddedHeader 2 ∧
      a.segments.length = 2 ∧
      (paddedImage 2).size <
        a.header.segmentOffset.toNat + a.segments.length * a.header.segmentEntrySize.toNat ∧
      a.diagnostics = [] := by
  have hrun : run External.libraries {} false (paddedImage 2) =
      .ok (assemble External.libraries {} (paddedImage 2) (paddedHeader 2) ([], [])) :=
    run_eq_ok_of_parse (by cbv) (parse_paddedImage 2) (by decide +kernel)
  have hlength :
      (assemble External.libraries {} (paddedImage 2) (paddedHeader 2)
        ([], [])).segments.length = 2 := by
    decide +kernel
  refine ⟨_, hrun, rfl, hlength, ?_, by decide +kernel⟩
  rw [hlength]
  decide +kernel

end Analysis

end ElfAtlas
