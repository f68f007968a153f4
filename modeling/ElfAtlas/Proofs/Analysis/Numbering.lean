import ElfAtlas.Proofs.Analysis.Completeness
import ElfAtlas.Proofs.Analysis.Outcome

/-!
Numbers too large for the header stand in the record of section 0. Where that record is not in the file
the header's own fields are taken, and then a count of zero is believed: such a table is empty without a
word.
-/

namespace ElfAtlas

variable {r : Reader} {h : FileHeader}

/-- Without the record of section 0 the counts are those of the header, escape values among them. -/
theorem TableCounts.resolve_of_zero_out
    (hout : r.length < h.sectionOffset.toNat + h.elfClass.sectionSize) :
    resolve r h = ⟨h.segmentCount.toNat, h.sectionCount.toNat, h.nameTableIndex.toNat⟩ := by
  have hcontains : r.contains h.sectionOffset.toNat h.elfClass.sectionSize = false := by
    rw [← Bool.not_eq_true, Reader.contains_eq_true_iff]
    omega
  obtain ⟨fault, hdecode, -⟩ :=
    ((Reader.Continues.refl r).sectionRecord h.elfClass h.sectionOffset.toNat).exists_error hcontains
  simp only [resolve, hdecode, Except.toOption, ite_self]

theorem SectionTable.parse_of_zero_out (hoffset : h.sectionOffset ≠ 0)
    (hout : r.length < h.sectionOffset.toNat + h.elfClass.sectionSize) (counts : TableCounts) :
    parse r h counts =
      ({}, if counts.sections = 0 then []
        else if h.sectionEntrySize.toNat < h.elfClass.sectionSize then
          [.entryTooSmall "section headers" h.elfClass.sectionSize h.sectionEntrySize.toNat]
        else [.truncatedTable "section headers" 0 counts.sections]) := by
  rw [parse, if_neg hoffset, TableLayout.walk_of_first_out h.sectionOffset.toNat_lt hout]
  exact congrArg (Prod.mk _) (List.append_nil _)

namespace Analysis

/-- A run over a file that ends before the record of section 0 has a result without sections. The stage
of the section headers reports that, except where the header says that the count of the sections stands
in that record: then the stage is silent. -/
theorem run_of_zero_out {l : Libraries} {c : Config} {image : Array UInt8} {h : FileHeader}
    (hvalid : c.validate = .ok ()) (hparse : FileHeader.parse image = .ok h)
    (hoffset : h.sectionOffset ≠ 0)
    (hout : image.size < h.sectionOffset.toNat + h.elfClass.sectionSize) :
    ∃ a, run l c false image = .ok a ∧ a.header = h ∧ a.sections.toList = [] ∧
      a.segments = (Segment.table (h.reader image) h h.segmentCount.toNat).1 ∧
      a.diagnostics.filter (·.stage = .sectionHeaders) =
        diagnose .sectionHeaders
          (if h.sectionCount = 0 then []
            else if h.sectionEntrySize.toNat < h.elfClass.sectionSize then
              [.entryTooSmall "section headers" h.elfClass.sectionSize h.sectionEntrySize.toNat]
            else [.truncatedTable "section headers" 0 h.sectionCount.toNat]) := by
  obtain ⟨found, hrun, -⟩ := exists_run_eq_ok hvalid hparse
  let counts : TableCounts := ⟨h.segmentCount.toNat, h.sectionCount.toNat, h.nameTableIndex.toNat⟩
  have hcounts : TableCounts.resolve (h.reader image) h = counts :=
    TableCounts.resolve_of_zero_out hout
  have htable := SectionTable.parse_of_zero_out (r := h.reader image) hoffset hout counts
  refine ⟨_, hrun, rfl, ?_, ?_, ?_⟩
  · rw [sections_of_run hrun]
    change (SectionTable.parse (h.reader image) h (.resolve (h.reader image) h)).1.toList = []
    rw [hcounts, htable]
    rfl
  · rw [segments_of_run hrun]
    change (Segment.table _ h (TableCounts.resolve (h.reader image) h).segments).1 = _
    rw [hcounts]
    rfl
  · have hpart : (.sectionHeaders, (SectionTable.parse (h.reader image) h counts).2) ∈
        stageFaults l c image h found := by
      rw [← hcounts]
      exact .tail _ (.head _)
    have hzero : counts.sections = 0 ↔ h.sectionCount = 0 := UInt16.toNat_inj (b := 0)
    rw [filter_diagnostics_assemble hpart, htable]
    simp only [hzero]
    rfl

/-- Two sections are declared whose name table is too large a number for the header; the file ends one
byte before the record of section 0 does. -/
theorem run_of_zero_out_by_one_byte :
    let header : FileHeader :=
      { elfClass := .elf64, order := .little, identVersion := 1, osAbi := 0, abiVersion := 0,
        fileTypeCode := 1, machineCode := 62, version := 1, entry := 0, segmentOffset := 0,
        sectionOffset := 64, flags := 0, headerSize := 64, segmentEntrySize := 56, segmentCount := 0,
        sectionEntrySize := 64, sectionCount := 2, nameTableIndex := 0xffff }
    let image := header.imageWith (List.replicate 63 0)
    ∃ a, run External.libraries {} false image = .ok a ∧ a.header = header ∧
      a.sections.toList = [] ∧
      a.segments = (Segment.table (header.reader image) header header.segmentCount.toNat).1 ∧
      a.diagnostics.filter (·.stage = .sectionHeaders) =
        [⟨.sectionHeaders, .truncatedTable "section headers" 0 2⟩] := by
  intro header image
  have hparse : FileHeader.parse image = .ok header :=
    FileHeader.parse_imageWith ⟨by decide, by decide, by decide⟩ _
  exact run_of_zero_out (c := {}) (by cbv) hparse (by decide) (by decide +kernel)

/-- The file is its header. All of its numbers stand in a record of section 0 that is not there, and
nothing says so. -/
theorem run_of_zero_out_silent :
    let header : FileHeader :=
      { elfClass := .elf64, order := .little, identVersion := 1, osAbi := 0, abiVersion := 0,
        fileTypeCode := 1, machineCode := 62, version := 1, entry := 0, segmentOffset := 0,
        sectionOffset := 64, flags := 0, headerSize := 64, segmentEntrySize := 56, segmentCount := 0,
        sectionEntrySize := 64, sectionCount := 0, nameTableIndex := 0xffff }
    let image := header.imageWith []
    ∃ a, run External.libraries {} false image = .ok a ∧ a.header = header ∧
      header.nameTableIndex = TableCounts.escape ∧
      image.size < header.sectionOffset.toNat + header.elfClass.sectionSize ∧
      a.diagnostics = [] := by
  intro header image
  have hparse : FileHeader.parse image = .ok header :=
    FileHeader.parse_imageWith ⟨by decide, by decide, by decide⟩ _
  have hrun : run External.libraries {} false image =
      .ok (assemble External.libraries {} image header ([], [])) :=
    run_eq_ok_of_parse (by cbv) hparse (by decide +kernel)
  exact ⟨_, hrun, rfl, rfl, by decide +kernel, by decide +kernel⟩

end Analysis

end ElfAtlas
