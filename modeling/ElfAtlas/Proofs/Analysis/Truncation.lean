import ElfAtlas.Proofs.Analysis.Completeness
import ElfAtlas.Proofs.Analysis.Outcome
import ElfAtlas.Proofs.Elf.Tables

/-!
What a cut does to a run. As long as the header stays and its counts stand in its own fields, the run
over what is left still has a result; its tables are shorter, and it says so.
-/

namespace ElfAtlas.Analysis

/-- A run over a cut that holds the header keeps the first of the segments and the first of the
sections; only names of sections may become empty. Where it keeps fewer of them it says how many. -/
theorem run_of_prefix {l : Libraries} {c : Config} {image cut : Array UInt8} {h : FileHeader}
    (hvalid : c.validate = .ok ()) (hparse : FileHeader.parse image = .ok h) (hplain : h.IsPlain)
    (hcut : cut.toList <+: image.toList) (hsize : h.elfClass.headerSize ≤ cut.size) :
    ∃ a a', run l c false image = .ok a ∧ run l c false cut = .ok a' ∧ a.header = h ∧ a'.header = h ∧
      a'.segments <+: a.segments ∧
      (∀ i s', a'.sections.get? i = some s' →
        ∃ s, a.sections.get? i = some s ∧ s' = { s with name := s'.name } ∧
          (s'.name = s.name ∨ s'.name = "")) ∧
      (a'.segments.length < a.segments.length →
        ⟨.programHeaders, .truncatedTable "program headers" a'.segments.length h.segmentCount.toNat⟩ ∈
          a'.diagnostics) ∧
      (a'.sections.size < a.sections.size →
        ⟨.sectionHeaders, .truncatedTable "section headers" a'.sections.size h.sectionCount.toNat⟩ ∈
          a'.diagnostics) := by
  obtain ⟨found, hrun, -⟩ := exists_run_eq_ok hvalid hparse
  obtain ⟨found', hrun', -⟩ :=
    exists_run_eq_ok hvalid (FileHeader.parse_eq_ok_of_prefix hparse hcut hsize)
  have hr : (h.reader image).Continues (h.reader cut) := ⟨rfl, hcut⟩
  let counts : TableCounts := ⟨h.segmentCount.toNat, h.sectionCount.toNat, h.nameTableIndex.toNat⟩
  have hcounts (image : Array UInt8) : TableCounts.resolve (h.reader image) h = counts :=
    TableCounts.resolve_of_isPlain hplain
  have hsegments (image : Array UInt8) (found : List ExtractedString × List Fault) :
      (assemble l c image h found).segments = (Segment.table (h.reader image) h counts.segments).1 := by
    rw [← hcounts image]
    rfl
  have hsections (image : Array UInt8) (found : List ExtractedString × List Fault) :
      (assemble l c image h found).sections = (SectionTable.parse (h.reader image) h counts).1 := by
    rw [← hcounts image]
    rfl
  refine ⟨_, _, hrun, hrun', rfl, rfl, ?_, ?_, ?_, ?_⟩
  · rw [hsegments, hsegments]
    exact Segment.table_prefix hr h counts.segments
  · rw [hsections, hsections]
    exact fun i s' => SectionTable.get?_parse_of_continues hr h counts
  · rw [hsegments, hsegments]
    intro hlt
    refine mem_diagnostics_of_mem_table ?_
    rw [hcounts]
    exact Segment.truncated_mem_table hlt
  · rw [hsections, hsections]
    intro hlt
    refine mem_diagnostics_of_mem_parse ?_
    rw [hcounts]
    exact SectionTable.truncated_mem_parse hlt

/-- Three sections, then two segments, then the names of the sections; cut in the second segment. -/
theorem run_of_prefix_second_segment :
    let header : FileHeader :=
      { elfClass := .elf32, order := .little, identVersion := 1, osAbi := 0, abiVersion := 0,
        fileTypeCode := 1, machineCode := 3, version := 1, entry := 0, segmentOffset := 172,
        sectionOffset := 52, flags := 0, headerSize := 52, segmentEntrySize := 32, segmentCount := 2,
        sectionEntrySize := 40, sectionCount := 3, nameTableIndex := 2 }
    let sections : List SectionRecord :=
      [⟨0, 0, 0, 0, 0, 0, 0, 0, 0, 0⟩, ⟨1, 1, 0, 0, 236, 0, 0, 0, 1, 0⟩,
        ⟨7, 3, 0, 0, 236, 17, 0, 0, 1, 0⟩]
    let segments : List SegmentRecord :=
      [⟨1, 5, 0, 0x1000, 0x1000, 253, 253, 4096⟩, ⟨1, 4, 0, 0x2000, 0x2000, 253, 253, 4096⟩]
    let names : List UInt8 :=
      [0, 0x2e, 0x74, 0x65, 0x78, 0x74, 0, 0x2e, 0x73, 0x68, 0x73, 0x74, 0x72, 0x74, 0x61, 0x62, 0]
    let image := header.imageWith
      ((sections.flatMap fun s : SectionRecord => ByteOrder.little.record (s.fields .elf32)) ++
        (segments.flatMap fun s : SegmentRecord => ByteOrder.little.record (s.fields .elf32)) ++
        names)
    let cut := image.extract 0 212
    ∃ a a', run External.libraries {} false image = .ok a ∧
      run External.libraries {} false cut = .ok a' ∧ a'.header = header ∧
      a.segments.length = 2 ∧ a'.segments.length = 1 ∧ a'.segments <+: a.segments ∧
      (a.sections.get? 1).map (·.name) = some ".text" ∧ a'.sections.size = 3 ∧
      (a'.sections.get? 1).map (·.name) = some "" ∧
      ⟨.programHeaders, .truncatedTable "program headers" 1 2⟩ ∈ a'.diagnostics := by
  intro header sections segments names image cut
  have hparse : FileHeader.parse image = .ok header :=
    FileHeader.parse_imageWith ⟨by decide, by decide, by decide⟩ _
  have hplain : header.IsPlain := ⟨by decide, by decide, by decide⟩
  have hcut : cut.toList <+: image.toList := by
    rw [Array.toList_extract, List.extract_eq_take_drop]
    exact List.take_prefix 212 image.toList
  obtain ⟨a, a', hrun, hrun', hheader, hheader', hprefix, -, htruncated, -⟩ :=
    run_of_prefix (c := {}) (by cbv) hparse hplain hcut (by decide +kernel)
  have hsegments := segments_of_run hrun
  have hsegments' := segments_of_run hrun'
  have hsections := sections_of_run hrun
  have hsections' := sections_of_run hrun'
  rw [hheader] at hsegments hsections
  rw [hheader'] at hsegments' hsections'
  have hwhole : a.segments.length = 2 := by
    rw [hsegments]
    decide +kernel
  have hleft : a'.segments.length = 1 := by
    rw [hsegments']
    decide +kernel
  refine ⟨a, a', hrun, hrun', hheader', hwhole, hleft, hprefix, ?_, ?_, ?_, ?_⟩
  · rw [hsections]
    decide +kernel
  · rw [hsections']
    decide +kernel
  · rw [hsections']
    decide +kernel
  · rw [← hleft]
    exact htruncated (by omega)

end ElfAtlas.Analysis
