import ElfAtlas.External
import ElfAtlas.Proofs.Analysis.Run
import ElfAtlas.Proofs.Elf.Completeness
import ElfAtlas.Proofs.Elf.HeaderEncoding

/-!
A run without structural diagnostics is complete: each table has the entries that its header or its
section declares.
-/

namespace ElfAtlas

def Stage.isStructural : Stage → Bool
  | programHeaders | sectionHeaders | symbols | relocations => true
  | _ => false

namespace Analysis

theorem eq_nil_of_isStructural {stage : Stage} {faults : List Fault}
    (hstage : stage.isStructural = true)
    (h : ∀ d ∈ diagnose stage faults, d.stage.isStructural = false) : faults = [] := by
  refine List.eq_nil_iff_forall_not_mem.2 fun fault hfault => ?_
  have := h ⟨stage, fault⟩ (mem_diagnose.2 ⟨rfl, hfault⟩)
  simp [hstage] at this

/-- Without structural diagnostics nothing is missing. There are as many segments and sections as the
resolved counts say. A symbol table yields all its entries but the reserved first, each once and in
order; a relocation table yields as many relocations as its size has room for. -/
theorem run_complete {l : Libraries} {c : Config} {cancelled : Bool}
    {image : Array UInt8} {a : Analysis}
    (hrun : run l c cancelled image = .ok a)
    (hsilent : ∀ d ∈ a.diagnostics, d.stage.isStructural = false) :
    let counts := TableCounts.resolve (a.header.reader image) a.header
    (a.header.segmentOffset ≠ 0 → a.segments.length = counts.segments) ∧
      (a.header.sectionOffset ≠ 0 → a.sections.size = counts.sections) ∧
      (∀ s ∈ a.sections.toList, s.kind = .symtab ∨ s.kind = .dynsym →
        (a.symbols.filter (·.tableSection = s.index)).map (·.index) =
          List.range' 1 (s.size.toNat / s.stride a.header.elfClass.symbolSize - 1)) ∧
      ∀ s ∈ a.sections.toList, ∀ withAddend, s.kind = (if withAddend then .rela else .rel) →
        (a.relocations.filter (·.sectionIndex = s.index)).length =
          s.size.toNat / s.stride (a.header.elfClass.relocationSize withAddend) := by
  obtain ⟨-, -, header, found, -, -, rfl⟩ := run_eq_ok_iff.1 hrun
  simp only [assemble, List.mem_append, or_imp, forall_and] at hsilent
  obtain ⟨⟨⟨⟨⟨hsegments, hsections⟩, hsymbols⟩, hrelocations⟩, -⟩, -⟩ := hsilent
  replace hsegments := eq_nil_of_isStructural rfl hsegments
  replace hsections := eq_nil_of_isStructural rfl hsections
  replace hsymbols := eq_nil_of_isStructural rfl hsymbols
  replace hrelocations := eq_nil_of_isStructural rfl hrelocations
  have hindex := SectionTable.pairwise_index_parse (header.reader image) header
    (.resolve (header.reader image) header)
  refine ⟨fun hoffset => Segment.length_table hoffset hsegments,
    fun hoffset => SectionTable.size_parse hoffset hsections, ?_, ?_⟩
  · intro s hs hkind
    have hrequires : s.kind.requiresLink = true := by
      obtain hkind | hkind := hkind <;> rw [hkind] <;> rfl
    exact Symbol.map_index_extract hsymbols hindex hs hkind
      (SectionTable.link_lt_size hsections hs hrequires)
  · intro s hs withAddend hkind
    have hrequires : s.kind.requiresLink = true := by
      cases withAddend <;> rw [hkind] <;> rfl
    exact Relocation.length_extract hrelocations hindex hs hkind
      (SectionTable.link_lt_size hsections hs hrequires)

theorem eq_ok_of_toOption {α : Type} {x : Except Fault α} {a : α} (h : x.toOption = some a) :
    x = .ok a :=
  toOption_eq_some_iff.1 h

/-- A run whose header and strings are known is put together from them. -/
theorem run_eq_ok_of_parse {l : Libraries} {c : Config} {image : Array UInt8} {header : FileHeader}
    {found : List ExtractedString × List Fault} (hvalid : c.validate = .ok ())
    (hparse : FileHeader.parse image = .ok header)
    (hfound : (stringStage c.strings image
      (SectionTable.parse (header.reader image) header (.resolve (header.reader image) header)).1
      false).toOption = some found) :
    run l c false image = .ok (assemble l c image header found) :=
  run_eq_ok_iff.2 ⟨hvalid, rfl, header, found, hparse, eq_ok_of_toOption hfound, rfl⟩

/-- An object with one segment, a symbol table of three entries and a table of two relocations. -/
theorem run_complete_object :
    let header : FileHeader :=
      { elfClass := .elf32, order := .little, identVersion := 1, osAbi := 0, abiVersion := 0,
        fileTypeCode := 1, machineCode := 3, version := 1, entry := 0, segmentOffset := 52,
        sectionOffset := 84, flags := 0, headerSize := 52, segmentEntrySize := 32, segmentCount := 1,
        sectionEntrySize := 40, sectionCount := 3, nameTableIndex := 0 }
    let segments : List SegmentRecord := [⟨1, 5, 0, 0x1000, 0x1000, 268, 268, 4096⟩]
    let sections : List SectionRecord :=
      [⟨0, 0, 0, 0, 0, 0, 0, 0, 0, 0⟩, ⟨0, 2, 0, 0, 204, 48, 0, 0, 4, 0⟩,
        ⟨0, 9, 0, 0, 252, 16, 1, 0, 4, 8⟩]
    let image := header.imageWith
      ((segments.flatMap fun s : SegmentRecord => ByteOrder.little.record (s.fields .elf32)) ++
        (sections.flatMap fun s : SectionRecord => ByteOrder.little.record (s.fields .elf32)) ++
        List.replicate 64 0)
    let c : Config := { strings := { scope := .ofSection ".rodata" } }
    ∃ a, run External.libraries c false image = .ok a ∧ a.header = header ∧ a.diagnostics = [] ∧
      a.segments.length = 1 ∧ a.sections.size = 3 ∧
      (a.symbols.filter (·.tableSection = 1)).map (·.index) = [1, 2] ∧
      (a.relocations.filter (·.sectionIndex = 2)).length = 2 := by
  intro header segments sections image c
  have hparse : FileHeader.parse image = .ok header :=
    FileHeader.parse_imageWith ⟨by decide, by decide, by decide⟩ _
  have hrun : run External.libraries c false image =
      .ok (assemble External.libraries c image header ([], [])) :=
    run_eq_ok_of_parse (by cbv) hparse (by decide +kernel)
  have hsilent : (assemble External.libraries c image header ([], [])).diagnostics = [] := by
    decide +kernel
  obtain ⟨hsegments, hsections, hsymbols, hrelocations⟩ := run_complete hrun (by simp [hsilent])
  refine ⟨_, hrun, rfl, hsilent, ?_, ?_, ?_, ?_⟩
  · exact (hsegments (by decide +kernel)).trans (by decide +kernel)
  · exact (hsections (by decide +kernel)).trans (by decide +kernel)
  · have := hsymbols (.ofRecord 1 "" sections[1]) (by decide +kernel) (.inl rfl)
    exact this.trans (by decide +kernel)
  · have := hrelocations (.ofRecord 2 "" sections[2]) (by decide +kernel) false rfl
    exact this.trans (by decide +kernel)

end Analysis

end ElfAtlas
