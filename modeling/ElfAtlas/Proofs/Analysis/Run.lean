import ElfAtlas.Analysis.Basic
import ElfAtlas.Proofs.Elf.Walk

/-!
What a run returns. Only the settings, the token, the header and the string stage can end a run; past
them the result is put together from the header and the image.
-/

namespace ElfAtlas.Analysis

/-- The result of a run, given the header and what the string stage found. -/
def assemble (l : Libraries) (c : Config) (image : Array UInt8) (header : FileHeader)
    (found : List ExtractedString × List Fault) : Analysis :=
  let r := header.reader image
  let counts := TableCounts.resolve r header
  let segments := Segment.table r header counts.segments
  let sections := SectionTable.parse r header counts
  let symbols := Symbol.extract l.toDemanglers c.demangle r header sections.1
  let relocations := Relocation.extract r header sections.1 symbols.1
  let dynamic := DynamicInfo.parse r header sections.1
  { image
    header
    segments := segments.1
    sections := sections.1
    symbols := symbols.1
    relocations := relocations.1
    dynamic := dynamic.1
    strings := found.1
    sha256 := l.digest image.toList
    diagnostics :=
      diagnose .programHeaders segments.2 ++ diagnose .sectionHeaders sections.2
        ++ diagnose .symbols symbols.2 ++ diagnose .relocations relocations.2
        ++ diagnose .dynamic dynamic.2 ++ diagnose .strings found.2
    config := c }

theorem run_eq_ok_iff {l : Libraries} {c : Config} {cancelled : Bool}
    {image : Array UInt8} {a : Analysis} :
    run l c cancelled image = .ok a ↔
      c.validate = .ok () ∧ cancelled = false ∧ ∃ header found, FileHeader.parse image = .ok header ∧
        stringStage c.strings image
          (SectionTable.parse (header.reader image) header (.resolve (header.reader image) header)).1
          false = .ok found ∧
        assemble l c image header found = a := by
  rw [run, bind_eq_ok_iff]
  cases cancelled with
  | true => simp [bind, Except.bind, throw, throwThe, MonadExceptOf.throw]
  | false =>
      simp only [Bool.false_eq_true, if_false, bind_eq_ok_iff]
      constructor
      · rintro ⟨⟨⟩, hvalid, header, hheader, found, hfound, ha⟩
        cases ha
        exact ⟨hvalid, trivial, header, found, hheader, hfound, rfl⟩
      · rintro ⟨hvalid, -, header, found, hheader, hfound, rfl⟩
        exact ⟨⟨⟩, hvalid, header, hheader, found, hfound, rfl⟩

theorem mem_diagnose {stage : Stage} {faults : List Fault} {d : Diagnostic} :
    d ∈ diagnose stage faults ↔ d.stage = stage ∧ d.fault ∈ faults := by
  simp only [diagnose, List.mem_map]
  constructor
  · rintro ⟨fault, hfault, rfl⟩
    exact ⟨rfl, hfault⟩
  · rintro ⟨rfl, hfault⟩
    exact ⟨d.fault, hfault, rfl⟩

theorem segments_of_run {l : Libraries} {c : Config} {cancelled : Bool}
    {image : Array UInt8} {a : Analysis}
    (hrun : run l c cancelled image = .ok a) :
    a.segments = (Segment.table (a.header.reader image) a.header
      (TableCounts.resolve (a.header.reader image) a.header).segments).1 := by
  obtain ⟨-, -, header, found, -, -, rfl⟩ := run_eq_ok_iff.1 hrun
  rfl

theorem sections_of_run {l : Libraries} {c : Config} {cancelled : Bool}
    {image : Array UInt8} {a : Analysis}
    (hrun : run l c cancelled image = .ok a) :
    a.sections = (SectionTable.parse (a.header.reader image) a.header
      (TableCounts.resolve (a.header.reader image) a.header)).1 := by
  obtain ⟨-, -, header, found, -, -, rfl⟩ := run_eq_ok_iff.1 hrun
  rfl

variable {l : Libraries} {c : Config} {image : Array UInt8} {h : FileHeader}
  {found : List ExtractedString × List Fault} {fault : Fault}

theorem mem_diagnostics_of_mem_table
    (hfault : fault ∈
      (Segment.table (h.reader image) h (TableCounts.resolve (h.reader image) h).segments).2) :
    ⟨.programHeaders, fault⟩ ∈ (assemble l c image h found).diagnostics := by
  have : ⟨.programHeaders, fault⟩ ∈ diagnose .programHeaders _ := mem_diagnose.2 ⟨rfl, hfault⟩
  simp only [assemble, List.mem_append, this, true_or]

theorem mem_diagnostics_of_mem_parse
    (hfault : fault ∈ (SectionTable.parse (h.reader image) h (.resolve (h.reader image) h)).2) :
    ⟨.sectionHeaders, fault⟩ ∈ (assemble l c image h found).diagnostics := by
  have : ⟨.sectionHeaders, fault⟩ ∈ diagnose .sectionHeaders _ := mem_diagnose.2 ⟨rfl, hfault⟩
  simp only [assemble, List.mem_append, this, true_or, or_true]

end ElfAtlas.Analysis
