import ElfAtlas.Proofs.Analysis.Run
import ElfAtlas.Proofs.Elf.Completeness
import ElfAtlas.Proofs.Elf.Faults
import ElfAtlas.Proofs.Elf.Header
import ElfAtlas.Proofs.Strings.Distinct

/-!
How a run can end. Bad settings, cancellation and a bad header end it with a fatal fault, in this order
of precedence; otherwise there is a result, and what went wrong in its tables stands in diagnostics that
are not fatal and come stage by stage.
-/

namespace ElfAtlas

def Analysis.stages : List Stage :=
  [.programHeaders, .sectionHeaders, .symbols, .relocations, .dynamic, .strings]

theorem Config.eq_badConfig_of_validate {c : Config} {fault : Fault} (h : c.validate = .error fault) :
    ∃ detail, fault = .badConfig detail := by
  rw [validate] at h
  split at h
  · cases h
  · cases h
    exact ⟨_, rfl⟩

namespace Analysis

variable {l : Libraries} {c : Config} {cancelled : Bool} {image : Array UInt8} {h : FileHeader}
  {fault : Fault}

theorem isRange_of_scopedStrings {s : StringsConfig} {t : SectionTable}
    (hstrings : scopedStrings s image t false = .error fault) : fault.IsRange := by
  rw [scopedStrings] at hstrings
  split at hstrings
  · rw [ExtractedString.ofData_eq] at hstrings
    cases hstrings
  · split at hstrings
    · rw [ExtractedString.ofSection] at hstrings
      split at hstrings
      · rw [bind_eq_error_iff] at hstrings
        obtain hslice | ⟨data, -, hdata⟩ := hstrings
        · exact Reader.isRange_of_slice hslice
        · rw [ExtractedString.ofData_eq] at hdata
          cases hdata
      · cases hstrings
    · cases hstrings

/-- Without cancellation the string stage has a result. -/
theorem exists_stringStage (s : StringsConfig) (image : Array UInt8) (t : SectionTable) :
    ∃ found, stringStage s image t false = .ok found ∧ ∀ fault ∈ found.2, fault.isFatal = false := by
  cases hstrings : scopedStrings s image t false with
  | ok strings => exact ⟨(strings, []), by rw [stringStage, hstrings], List.forall_mem_nil _⟩
  | error fault =>
      have hrange := isRange_of_scopedStrings hstrings
      refine ⟨([], [fault]), ?_, List.forall_mem_singleton.2 hrange.isFatal_eq_false⟩
      rw [stringStage, hstrings]
      cases fault with
      | cancelled => exact hrange.elim
      | _ => rfl

/-- Past the header a run always has a result. -/
theorem exists_run_eq_ok (hvalid : c.validate = .ok ()) (hparse : FileHeader.parse image = .ok h) :
    ∃ found, run l c false image = .ok (assemble l c image h found) ∧
      ∀ fault ∈ found.2, fault.isFatal = false := by
  obtain ⟨found, hfound, hfaults⟩ := exists_stringStage c.strings image
    (SectionTable.parse (h.reader image) h (.resolve (h.reader image) h)).1
  exact ⟨found, run_eq_ok_iff.2 ⟨hvalid, rfl, h, found, hparse, hfound, rfl⟩, hfaults⟩

theorem run_of_validate_error (hvalid : c.validate = .error fault) :
    run l c cancelled image = .error fault := by
  rw [run, hvalid]
  rfl

theorem run_of_cancelled (hvalid : c.validate = .ok ()) : run l c true image = .error .cancelled := by
  rw [run, hvalid]
  rfl

theorem run_of_parse_error (hvalid : c.validate = .ok ())
    (hparse : FileHeader.parse image = .error fault) : run l c false image = .error fault := by
  rw [run, hvalid]
  simp only [Bool.false_eq_true, if_false, hparse]
  rfl

variable {found : List ExtractedString × List Fault}

theorem isFatal_of_mem_diagnostics (hfound : ∀ fault ∈ found.2, fault.isFatal = false) :
    ∀ d ∈ (assemble l c image h found).diagnostics, d.fault.isFatal = false := by
  have hdiagnose {stage : Stage} {faults : List Fault}
      (hfaults : ∀ fault ∈ faults, fault.isFatal = false) :
      ∀ d ∈ diagnose stage faults, d.fault.isFatal = false :=
    fun d hd => hfaults d.fault (mem_diagnose.1 hd).2
  simp only [assemble, List.forall_mem_append]
  exact ⟨⟨⟨⟨⟨hdiagnose (Segment.isFatal_of_mem_table _),
    hdiagnose (SectionTable.isFatal_of_mem_parse _)⟩, hdiagnose (Symbol.isFatal_of_mem_extract _ _)⟩,
    hdiagnose (Relocation.isFatal_of_mem_extract _)⟩, hdiagnose DynamicInfo.isFatal_of_mem_parse⟩,
    hdiagnose hfound⟩

def stageFaults (l : Libraries) (c : Config) (image : Array UInt8) (h : FileHeader)
    (found : List ExtractedString × List Fault) : List (Stage × List Fault) :=
  let r := h.reader image
  let counts := TableCounts.resolve r h
  let sections := SectionTable.parse r h counts
  let symbols := Symbol.extract l.toDemanglers c.demangle r h sections.1
  [(.programHeaders, (Segment.table r h counts.segments).2), (.sectionHeaders, sections.2),
    (.symbols, symbols.2), (.relocations, (Relocation.extract r h sections.1 symbols.1).2),
    (.dynamic, (DynamicInfo.parse r h sections.1).2), (.strings, found.2)]

theorem diagnostics_assemble :
    (assemble l c image h found).diagnostics =
      (stageFaults l c image h found).flatMap fun part => diagnose part.1 part.2 := by
  simp only [stageFaults, List.flatMap_cons, List.flatMap_nil, List.append_nil, ← List.append_assoc]
  rfl

/-- The diagnostics of a stage are what the stage reports. -/
theorem filter_diagnostics_assemble {part : Stage × List Fault}
    (hpart : part ∈ stageFaults l c image h found) :
    (assemble l c image h found).diagnostics.filter (·.stage = part.1) = diagnose part.1 part.2 := by
  have hstages : ((stageFaults l c image h found).map (·.1)).Nodup := by
    change stages.Nodup
    decide
  have hstage (part : Stage × List Fault) : ∀ d ∈ diagnose part.1 part.2, d.stage = part.1 :=
    fun d hd => (mem_diagnose.1 hd).1
  rw [diagnostics_assemble]
  exact filter_flatMap_of_key (List.pairwise_map.1 hstages) hstage hpart

/-- Diagnostics are those of the first stage, then those of the second, and so on. -/
theorem diagnostics_assemble_by_stage :
    (assemble l c image h found).diagnostics =
      stages.flatMap fun stage =>
        (assemble l c image h found).diagnostics.filter (·.stage = stage) := by
  have hstages : stages = (stageFaults l c image h found).map (·.1) := rfl
  rw [hstages, List.flatMap_map]
  refine diagnostics_assemble.trans (List.flatMap_congr fun part hpart => ?_)
  exact (filter_diagnostics_assemble hpart).symm

/-- How a run ends: with bad settings, cancelled, with a bad header, or with a result. -/
theorem run_cases (l : Libraries) (c : Config) (cancelled : Bool) (image : Array UInt8) :
    (∃ detail, c.validate = .error (.badConfig detail) ∧
      run l c cancelled image = .error (.badConfig detail)) ∨
    (c.validate = .ok () ∧ cancelled = true ∧ run l c cancelled image = .error .cancelled) ∨
    (c.validate = .ok () ∧ cancelled = false ∧ ∃ fault, FileHeader.parse image = .error fault ∧
      run l c cancelled image = .error fault) ∨
    (c.validate = .ok () ∧ cancelled = false ∧ ∃ h found, FileHeader.parse image = .ok h ∧
      run l c cancelled image = .ok (assemble l c image h found) ∧
      ∀ fault ∈ found.2, fault.isFatal = false) := by
  cases hvalid : c.validate with
  | error fault =>
      obtain ⟨detail, rfl⟩ := Config.eq_badConfig_of_validate hvalid
      exact .inl ⟨detail, rfl, run_of_validate_error hvalid⟩
  | ok valid =>
      refine .inr ?_
      cases cancelled with
      | true => exact .inl ⟨rfl, rfl, run_of_cancelled hvalid⟩
      | false =>
          refine .inr ?_
          cases hparse : FileHeader.parse image with
          | error fault => exact .inl ⟨rfl, rfl, fault, rfl, run_of_parse_error hvalid hparse⟩
          | ok h =>
              obtain ⟨found, hrun, hfound⟩ := exists_run_eq_ok hvalid hparse
              exact .inr ⟨rfl, rfl, h, found, rfl, hrun, hfound⟩

/-- A run fails with the fault of bad settings, of cancellation or of a bad header, in this order of
precedence, and every such fault is fatal. Otherwise it has a result; the diagnostics of a result are not
fatal, and they are those of the program headers, then those of the section headers, of the symbols, of
the relocations, of the dynamic section and of the strings. -/
theorem run_outcome (l : Libraries) (c : Config) (cancelled : Bool) (image : Array UInt8) :
    ((∃ detail, run l c cancelled image = .error (.badConfig detail)) ↔ c.validate ≠ .ok ()) ∧
      (run l c cancelled image = .error .cancelled ↔ c.validate = .ok () ∧ cancelled = true) ∧
      (c.validate = .ok () → cancelled = false → ∀ fault,
        run l c cancelled image = .error fault ↔ FileHeader.parse image = .error fault) ∧
      (∀ fault, FileHeader.parse image = .error fault → fault.IsOfHeader) ∧
      ((∃ a, run l c cancelled image = .ok a) ↔
        c.validate = .ok () ∧ cancelled = false ∧ ∃ h, FileHeader.parse image = .ok h) ∧
      (∀ fault, run l c cancelled image = .error fault → fault.isFatal = true) ∧
      ∀ a, run l c cancelled image = .ok a →
        (∀ d ∈ a.diagnostics, d.fault.isFatal = false) ∧
          a.diagnostics = stages.flatMap fun stage => a.diagnostics.filter (·.stage = stage) := by
  have hheader {fault : Fault} (hparse : FileHeader.parse image = .error fault) : fault.IsOfHeader :=
    FileHeader.isOfHeader_of_parse hparse
  obtain ⟨detail, hvalid, hrun⟩ | ⟨hvalid, hcancelled, hrun⟩ |
    ⟨hvalid, hcancelled, fault, hparse, hrun⟩ | ⟨hvalid, hcancelled, h, found, hparse, hrun, hfound⟩ :=
    run_cases l c cancelled image
  · rw [hrun, hvalid]
    refine ⟨by simp, by simp, by simp, fun _ => hheader, by simp, ?_, ?_⟩
    · rintro _ ⟨⟩
      rfl
    · rintro _ ⟨⟩
  · rw [hrun, hvalid, hcancelled]
    refine ⟨by simp, by simp, by simp, fun _ => hheader, by simp, ?_, ?_⟩
    · rintro _ ⟨⟩
      rfl
    · rintro _ ⟨⟩
  · have hconfig (detail : String) : fault ≠ .badConfig detail := by
      rintro rfl
      exact hheader hparse
    have htoken : fault ≠ .cancelled := by
      rintro rfl
      exact hheader hparse
    rw [hrun, hvalid, hcancelled, hparse]
    refine ⟨by simp [hconfig], by simp [htoken], by simp, ?_, by simp, ?_, ?_⟩
    · rintro _ ⟨⟩
      exact hheader hparse
    · rintro _ ⟨⟩
      exact (hheader hparse).isFatal_eq_true
    · rintro _ ⟨⟩
  · rw [hrun, hvalid, hcancelled, hparse]
    refine ⟨by simp, by simp, by simp, ?_, by simp, ?_, ?_⟩
    · rintro _ ⟨⟩
    · rintro _ ⟨⟩
    · rintro _ ⟨⟩
      exact ⟨isFatal_of_mem_diagnostics hfound, diagnostics_assemble_by_stage⟩

end Analysis

end ElfAtlas
