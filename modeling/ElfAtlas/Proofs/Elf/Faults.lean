import ElfAtlas.Proofs.Elf.Tables

/-!
No fault that the tables of a file meet is fatal. A record that cannot be read ends in a fault of its
range, and what the walks and the section pass add are reports of what is missing.
-/

namespace ElfAtlas

variable {r : Reader} {h : FileHeader} {t : SectionTable} {fault : Fault}

theorem Segment.isFatal_of_mem_table (count : Nat) :
    ∀ fault ∈ (table r h count).2, fault.isFatal = false := by
  rw [table_eq_walk]
  refine TableLayout.isFatal_of_mem_walk fun offset i fault hdecode => ?_
  exact (((Reader.Continues.refl r).segment _ offset i).isRange_of_error hdecode).isFatal_eq_false

namespace SectionTable

theorem isFatal_of_mem_sectionFaults {count : Nat} {s : Section}
    (hfault : fault ∈ sectionFaults count s) : fault.isFatal = false := by
  rw [sectionFaults, List.mem_append] at hfault
  obtain hfault | hfault := hfault
  · split at hfault
    · rw [List.mem_singleton.1 hfault]
      rfl
    · cases hfault
  · split at hfault
    · rw [List.mem_singleton.1 hfault]
      rfl
    · cases hfault

theorem isFatal_of_mem_parse (counts : TableCounts) :
    ∀ fault ∈ (parse r h counts).2, fault.isFatal = false := by
  rw [parse_eq_ofRecords]
  refine List.forall_mem_append.2 ⟨?_, ?_⟩
  · refine TableLayout.isFatal_of_mem_walk fun offset i fault hdecode => ?_
    exact (((Reader.Continues.refl r).sectionRecord _ offset).isRange_of_error hdecode).isFatal_eq_false
  · intro fault hfault
    obtain ⟨s, -, hfault⟩ := List.mem_flatMap.1 hfault
    exact isFatal_of_mem_sectionFaults hfault

end SectionTable

namespace Symbol

theorem isRange_of_readSectionIndex {companion : Option Section} {field : UInt16} {index : Nat}
    (hread : readSectionIndex r companion field index = .error fault) : fault.IsRange := by
  cases companion with
  | none => cases hread
  | some x =>
      rw [readSectionIndex] at hread
      split at hread
      · rw [bind_eq_error_iff] at hread
        obtain hread | ⟨position, -, hread⟩ := hread
        · exact isRange_of_entryOffset hread
        · split at hread <;> cases hread
      · cases hread

theorem isRange_of_decode {d : Demanglers} {demangles : Bool} {c : ElfClass} {source : Source}
    {offset index : Nat}
    (hdecode : decode d demangles c r source offset index = .error fault) : fault.IsRange := by
  rw [decode, bind_eq_error_iff] at hdecode
  obtain hdecode | ⟨record, -, hdecode⟩ := hdecode
  · exact ((Reader.Continues.refl r).symbolRecord c offset).isRange_of_error hdecode
  rw [bind_eq_error_iff] at hdecode
  obtain hdecode | ⟨sectionIndex, -, hdecode⟩ := hdecode
  · exact isRange_of_readSectionIndex hdecode
  · cases hdecode

theorem isFatal_of_mem_extract (d : Demanglers) (demangles : Bool) :
    ∀ fault ∈ (extract d demangles r h t).2, fault.isFatal = false := by
  intro fault hfault
  rw [extract] at hfault
  dsimp only at hfault
  rw [List.flatMap_map, List.mem_flatMap] at hfault
  obtain ⟨source, -, hfault⟩ := hfault
  rw [ofSource_eq_walk] at hfault
  exact TableLayout.isFatal_of_mem_walk
    (fun _ _ _ hdecode => (isRange_of_decode hdecode).isFatal_eq_false) fault hfault

end Symbol

namespace Relocation

theorem isRange_of_decode {symbols : List Symbol} {s : Section} {withAddend : Bool} {offset : Nat}
    (hdecode : decode r h symbols s withAddend offset = .error fault) : fault.IsRange := by
  rw [decode, bind_eq_error_iff] at hdecode
  obtain hdecode | ⟨record, -, hdecode⟩ := hdecode
  · exact ((Reader.Continues.refl r).relocationRecord _ _ offset).isRange_of_error hdecode
  · cases hdecode

theorem isFatal_of_mem_extract (symbols : List Symbol) :
    ∀ fault ∈ (extract r h t symbols).2, fault.isFatal = false := by
  intro fault hfault
  rw [extract] at hfault
  dsimp only at hfault
  rw [List.flatMap_map, List.mem_flatMap] at hfault
  obtain ⟨s, -, hfault⟩ := hfault
  obtain hnil | ⟨withAddend, hkind, hlink⟩ := ofSection_eq_nil_or r h t symbols s
  · rw [hnil] at hfault
    cases hfault
  · rw [ofSection_eq_walk symbols hkind hlink] at hfault
    exact TableLayout.isFatal_of_mem_walk
      (fun _ _ _ hdecode => (isRange_of_decode hdecode).isFatal_eq_false) fault hfault

end Relocation

theorem DynamicInfo.isFatal_of_mem_parse : ∀ fault ∈ (parse r h t).2, fault.isFatal = false := by
  intro fault hfault
  rw [parse] at hfault
  split at hfault
  · cases hfault
  · refine TableLayout.isFatal_of_mem_walk (fun offset i fault hdecode => ?_) fault hfault
    exact (((Reader.Continues.refl r).dynamicEntry _ offset).isRange_of_error hdecode).isFatal_eq_false

end ElfAtlas
