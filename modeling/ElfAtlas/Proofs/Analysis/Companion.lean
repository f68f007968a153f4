import ElfAtlas.Proofs.Analysis.Completeness
import ElfAtlas.Proofs.Analysis.Outcome

/-!
What the companion of a symbol table changes. It gives the section index of every symbol that asks for
it, wherever its entry lies in the image; a symbol whose entry would lie past the address space ends the
table.
-/

namespace ElfAtlas

namespace Symbol

def Source.alone (source : Source) : Source := { source with companion := none }

def companionPosition (x : Section) (s : Symbol) : Nat := x.offset.toNat + s.index * 4

def overflows (x : Section) (s : Symbol) : Bool :=
  s.sectionIndex = indexEscape.toUInt32 && UInt64.size ≤ companionPosition x s

def resolved (r : Reader) (x : Section) (s : Symbol) : Symbol :=
  if s.sectionIndex = indexEscape.toUInt32 then
    { s with sectionIndex := (r.u32 (companionPosition x s)).toOption.getD indexEscape.toUInt32 }
  else s

variable {d : Demanglers} {demangles : Bool} {c : ElfClass} {r : Reader} {source : Source} {x : Section}

theorem index_resolved (s : Symbol) : (resolved r x s).index = s.index := by
  rw [resolved]
  split <;> rfl

/-- The reserved entry has its section index at the start of the companion. -/
theorem index_ne_zero_of_overflows {s : Symbol} (h : overflows x s = true) : s.index ≠ 0 := by
  intro hzero
  simp only [overflows, companionPosition, hzero, Bool.and_eq_true, decide_eq_true_eq] at h
  exact Nat.not_le.2 x.offset.toNat_lt h.2

theorem readSectionIndex_some (x : Section) (field : UInt16) (index : Nat) :
    readSectionIndex r (some x) field index =
      if field = indexEscape then
        if x.offset.toNat + index * 4 < UInt64.size then
          .ok ((r.u32 (x.offset.toNat + index * 4)).toOption.getD indexEscape.toUInt32)
        else .error (.overflow "entry offset")
      else .ok field.toUInt32 := by
  rw [readSectionIndex]
  split
  · rw [entryOffset_eq]
    split
    · cases hread : r.u32 (x.offset.toNat + index * 4) <;>
        simp [bind, Except.bind, Except.toOption, hread]
    · rfl
  · rfl

theorem decode_alone (offset index : Nat) :
    decode d demangles c r source.alone offset index =
      SymbolRecord.decode c r offset >>= fun s =>
        .ok (ofRecord d demangles r source index s s.sectionIndex.toUInt32) := rfl

/-- A companion changes the decoder by one more step. -/
theorem decode_of_companion (hx : source.companion = some x) (offset index : Nat) :
    decode d demangles c r source offset index =
      decode d demangles c r source.alone offset index >>= fun s =>
        if overflows x s then .error (.overflow "entry offset") else .ok (resolved r x s) := by
  rw [decode_alone, decode, hx]
  cases SymbolRecord.decode c r offset with
  | error fault => rfl
  | ok record =>
      let s := ofRecord d demangles r source index record record.sectionIndex.toUInt32
      change readSectionIndex r (some x) record.sectionIndex index >>= _ =
        if overflows x s then .error (.overflow "entry offset") else .ok (resolved r x s)
      have hescape : s.sectionIndex = indexEscape.toUInt32 ↔ record.sectionIndex = indexEscape :=
        UInt16.toUInt32_inj
      rw [readSectionIndex_some, overflows, resolved]
      simp only [hescape, Bool.and_eq_true, decide_eq_true_eq]
      by_cases hfield : record.sectionIndex = indexEscape
      · rw [if_pos hfield, if_pos hfield]
        by_cases hsum : x.offset.toNat + index * 4 < UInt64.size
        · have hplace : ¬ (record.sectionIndex = indexEscape ∧ UInt64.size ≤ companionPosition x s) :=
            fun h => Nat.not_lt.2 h.2 hsum
          rw [if_pos hsum, if_neg hplace]
          rfl
        · have hplace : record.sectionIndex = indexEscape ∧ UInt64.size ≤ companionPosition x s :=
            ⟨hfield, Nat.not_lt.1 hsum⟩
          rw [if_neg hsum, if_pos hplace]
          rfl
      · have hplace : ¬ (record.sectionIndex = indexEscape ∧ UInt64.size ≤ companionPosition x s) :=
          fun h => hfield h.1
        rw [if_neg hfield, if_neg hfield, if_neg hplace]
        rfl

/-- A companion cuts a table at the first symbol whose index it would hold past the address space, and
resolves the symbols before that one. -/
theorem ofSource_of_companion (hx : source.companion = some x) :
    ofSource d demangles c r source =
      (layout c source.table).upTo (overflows x) (·.index) (.overflow "entry offset") (resolved r x)
        (ofSource d demangles c r source.alone) := by
  have hwalk : (layout c source.table).walk r (decode d demangles c r source) =
      (layout c source.table).upTo (overflows x) (·.index) (.overflow "entry offset") (resolved r x)
        ((layout c source.table).walk r (decode d demangles c r source.alone)) :=
    TableLayout.walk_upTo (fun _ _ _ hs => (decode_eq_ok hs).1) (decode_of_companion hx)
  rw [ofSource, ofSource, hwalk]
  exact (TableLayout.upTo_filter (fun s hs => decide_eq_true (index_ne_zero_of_overflows hs))
    (fun s => by rw [index_resolved]) _ _).symm

/-- What is read of a table with its companion, if it has one, given what is read of it alone. -/
def Source.consult (source : Source) (c : ElfClass) (r : Reader)
    (read : List Symbol × List Fault) : List Symbol × List Fault :=
  match source.companion with
  | none => read
  | some x =>
    (layout c source.table).upTo (overflows x) (·.index) (.overflow "entry offset") (resolved r x) read

theorem ofSource_eq_consult (d : Demanglers) (demangles : Bool) (c : ElfClass) (r : Reader)
    (source : Source) :
    ofSource d demangles c r source =
      source.consult c r (ofSource d demangles c r source.alone) := by
  cases hx : source.companion with
  | none =>
      have halone : source.alone = source := by rw [Source.alone, ← hx]
      rw [Source.consult, hx, halone]
  | some x =>
      rw [Source.consult, hx]
      exact ofSource_of_companion hx

end Symbol

namespace Analysis

/-- The symbols of a run and the diagnostics of their stage are those that the tables have without their
companions, but for two things. A symbol that asks for its section index has the word that stands in the
image at its place in the companion, be that place in the companion's range or not, and keeps the escape
value if the image has no such word. And a table ends at the first symbol whose place is past the address
space. -/
theorem run_symbols_companion {l : Libraries} {c : Config} {cancelled : Bool}
    {image : Array UInt8} {a : Analysis}
    (hrun : run l c cancelled image = .ok a) :
    let r := a.header.reader image
    let elfClass := a.header.elfClass
    let sources := a.sections.toList.filterMap (Symbol.Source.ofSection? a.sections)
    let read (source : Symbol.Source) : List Symbol × List Fault :=
      source.consult elfClass r (Symbol.ofSource l.toDemanglers c.demangle elfClass r source.alone)
    a.symbols = sources.flatMap (fun source => (read source).1) ∧
      a.diagnostics.filter (·.stage = .symbols) =
        diagnose .symbols (sources.flatMap fun source => (read source).2) := by
  intro r elfClass sources read
  obtain ⟨-, -, header, found, -, -, rfl⟩ := run_eq_ok_iff.1 hrun
  have hread : read = Symbol.ofSource l.toDemanglers c.demangle elfClass r :=
    funext fun source => (Symbol.ofSource_eq_consult _ _ elfClass r source).symm
  have hextract : Symbol.extract l.toDemanglers c.demangle r header
      (assemble l c image header found).sections =
      (sources.flatMap (fun source => (read source).1),
        sources.flatMap fun source => (read source).2) := by
    rw [hread, Symbol.extract]
    simp only [List.flatMap_map]
    rfl
  have hpart : (Stage.symbols,
      (Symbol.extract l.toDemanglers c.demangle r header
        (assemble l c image header found).sections).2) ∈
        stageFaults l c image header found := .tail _ (.tail _ (.head _))
  refine ⟨congrArg Prod.fst hextract, ?_⟩
  rw [filter_diagnostics_assemble hpart, hextract]

/-- An object with a symbol table of two entries, of which the second asks for its section index, and a
companion of which the words 0 and 0x1234 end the file. -/
def indexedHeader : FileHeader :=
  { elfClass := .elf64, order := .little, identVersion := 1, osAbi := 0, abiVersion := 0,
    fileTypeCode := 1, machineCode := 62, version := 1, entry := 0, segmentOffset := 0,
    sectionOffset := 64, flags := 0, headerSize := 64, segmentEntrySize := 56, segmentCount := 0,
    sectionEntrySize := 64, sectionCount := 3, nameTableIndex := 0 }

def indexedImage (offset size : UInt64) : Array UInt8 :=
  let sections : List SectionRecord :=
    [⟨0, 0, 0, 0, 0, 0, 0, 0, 0, 0⟩, ⟨0, 2, 0, 0, 256, 48, 0, 0, 8, 24⟩,
      ⟨0, 18, 0, 0, offset, size, 1, 0, 4, 4⟩]
  let symbols : List SymbolRecord := [⟨0, 0, 0, 0, 0, 0⟩, ⟨0, 16, 0, 0, 0, 0xffff⟩]
  indexedHeader.imageWith
    ((sections.flatMap fun s : SectionRecord => ByteOrder.little.record (s.fields .elf64)) ++
      (symbols.flatMap fun s : SymbolRecord => ByteOrder.little.record (s.fields .elf64)) ++
      ByteOrder.little.record [(4, 0), (4, 0x1234)])

theorem parse_indexedImage (offset size : UInt64) :
    FileHeader.parse (indexedImage offset size) = .ok indexedHeader :=
  FileHeader.parse_imageWith ⟨by decide, by decide, by decide⟩ _

/-- The companion holds a word for each of the two entries. -/
theorem run_symbols_companion_whole :
    ∃ a, run External.libraries {} false (indexedImage 304 8) = .ok a ∧
      a.symbols.map (·.sectionIndex) = [0x1234] ∧
      a.diagnostics.filter (·.stage = .symbols) = [] := by
  have hrun : run External.libraries {} false (indexedImage 304 8) =
      .ok (assemble External.libraries {} (indexedImage 304 8) indexedHeader ([], [])) :=
    run_eq_ok_of_parse (by cbv) (parse_indexedImage _ _) (by decide +kernel)
  obtain ⟨hsymbols, hdiagnostics⟩ := run_symbols_companion hrun
  refine ⟨_, hrun, ?_, ?_⟩
  · rw [hsymbols]
    decide +kernel
  · rw [hdiagnostics]
    decide +kernel

/-- A companion of one word gives the second symbol the word behind its range; and one whose second word
lies past the address space loses the symbol. -/
theorem symbols_of_short_companion :
    (∃ a, run External.libraries {} false (indexedImage 304 4) = .ok a ∧
      a.symbols.map (fun s => (s.index, s.sectionIndex)) = [(1, 0x1234)] ∧ a.diagnostics = []) ∧
    ∃ a, run External.libraries {} false (indexedImage 0xfffffffffffffffc 0) = .ok a ∧
      a.symbols = [] ∧
      a.diagnostics =
        [⟨.symbols, .overflow "entry offset"⟩, ⟨.symbols, .truncatedTable "symbol table 1" 1 2⟩] := by
  have hrun : run External.libraries {} false (indexedImage 304 4) =
      .ok (assemble External.libraries {} (indexedImage 304 4) indexedHeader ([], [])) :=
    run_eq_ok_of_parse (by cbv) (parse_indexedImage _ _) (by decide +kernel)
  have hrun' : run External.libraries {} false (indexedImage 0xfffffffffffffffc 0) =
      .ok (assemble External.libraries {} (indexedImage 0xfffffffffffffffc 0) indexedHeader ([], [])) :=
    run_eq_ok_of_parse (by cbv) (parse_indexedImage _ _) (by decide +kernel)
  exact ⟨⟨_, hrun, by decide +kernel, by decide +kernel⟩,
    ⟨_, hrun', by decide +kernel, by decide +kernel⟩⟩

end Analysis

end ElfAtlas
