import ElfAtlas.Elf.SectionTable
import ElfAtlas.Proofs.Elf.Records
import ElfAtlas.Proofs.Elf.Walk

/-!
The two tables that the header names, as walks, and what a cut does to them: it shortens them and may
empty names of sections, but changes nothing else in what is left.
-/

namespace ElfAtlas

namespace TableLayout

def ofHeader (name : String) (offset : UInt64) (count : Nat) (entrySize : UInt16) (recordSize : Nat) :
    TableLayout where
  name
  offset := offset.toNat
  count := if offset = 0 then 0 else count
  entrySize := entrySize.toNat
  recordSize

variable {name : String} {offset : UInt64} {count recordSize : Nat} {entrySize : UInt16}

theorem walk_ofHeader {α : Type} (r : Reader) (decode : Nat → Nat → Except Fault α) :
    (ofHeader name offset count entrySize recordSize).walk r decode =
      if offset = 0 then ([], [])
      else
        walk { name, offset := offset.toNat, count, entrySize := entrySize.toNat, recordSize }
          r decode := by
  split
  · rename_i hoffset
    have hcount : (ofHeader name offset count entrySize recordSize).count = 0 := if_pos hoffset
    rw [walk, if_pos hcount]
  · rename_i hoffset
    rw [ofHeader, if_neg hoffset]

theorem truncated_ofHeader (hcount : 0 < (ofHeader name offset count entrySize recordSize).count)
    (parsed : Nat) :
    (ofHeader name offset count entrySize recordSize).truncated parsed =
      .truncatedTable name parsed count := by
  have hoffset : offset ≠ 0 := fun hzero => by simp [ofHeader, hzero] at hcount
  simp only [truncated, ofHeader, if_neg hoffset]

end TableLayout

namespace FileHeader

def segmentLayout (h : FileHeader) (count : Nat) : TableLayout :=
  .ofHeader "program headers" h.segmentOffset count h.segmentEntrySize h.elfClass.segmentSize

def sectionLayout (h : FileHeader) (count : Nat) : TableLayout :=
  .ofHeader "section headers" h.sectionOffset count h.sectionEntrySize h.elfClass.sectionSize

/-- No count and no index of the header is kept in the record of section 0. -/
structure IsPlain (h : FileHeader) : Prop where
  sectionCount : h.sectionCount ≠ 0
  nameTableIndex : h.nameTableIndex ≠ TableCounts.escape
  segmentCount : h.segmentCount ≠ TableCounts.escape

end FileHeader

theorem getElem?_of_isPrefix {α : Type} {front all : List α} (h : front <+: all) {i : Nat} {a : α}
    (ha : front[i]? = some a) : all[i]? = some a := by
  obtain ⟨hi, rfl⟩ := List.getElem?_eq_some_iff.1 ha
  exact List.prefix_iff_getElem?.1 h i hi

variable {r p : Reader} {h : FileHeader}

theorem TableCounts.resolve_of_isPlain (hplain : h.IsPlain) :
    resolve r h = ⟨h.segmentCount.toNat, h.sectionCount.toNat, h.nameTableIndex.toNat⟩ := by
  obtain ⟨hsections, hnames, hsegments⟩ := hplain
  simp only [resolve, if_neg hsections, if_neg hnames, if_neg hsegments]
  split <;> rfl

theorem Segment.table_eq_walk (r : Reader) (h : FileHeader) (count : Nat) :
    table r h count = (h.segmentLayout count).walk r (decode h.elfClass r) := by
  rw [FileHeader.segmentLayout, TableLayout.walk_ofHeader, table]

theorem Segment.table_prefix (hr : r.Continues p) (h : FileHeader) (count : Nat) :
    (table p h count).1 <+: (table r h count).1 := by
  rw [table_eq_walk, table_eq_walk]
  exact TableLayout.walk_prefix_of_continues hr fun offset i => hr.segment h.elfClass offset i

theorem Segment.truncated_mem_table {count : Nat}
    (hlt : (table p h count).1.length < (table r h count).1.length) :
    .truncatedTable "program headers" (table p h count).1.length count ∈ (table p h count).2 := by
  rw [table_eq_walk, table_eq_walk] at hlt
  rw [table_eq_walk]
  have hcount : 0 < (h.segmentLayout count).count :=
    Nat.lt_of_lt_of_le (Nat.zero_lt_of_lt hlt) TableLayout.length_walk_le
  rw [← TableLayout.truncated_ofHeader hcount]
  exact TableLayout.truncated_mem_walk_of_length_lt hlt

namespace SectionTable

def records (r : Reader) (h : FileHeader) (count : Nat) : List SectionRecord × List Fault :=
  (h.sectionLayout count).walk r fun offset _ => SectionRecord.decode h.elfClass r offset

theorem parse_eq_ofRecords (r : Reader) (h : FileHeader) (counts : TableCounts) :
    parse r h counts =
      let (records, faults) := records r h counts.sections
      let table := ofRecords r counts.nameTable records
      (table, faults ++ table.toList.flatMap (sectionFaults table.size)) := by
  rw [records, FileHeader.sectionLayout, TableLayout.walk_ofHeader, parse]
  split <;> rfl

theorem size_ofRecords (nameTable : Nat) (records : List SectionRecord) :
    (ofRecords r nameTable records).size = records.length := by
  simp [ofRecords, size]

theorem map_index_ofRecords (nameTable : Nat) (records : List SectionRecord) :
    (ofRecords r nameTable records).toList.map (·.index) = List.range records.length :=
  List.ext_getElem (by simp [ofRecords, toList]) (by simp [ofRecords, toList, Section.ofRecord])

theorem get?_ofRecords (r : Reader) (nameTable : Nat) (records : List SectionRecord) (i : Nat) :
    (ofRecords r nameTable records).get? i =
      records[i]?.map fun s =>
        Section.ofRecord i (resolveName r (nameTable? records nameTable) s) s := by
  rw [get?, ofRecords]
  simp

theorem size_parse_eq_length (r : Reader) (h : FileHeader) (counts : TableCounts) :
    (parse r h counts).1.size = (records r h counts.sections).1.length := by
  rw [parse_eq_ofRecords, size_ofRecords]

/-- A section stands at the place that its index says. -/
theorem get?_index_of_mem_parse {counts : TableCounts} {s : Section}
    (hs : s ∈ (parse r h counts).1.toList) : (parse r h counts).1.get? s.index = some s := by
  obtain ⟨i, hi⟩ := List.mem_iff_getElem?.1 hs
  replace hi : (parse r h counts).1.get? i = some s := by rwa [toList, Array.getElem?_toList] at hi
  have hindex : s.index = i := by
    rw [parse_eq_ofRecords] at hi
    dsimp only at hi
    rw [get?_ofRecords, Option.map_eq_some_iff] at hi
    obtain ⟨record, -, rfl⟩ := hi
    rfl
  rw [hindex, hi]

/-- Sections come in the order of their indices. -/
theorem pairwise_index_lt_parse (r : Reader) (h : FileHeader) (counts : TableCounts) :
    (parse r h counts).1.toList.Pairwise fun s s' => s.index < s'.index := by
  rw [parse_eq_ofRecords]
  refine List.pairwise_map.1 ?_
  rw [map_index_ofRecords]
  exact List.pairwise_lt_range

theorem records_prefix (hr : r.Continues p) (h : FileHeader) (count : Nat) :
    (records p h count).1 <+: (records r h count).1 :=
  TableLayout.walk_prefix_of_continues hr fun offset _ => hr.sectionRecord h.elfClass offset

theorem nameTable?_of_isPrefix {front all : List SectionRecord} (hfront : front <+: all) {index : Nat}
    {names : SectionRecord} (hnames : nameTable? front index = some names) :
    nameTable? all index = some names := by
  rw [nameTable?] at hnames ⊢
  split at hnames
  · cases hnames
  · rw [if_neg ‹_›]
    rw [Option.filter_eq_some_iff] at hnames ⊢
    exact ⟨getElem?_of_isPrefix hfront hnames.1, hnames.2⟩

/-- A cut may lose the name table or the bytes of a name; then the name is empty. -/
theorem resolveName_of_prefix (hr : r.Continues p) {front all : List SectionRecord}
    (hfront : front <+: all) (index : Nat) (s : SectionRecord) :
    resolveName p (nameTable? front index) s = resolveName r (nameTable? all index) s ∨
      resolveName p (nameTable? front index) s = "" := by
  cases hnames : nameTable? front index with
  | none => exact .inr rfl
  | some names =>
      rw [nameTable?_of_isPrefix hfront hnames, resolveName, resolveName]
      cases hname : p.text names.offset.toNat names.size.toNat s.nameOffset.toNat with
      | error fault => exact .inr rfl
      | ok name =>
          rw [hr.text_eq_ok hname]
          exact .inl rfl

/-- What a cut leaves of the sections is as it was, but that names may be empty. -/
theorem get?_parse_of_continues (hr : r.Continues p) (h : FileHeader) (counts : TableCounts) {i : Nat}
    {s' : Section} (hs' : (parse p h counts).1.get? i = some s') :
    ∃ s, (parse r h counts).1.get? i = some s ∧ s' = { s with name := s'.name } ∧
      (s'.name = s.name ∨ s'.name = "") := by
  have hfront := records_prefix hr h counts.sections
  rw [parse_eq_ofRecords] at hs' ⊢
  dsimp only at hs' ⊢
  rw [get?_ofRecords, Option.map_eq_some_iff] at hs'
  obtain ⟨record, hrecord, rfl⟩ := hs'
  simp only [get?_ofRecords, getElem?_of_isPrefix hfront hrecord, Option.map_some, Option.some.injEq,
    exists_eq_left']
  exact ⟨rfl, resolveName_of_prefix hr hfront counts.nameTable record⟩

theorem truncated_mem_parse {counts : TableCounts}
    (hlt : (parse p h counts).1.size < (parse r h counts).1.size) :
    .truncatedTable "section headers" (parse p h counts).1.size counts.sections ∈
      (parse p h counts).2 := by
  rw [size_parse_eq_length, size_parse_eq_length] at hlt
  have hcount : 0 < (h.sectionLayout counts.sections).count :=
    Nat.lt_of_lt_of_le (Nat.zero_lt_of_lt hlt) TableLayout.length_walk_le
  rw [size_parse_eq_length, ← TableLayout.truncated_ofHeader hcount, parse_eq_ofRecords]
  exact List.mem_append_left _ (TableLayout.truncated_mem_walk_of_length_lt hlt)

end SectionTable

end ElfAtlas
