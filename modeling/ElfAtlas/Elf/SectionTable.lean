import ElfAtlas.Elf.Section

/-!
The section header table: extended numbering, name resolution, and look-up by index, name, address and
file position.
-/

namespace ElfAtlas

/-- How many entries the tables have once escape values are resolved. -/
structure TableCounts where
  segments : Nat
  sections : Nat
  nameTable : Nat
  deriving DecidableEq, Repr

namespace TableCounts

/-- Marks a count or index that does not fit its field. -/
def escape : UInt16 := 0xffff

/-- A count that does not fit the header stands in the record of section 0, if that can be read. -/
def resolve (r : Reader) (h : FileHeader) : TableCounts :=
  let zero :=
    if h.sectionOffset = 0 then none
    else (SectionRecord.decode h.elfClass r h.sectionOffset.toNat).toOption
  { segments :=
      match zero with
      | some z => if h.segmentCount = escape then z.info.toNat else h.segmentCount.toNat
      | none => h.segmentCount.toNat
    sections :=
      match zero with
      | some z => if h.sectionCount = 0 then z.size.toNat else h.sectionCount.toNat
      | none => h.sectionCount.toNat
    nameTable :=
      match zero with
      | some z => if h.nameTableIndex = escape then z.link.toNat else h.nameTableIndex.toNat
      | none => h.nameTableIndex.toNat }

end TableCounts

structure SectionTable where
  sections : Array Section := #[]

namespace SectionTable

def size (t : SectionTable) : Nat := t.sections.size

def toList (t : SectionTable) : List Section := t.sections.toList

def isEmpty (t : SectionTable) : Bool := t.sections.isEmpty

def get? (t : SectionTable) (index : Nat) : Option Section := t.sections[index]?

/-- The section that a link names. -/
def linked? (t : SectionTable) (link : UInt32) : Option Section := t.get? link.toNat

/-- The first section of this name; the empty name names none. -/
def byName? (t : SectionTable) (name : String) : Option Section := do
  let first ← t.toList.find? fun s => s.name ≠ "" && s.name = name
  t.get? first.index

/-- The first allocated section that contains an address. -/
def byAddress? (t : SectionTable) (address : UInt64) : Option Section :=
  t.toList.find? (·.containsAddress address)

/-- The first section after the null section that contains a file position. -/
def byOffset? (t : SectionTable) (offset : UInt64) : Option Section :=
  t.toList.find? fun s => s.index ≠ 0 && s.containsOffset offset

def ofKind (t : SectionTable) (kind : SectionType) : List Section :=
  t.toList.filter (·.kind = kind)

/-- Sections with code in the file. -/
def executable (t : SectionTable) : List Section :=
  t.toList.filter fun s => s.isExecutable && s.hasFileData && s.size ≠ 0

/-- The bytes of a section; a section without file data has none. -/
def data (r : Reader) (s : Section) : Except Fault (List UInt8) :=
  if s.hasFileData then r.slice s.offset.toNat s.size.toNat else .ok []

/-- The record of the name table, unless it is missing, reserved or not in the file. -/
def nameTable? (records : List SectionRecord) (index : Nat) : Option SectionRecord :=
  if index = 0 then none
  else (records[index]?).filter fun s => SectionType.ofCode s.typeCode ≠ .nobits

/-- A name that cannot be read is empty. -/
def resolveName (r : Reader) (names : Option SectionRecord) (s : SectionRecord) : String :=
  match names with
  | none => ""
  | some t =>
    match r.text t.offset.toNat t.size.toNat s.nameOffset.toNat with
    | .ok name => name
    | .error _ => ""

def ofRecords (r : Reader) (nameTable : Nat) (records : List SectionRecord) : SectionTable :=
  let names := nameTable? records nameTable
  ⟨(records.mapIdx fun index s => Section.ofRecord index (resolveName r names s) s).toArray⟩

/-- A link to no section, and a file range that ends past the address space. -/
def sectionFaults (count : Nat) (s : Section) : List Fault :=
  (if s.kind.requiresLink && count ≤ s.link.toNat then [.missingLink s.index s.link.toNat] else [])
    ++ (if s.hasFileData && UInt64.size ≤ s.offset.toNat + s.size.toNat then
      [.overflow s!"section {s.index} range"] else [])

/-- The section header table, with the faults of the walk before those of the sections. -/
def parse (r : Reader) (h : FileHeader) (counts : TableCounts) : SectionTable × List Fault :=
  if h.sectionOffset = 0 then ({}, [])
  else
    let (records, faults) :=
      TableLayout.walk
        { name := "section headers", offset := h.sectionOffset.toNat, count := counts.sections,
          entrySize := h.sectionEntrySize.toNat, recordSize := h.elfClass.sectionSize }
        r (fun offset _ => SectionRecord.decode h.elfClass r offset)
    let table := ofRecords r counts.nameTable records
    (table, faults ++ table.toList.flatMap (sectionFaults table.size))

end SectionTable

end ElfAtlas
