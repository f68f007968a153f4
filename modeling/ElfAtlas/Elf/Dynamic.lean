import ElfAtlas.Elf.SectionTable

/-!
Facts for the dynamic linker, from the first dynamic section. Entries count up to the first null tag.
-/

namespace ElfAtlas

namespace DynamicTag

def null : Int64 := 0

def needed : Int64 := 1

def soname : Int64 := 14

def rpath : Int64 := 15

def bindNow : Int64 := 24

def runpath : Int64 := 29

def flags : Int64 := 30

def flags1 : Int64 := 0x6ffffffb

end DynamicTag

structure DynamicEntry where
  tag : Int64
  value : UInt64
  deriving DecidableEq, Repr

structure DynamicInfo where
  entries : List DynamicEntry := []
  needed : List String := []
  soname : Option String := none
  rpath : Option String := none
  runpath : Option String := none
  flags : Option UInt64 := none
  flags1 : Option UInt64 := none
  bindNow : Bool := false
  deriving DecidableEq, Repr

namespace DynamicEntry

def decode (elfClass : ElfClass) (r : Reader) (offset : Nat) : Except Fault DynamicEntry := do
  match elfClass with
  | .elf32 =>
    return { tag := (← r.i32 offset).toInt64, value := (← r.u32 (offset + 4)).toUInt64 }
  | .elf64 => return { tag := ← r.i64 offset, value := ← r.u64 (offset + 8) }

end DynamicEntry

namespace DynamicInfo

/-- The value of the first entry with this tag. -/
def value? (d : DynamicInfo) (tag : Int64) : Option UInt64 :=
  (d.entries.find? (·.tag = tag)).map (·.value)

/-- Takes in one entry. A name stays once there is one; a flag word gives way to the next. -/
def addEntry (textAt : UInt64 → Option String) (d : DynamicInfo) (e : DynamicEntry) : DynamicInfo :=
  if e.tag = DynamicTag.needed then { d with needed := d.needed ++ (textAt e.value).toList }
  else if e.tag = DynamicTag.soname then { d with soname := d.soname.or (textAt e.value) }
  else if e.tag = DynamicTag.rpath then { d with rpath := d.rpath.or (textAt e.value) }
  else if e.tag = DynamicTag.runpath then { d with runpath := d.runpath.or (textAt e.value) }
  else if e.tag = DynamicTag.flags then { d with flags := some e.value }
  else if e.tag = DynamicTag.flags1 then { d with flags1 := some e.value }
  else if e.tag = DynamicTag.bindNow then { d with bindNow := true }
  else d

/-- Flag words can ask for immediate binding as well. -/
def finish (d : DynamicInfo) (entries : List DynamicEntry) : DynamicInfo :=
  { d with
    entries
    bindNow := d.bindNow || d.flags.any (· &&& 8 != 0) || d.flags1.any (· &&& 1 != 0) }

def ofEntries (textAt : UInt64 → Option String) (entries : List DynamicEntry) : DynamicInfo :=
  (entries.foldl (addEntry textAt) {}).finish entries

def layout (elfClass : ElfClass) (s : Section) : TableLayout :=
  .ofRange ".dynamic" s.offset.toNat s.size.toNat s.entrySize.toNat elfClass.dynamicSize

/-- The text at a position of the linked string table. -/
def textAt (r : Reader) (strings : Option Section) (position : UInt64) : Option String := do
  let t ← strings
  (r.text t.offset.toNat t.size.toNat position.toNat).toOption

def ofSection (r : Reader) (h : FileHeader) (t : SectionTable) (s : Section) :
    DynamicInfo × List Fault :=
  let (entries, faults) :=
    (layout h.elfClass s).walk r fun offset _ => DynamicEntry.decode h.elfClass r offset
  let strings := (t.linked? s.link).filter (·.hasFileData)
  (ofEntries (textAt r strings) (entries.takeWhile (·.tag ≠ DynamicTag.null)), faults)

/-- Absent without a dynamic section. -/
def parse (r : Reader) (h : FileHeader) (t : SectionTable) : Option DynamicInfo × List Fault :=
  match (t.ofKind .dynamic).head? with
  | none => (none, [])
  | some s =>
    let (info, faults) := ofSection r h t s
    (some info, faults)

end DynamicInfo

end ElfAtlas
