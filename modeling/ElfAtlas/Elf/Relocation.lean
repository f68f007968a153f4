import ElfAtlas.Elf.RelocationName
import ElfAtlas.Elf.Symbol

/-!
Relocations. The class decides how the symbol index and the type share the info word; the addend is
part of the entry only in tables with addends.
-/

namespace ElfAtlas

structure Relocation where
  offset : UInt64
  info : UInt64
  typeCode : UInt32
  typeName : Option String
  symbolIndex : UInt32
  symbolName : Option String
  addend : Option Int64
  sectionIndex : Nat
  deriving DecidableEq, Repr

/-- A relocation before its symbol is looked up. -/
structure RelocationRecord where
  offset : UInt64
  info : UInt64
  addend : Option Int64
  deriving DecidableEq, Repr

/-- Reads a record, given how the distance of a field is added to the place of the record. The place of
the addend is computed only for a record that has one. -/
def RelocationRecord.decodeWith {m : Type → Type} [Monad m] [MonadLiftT (Except Fault) m]
    (plus : Nat → Nat → m Nat) (elfClass : ElfClass) (withAddend : Bool) (r : Reader)
    (offset : Nat) : m RelocationRecord := do
  match elfClass with
  | .elf32 =>
    return {
      offset := (← r.u32 offset).toUInt64
      info := (← r.u32 (← plus offset 4)).toUInt64
      addend := ← if withAddend then do pure (some (← r.i32 (← plus offset 8)).toInt64) else pure none }
  | .elf64 =>
    return {
      offset := ← r.u64 offset
      info := ← r.u64 (← plus offset 8)
      addend := ← if withAddend then do pure (some (← r.i64 (← plus offset 16))) else pure none }

def RelocationRecord.decode (elfClass : ElfClass) (withAddend : Bool) (r : Reader) (offset : Nat) :
    Except Fault RelocationRecord :=
  decodeWith (fun a b => pure (a + b)) elfClass withAddend r offset

namespace Relocation

/-- The symbol index and the type. -/
def ofInfo (elfClass : ElfClass) (info : UInt64) : UInt32 × UInt32 :=
  match elfClass with
  | .elf32 => ((info >>> 8).toUInt32, (info &&& 0xff).toUInt32)
  | .elf64 => ((info >>> 32).toUInt32, info.toUInt32)

/-- The name of entry `index` of the symbol table in section `table`; entry 0 is no symbol. Of several
named symbols in one place the last counts. -/
def symbolName? (symbols : List Symbol) (table : Nat) (index : UInt32) : Option String :=
  if index = 0 then none
  else
    (symbols.filter fun s =>
      s.name ≠ "" && s.tableSection = table && s.index = index.toNat).getLast?.map (·.name)

def decode (r : Reader) (h : FileHeader) (symbols : List Symbol) (s : Section) (withAddend : Bool)
    (offset : Nat) : Except Fault Relocation := do
  let record ← RelocationRecord.decode h.elfClass withAddend r offset
  let (symbolIndex, typeCode) := ofInfo h.elfClass record.info
  return {
    offset := record.offset
    info := record.info
    typeCode
    typeName := typeName? h.machineCode typeCode
    symbolIndex
    symbolName := symbolName? symbols s.link.toNat symbolIndex
    addend := record.addend
    sectionIndex := s.index }

def layout (elfClass : ElfClass) (s : Section) (withAddend : Bool) : TableLayout :=
  .ofRange (s.tableName "relocation table") s.offset.toNat s.size.toNat s.entrySize.toNat
    (elfClass.relocationSize withAddend)

/-- The relocations of one section; a section that is no relocation table or links to no section has
none. -/
def ofSection (r : Reader) (h : FileHeader) (t : SectionTable) (symbols : List Symbol) (s : Section) :
    List Relocation × List Fault :=
  let entries (withAddend : Bool) :=
    if s.link.toNat < t.size then
      (layout h.elfClass s withAddend).walk r fun offset _ => decode r h symbols s withAddend offset
    else ([], [])
  match s.kind with
  | .rela => entries true
  | .rel => entries false
  | _ => ([], [])

/-- All relocations, in the order of the sections. -/
def extract (r : Reader) (h : FileHeader) (t : SectionTable) (symbols : List Symbol) :
    List Relocation × List Fault :=
  let parts := t.toList.map (ofSection r h t symbols)
  (parts.flatMap (·.1), parts.flatMap (·.2))

end Relocation

end ElfAtlas
