import ElfAtlas.Elf.SectionTable
import ElfAtlas.Mangled

/-!
Symbols of the static and the dynamic symbol tables. Entry 0 of a table is reserved and is left out; a
section index that does not fit its field stands in a companion table.
-/

namespace ElfAtlas

inductive SymbolType where
  | noType
  | object
  | func
  | sectionSymbol
  | file
  | common
  | tls
  | gnuIfunc
  | other (code : UInt8)
  deriving DecidableEq, Repr

def SymbolType.ofCode (code : UInt8) : SymbolType :=
  match code.toNat with
  | 0 => noType
  | 1 => object
  | 2 => func
  | 3 => sectionSymbol
  | 4 => file
  | 5 => common
  | 6 => tls
  | 10 => gnuIfunc
  | _ => other code

inductive SymbolBinding where
  | localScope
  | globalScope
  | weak
  | gnuUnique
  | other (code : UInt8)
  deriving DecidableEq, Repr

def SymbolBinding.ofCode (code : UInt8) : SymbolBinding :=
  match code.toNat with
  | 0 => localScope
  | 1 => globalScope
  | 2 => weak
  | 10 => gnuUnique
  | _ => other code

inductive Visibility where
  | default
  | internal
  | hidden
  | protectedScope
  deriving DecidableEq, Repr

/-- Only the two lowest bits count. -/
def Visibility.ofCode (code : UInt8) : Visibility :=
  match code.toNat % 4 with
  | 0 => default
  | 1 => internal
  | 2 => hidden
  | _ => protectedScope

inductive SymbolOrigin where
  | staticTable
  | dynamicTable
  deriving DecidableEq, Repr

structure Symbol where
  name : String
  demangled : Option String
  value : UInt64
  size : UInt64
  kind : SymbolType
  binding : SymbolBinding
  visibility : Visibility
  sectionIndex : UInt32
  origin : SymbolOrigin
  index : Nat
  tableSection : Nat
  deriving DecidableEq, Repr

/-- A symbol before its name and section are looked up. -/
structure SymbolRecord where
  nameOffset : UInt32
  value : UInt64
  size : UInt64
  info : UInt8
  other : UInt8
  sectionIndex : UInt16
  deriving DecidableEq, Repr

/-- Reads a record, given how the distance of a field is added to the place of the record. -/
def SymbolRecord.decodeWith {m : Type → Type} [Monad m] [MonadLiftT (Except Fault) m]
    (plus : Nat → Nat → m Nat) (elfClass : ElfClass) (r : Reader) (offset : Nat) :
    m SymbolRecord := do
  match elfClass with
  | .elf32 =>
    return {
      nameOffset := ← r.u32 offset
      value := (← r.u32 (← plus offset 4)).toUInt64
      size := (← r.u32 (← plus offset 8)).toUInt64
      info := ← r.u8 (← plus offset 12)
      other := ← r.u8 (← plus offset 13)
      sectionIndex := ← r.u16 (← plus offset 14) }
  | .elf64 =>
    return {
      nameOffset := ← r.u32 offset
      info := ← r.u8 (← plus offset 4)
      other := ← r.u8 (← plus offset 5)
      sectionIndex := ← r.u16 (← plus offset 6)
      value := ← r.u64 (← plus offset 8)
      size := ← r.u64 (← plus offset 16) }

def SymbolRecord.decode (elfClass : ElfClass) (r : Reader) (offset : Nat) :
    Except Fault SymbolRecord :=
  decodeWith (fun a b => pure (a + b)) elfClass r offset

namespace Symbol

/-- The type in the low four bits and the binding in the high four. -/
def ofInfo (info : UInt8) : SymbolType × SymbolBinding :=
  (.ofCode (info &&& 0xf), .ofCode (info >>> 4))

def isDefined (s : Symbol) : Bool := s.sectionIndex ≠ 0

def isFunction (s : Symbol) : Bool := s.kind = .func || s.kind = .gnuIfunc

def isGlobal (s : Symbol) : Bool :=
  s.binding = .globalScope || s.binding = .weak || s.binding = .gnuUnique

def isImport (s : Symbol) : Bool := !s.isDefined && s.isGlobal && s.name ≠ ""

def isExport (s : Symbol) : Bool :=
  s.isDefined && s.isGlobal && s.name ≠ "" && (s.visibility = .default || s.visibility = .protectedScope)

/-- The readable name where there is one. -/
def displayName (s : Symbol) : String := s.demangled.getD s.name

/-- Says that the section index is too large for its field. -/
def indexEscape : UInt16 := 0xffff

/-- A symbol table section with what its entries refer to. -/
structure Source where
  table : Section
  origin : SymbolOrigin
  /-- The linked string table, where it is in the file. -/
  strings : Option Section
  /-- The companion that holds section indices too large for an entry. -/
  companion : Option Section

def Source.ofSection? (t : SectionTable) (s : Section) : Option Source := do
  let origin ←
    match s.kind with
    | .symtab => some SymbolOrigin.staticTable
    | .dynsym => some SymbolOrigin.dynamicTable
    | _ => none
  let strings ← t.linked? s.link
  return {
    table := s
    origin
    strings := if strings.hasFileData then some strings else none
    companion := (t.ofKind .symtabShndx).find? fun x => x.link.toNat = s.index }

/-- A name that cannot be read is empty. -/
def readName (r : Reader) (strings : Option Section) (nameOffset : UInt32) : String :=
  match strings with
  | none => ""
  | some t =>
    if nameOffset = 0 then ""
    else
      match r.text t.offset.toNat t.size.toNat nameOffset.toNat with
      | .ok name => name
      | .error _ => ""

/-- A companion entry that cannot be read leaves the escape value in place. -/
def readSectionIndex (r : Reader) (companion : Option Section) (field : UInt16) (index : Nat) :
    Except Fault UInt32 :=
  match companion with
  | none => .ok field.toUInt32
  | some x =>
    if field = indexEscape then do
      let position ← entryOffset x.offset.toNat index 4
      match r.u32 position with
      | .ok n => .ok n
      | .error _ => .ok indexEscape.toUInt32
    else .ok field.toUInt32

/-- The symbol of an entry, given its section index. -/
def ofRecord (d : Demanglers) (demangles : Bool) (r : Reader) (source : Source) (index : Nat)
    (s : SymbolRecord) (sectionIndex : UInt32) : Symbol :=
  let name := readName r source.strings s.nameOffset
  { name
    demangled := if demangles && name ≠ "" then d.readable? name else none
    value := s.value
    size := s.size
    kind := (ofInfo s.info).1
    binding := (ofInfo s.info).2
    visibility := .ofCode s.other
    sectionIndex
    origin := source.origin
    index
    tableSection := source.table.index }

def decode (d : Demanglers) (demangles : Bool) (elfClass : ElfClass) (r : Reader) (source : Source)
    (offset index : Nat) : Except Fault Symbol := do
  let s ← SymbolRecord.decode elfClass r offset
  let sectionIndex ← readSectionIndex r source.companion s.sectionIndex index
  return ofRecord d demangles r source index s sectionIndex

def layout (elfClass : ElfClass) (s : Section) : TableLayout :=
  .ofRange (s.tableName "symbol table") s.offset.toNat s.size.toNat s.entrySize.toNat
    elfClass.symbolSize

/-- The symbols of one table, without the reserved entry 0. -/
def ofSource (d : Demanglers) (demangles : Bool) (elfClass : ElfClass) (r : Reader)
    (source : Source) : List Symbol × List Fault :=
  let (symbols, faults) :=
    (layout elfClass source.table).walk r (decode d demangles elfClass r source)
  (symbols.filter (·.index ≠ 0), faults)

/-- The symbols of all tables, in the order of the sections. A table whose link names no section is
left out; the section pass has reported it. -/
def extract (d : Demanglers) (demangles : Bool) (r : Reader) (h : FileHeader) (t : SectionTable) :
    List Symbol × List Fault :=
  let parts := (t.toList.filterMap (Source.ofSection? t)).map (ofSource d demangles h.elfClass r)
  (parts.flatMap (·.1), parts.flatMap (·.2))

def imports (symbols : List Symbol) : List Symbol := symbols.filter isImport

def exports (symbols : List Symbol) : List Symbol := symbols.filter isExport

end Symbol

end ElfAtlas
