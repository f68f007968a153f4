import ElfAtlas.Reader

/-!
Tables of records with a fixed stride. The walk keeps the records up to the first that is out of bounds
or cannot be decoded, and reports how many entries were dropped.
-/

namespace ElfAtlas

structure TableLayout where
  name : String
  offset : Nat
  count : Nat
  entrySize : Nat
  recordSize : Nat

namespace TableLayout

/-- The layout of a table that fills a section; an entry size of zero means the record's own. -/
def ofRange (name : String) (offset size entrySize recordSize : Nat) : TableLayout :=
  let stride := if entrySize = 0 then recordSize else entrySize
  { name, offset, count := size / stride, entrySize := stride, recordSize }

def truncated (t : TableLayout) (parsed : Nat) : Fault := .truncatedTable t.name parsed t.count

/-- Entry `index`; the faults say why there is none. -/
def entry {α : Type} (t : TableLayout) (r : Reader) (decode : Nat → Nat → Except Fault α)
    (index : Nat) : Except (List Fault) α :=
  match entryOffset t.offset index t.entrySize with
  | .error fault => .error [fault]
  | .ok offset =>
    if r.contains offset t.recordSize then
      match decode offset index with
      | .ok record => .ok record
      | .error fault => .error [fault]
    else .error []

/-- At most `left` entries from `index` on. -/
def walkFrom {α : Type} (t : TableLayout) (r : Reader) (decode : Nat → Nat → Except Fault α) :
    (left index : Nat) → List α × List Fault
  | 0, _ => ([], [])
  | left + 1, index =>
    match t.entry r decode index with
    | .error faults => ([], faults ++ [t.truncated index])
    | .ok record =>
      let (records, faults) := t.walkFrom r decode left (index + 1)
      (record :: records, faults)

/-- All entries in order; `decode` is given the position and the index of each. -/
def walk {α : Type} (t : TableLayout) (r : Reader) (decode : Nat → Nat → Except Fault α) :
    List α × List Fault :=
  if t.count = 0 then ([], [])
  else if t.entrySize < t.recordSize then
    ([], [.entryTooSmall t.name t.recordSize t.entrySize])
  else t.walkFrom r decode t.count 0

end TableLayout

end ElfAtlas
