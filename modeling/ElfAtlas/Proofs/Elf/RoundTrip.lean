import ElfAtlas.External
import ElfAtlas.Proofs.Elf.Encoding
import ElfAtlas.Proofs.Elf.Walk

/-!
Tables undo their encoding. Where an image holds the encodings of records at a fixed stride, whatever
stands between them, each of the four tables is read as these records and its walk meets no fault.
-/

namespace ElfAtlas

/-- The image holds encodings of records one stride apart, and the stride leaves room for each. -/
structure Reader.HoldsTable (r : Reader) (offset stride recordSize : Nat)
    (encoded : List (List UInt8)) : Prop where
  room : recordSize ≤ stride
  holds : ∀ i (h : i < encoded.length), r.Holds (offset + i * stride) encoded[i]

theorem Reader.HoldsTable.walk_eq {α β : Type} {r : Reader} {t : TableLayout}
    {decode : Nat → Nat → Except Fault α} {f : Nat → β → α} {encode : β → List UInt8}
    {records : List β}
    (h : r.HoldsTable t.offset t.entrySize t.recordSize (records.map encode))
    (hr : r.length < UInt64.size) (hcount : t.count = records.length)
    (hlength : ∀ b, (encode b).length = t.recordSize)
    (hdecode : ∀ b ∈ records, ∀ offset i, r.Holds offset (encode b) → decode offset i = .ok (f i b)) :
    t.walk r decode = (records.mapIdx f, []) := by
  refine TableLayout.walk_eq_mapIdx hcount h.room fun i b hb => ?_
  obtain ⟨hi, hget⟩ := List.getElem?_eq_some_iff.1 hb
  have hholds : r.Holds (t.offset + i * t.entrySize) (encode b) := by
    have := h.holds i (by rwa [List.length_map])
    rwa [List.getElem_map, hget] at this
  have hfits := hholds.le_length
  rw [hlength] at hfits
  exact TableLayout.entry_eq_ok_iff.2
    ⟨hfits, Nat.lt_of_le_of_lt hfits hr, hdecode b (List.mem_of_getElem? hb) _ i hholds⟩

theorem mapIdx_eq_map {α β : Type} (f : α → β) (xs : List α) : xs.mapIdx (fun _ => f) = xs.map f :=
  List.ext_getElem (by simp) (by simp)

variable {r : Reader} {h : FileHeader}

theorem Segment.table_eq (hr : r.length < UInt64.size) {records : List SegmentRecord}
    (hfits : ∀ s ∈ records, s.Fits h.elfClass) (hoffset : h.segmentOffset ≠ 0)
    (htable : r.HoldsTable h.segmentOffset.toNat h.segmentEntrySize.toNat h.elfClass.segmentSize
      (records.map fun s => r.order.record (s.fields h.elfClass))) :
    Segment.table r h records.length = (records.mapIdx SegmentRecord.toSegment, []) := by
  rw [table, if_neg hoffset]
  exact htable.walk_eq hr rfl (SegmentRecord.length_encode r.order h.elfClass)
    fun s hs _ i => SegmentRecord.decode_of_holds hr (hfits s hs) i

/-- The only faults are those of the sections themselves: links to no section and ranges past the
address space. -/
theorem SectionTable.parse_eq (hr : r.length < UInt64.size) {records : List SectionRecord}
    {counts : TableCounts} (hfits : ∀ s ∈ records, s.Fits h.elfClass) (hoffset : h.sectionOffset ≠ 0)
    (hcount : counts.sections = records.length)
    (htable : r.HoldsTable h.sectionOffset.toNat h.sectionEntrySize.toNat h.elfClass.sectionSize
      (records.map fun s => r.order.record (s.fields h.elfClass))) :
    parse r h counts =
      (ofRecords r counts.nameTable records,
        (ofRecords r counts.nameTable records).toList.flatMap (sectionFaults records.length)) := by
  have hself : records.mapIdx (fun _ => id) = records := by rw [mapIdx_eq_map, List.map_id]
  have hsize : (ofRecords r counts.nameTable records).size = records.length := by
    simp [ofRecords, size]
  rw [parse, if_neg hoffset]
  dsimp only
  rw [htable.walk_eq (f := fun _ => id) hr hcount (SectionRecord.length_encode r.order h.elfClass)
    fun s hs _ _ => SectionRecord.decode_of_holds hr (hfits s hs), hself, hsize, List.nil_append]

def SymbolRecord.toSymbol (d : Demanglers) (demangles : Bool) (r : Reader) (source : Symbol.Source)
    (index : Nat) (s : SymbolRecord) : Symbol :=
  .ofRecord d demangles r source index s s.sectionIndex.toUInt32

/-- The nibbles of the info byte are the type and the binding; the low two bits of the byte after it are
the visibility. -/
theorem SymbolRecord.toSymbol_kinds (d : Demanglers) (demangles : Bool) (source : Symbol.Source)
    (index : Nat) (s : SymbolRecord) :
    let symbol := s.toSymbol d demangles r source index
    symbol.kind = .ofCode (s.info % 16) ∧ symbol.binding = .ofCode (s.info / 16) ∧
      symbol.visibility = .ofCode (s.other % 4) := by
  have hlow : s.info &&& 0xf = s.info % 16 := by
    apply UInt8.toNat_inj.1
    exact Nat.and_two_pow_sub_one_eq_mod _ 4
  have hhigh : s.info >>> 4 = s.info / 16 := by
    apply UInt8.toNat_inj.1
    exact Nat.shiftRight_eq_div_pow _ 4
  have hmod : (s.other % 4).toNat % 4 = s.other.toNat % 4 := Nat.mod_mod_of_dvd _ (Nat.dvd_refl 4)
  refine ⟨congrArg SymbolType.ofCode hlow, congrArg SymbolBinding.ofCode hhigh, ?_⟩
  rw [Visibility.ofCode, hmod]
  rfl

namespace Symbol

theorem readSectionIndex_of_ne {companion : Option Section} {field : UInt16} {index : Nat}
    (h : field ≠ indexEscape) : readSectionIndex r companion field index = .ok field.toUInt32 := by
  cases companion with
  | none => rfl
  | some x => exact if_neg h

theorem decode_of_holds (hr : r.length < UInt64.size) {c : ElfClass} {s : SymbolRecord}
    (hfits : s.Fits c) (hindex : s.sectionIndex ≠ indexEscape) (d : Demanglers) (demangles : Bool)
    (source : Source) {offset : Nat} (index : Nat) (hs : r.Holds offset (r.order.record (s.fields c))) :
    decode d demangles c r source offset index = .ok (s.toSymbol d demangles r source index) := by
  simp only [decode, SymbolRecord.decode_of_holds hr hfits hs, readSectionIndex_of_ne hindex,
    bind, Except.bind, pure, Except.pure, SymbolRecord.toSymbol]

theorem ofSource_eq (hr : r.length < UInt64.size) {c : ElfClass} {records : List SymbolRecord}
    (hfits : ∀ s ∈ records, s.Fits c) (hindex : ∀ s ∈ records, s.sectionIndex ≠ indexEscape)
    (d : Demanglers) (demangles : Bool) {source : Source}
    (hcount : source.table.size.toNat / source.table.stride c.symbolSize = records.length)
    (htable : r.HoldsTable source.table.offset.toNat (source.table.stride c.symbolSize) c.symbolSize
      (records.map fun s => r.order.record (s.fields c))) :
    ofSource d demangles c r source =
      ((records.mapIdx (SymbolRecord.toSymbol d demangles r source)).drop 1, []) := by
  rw [ofSource_eq_walk]
  dsimp only
  rw [htable.walk_eq hr hcount (SymbolRecord.length_encode r.order c)
    fun s hs _ i => decode_of_holds hr (hfits s hs) (hindex s hs) d demangles source i]
  dsimp only
  cases records with
  | nil => rfl
  | cons s records =>
      rw [List.mapIdx_cons, List.drop_succ_cons, List.drop_zero, List.filter_cons_of_neg]
      · refine congrArg (·, []) (List.filter_eq_self.2 fun symbol hsymbol => ?_)
        obtain ⟨i, hi, rfl⟩ := List.mem_mapIdx.1 hsymbol
        simp [SymbolRecord.toSymbol, ofRecord]
      · simp [SymbolRecord.toSymbol, ofRecord]

end Symbol

def RelocationEntry.toRelocation (h : FileHeader) (symbols : List Symbol) (s : Section)
    (withAddend : Bool) (e : RelocationEntry) : Relocation :=
  { offset := e.offset
    info := e.info h.elfClass
    typeCode := e.typeCode
    typeName := Relocation.typeName? h.machineCode e.typeCode
    symbolIndex := e.symbol
    symbolName := Relocation.symbolName? symbols s.link.toNat e.symbol
    addend := if withAddend then some e.addend else none
    sectionIndex := s.index }

namespace Relocation

theorem decode_of_holds (hr : r.length < UInt64.size) {withAddend : Bool} {e : RelocationEntry}
    (he : e.Fits h.elfClass withAddend) (symbols : List Symbol) (s : Section) {offset : Nat}
    (hholds : r.Holds offset (r.order.record (e.fields h.elfClass withAddend))) :
    decode r h symbols s withAddend offset = .ok (e.toRelocation h symbols s withAddend) := by
  simp only [decode, RelocationEntry.decode_of_holds hr he hholds, RelocationEntry.ofInfo_info he,
    bind, Except.bind, pure, Except.pure, RelocationEntry.toRelocation]

theorem ofSection_eq (hr : r.length < UInt64.size) {withAddend : Bool}
    {records : List RelocationEntry} (hfits : ∀ e ∈ records, e.Fits h.elfClass withAddend)
    {t : SectionTable} (symbols : List Symbol) {s : Section}
    (hkind : s.kind = if withAddend then .rela else .rel) (hlink : s.link.toNat < t.size)
    (hcount : s.size.toNat / s.stride (h.elfClass.relocationSize withAddend) = records.length)
    (htable : r.HoldsTable s.offset.toNat (s.stride (h.elfClass.relocationSize withAddend))
      (h.elfClass.relocationSize withAddend)
      (records.map fun e => r.order.record (e.fields h.elfClass withAddend))) :
    ofSection r h t symbols s = (records.map (·.toRelocation h symbols s withAddend), []) := by
  rw [ofSection_eq_walk symbols hkind hlink]
  rw [htable.walk_eq (f := fun _ e => e.toRelocation h symbols s withAddend) hr hcount
    (RelocationEntry.length_encode r.order h.elfClass withAddend)
    fun e he _ _ => decode_of_holds hr (hfits e he) symbols s, mapIdx_eq_map]

end Relocation

end ElfAtlas
