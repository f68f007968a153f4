import ElfAtlas.Proofs.Elf.Completeness
import Mathlib.Data.List.Nodup

/-!
Which symbol a relocation names. A symbol is known by its table and its index there; no two symbols of
a file agree in both, so a look-up by both finds the one symbol that is meant.
-/

namespace ElfAtlas

variable {r : Reader} {h : FileHeader} {t : SectionTable} {symbols : List Symbol}

namespace Symbol

def place (s : Symbol) : Nat × Nat := (s.tableSection, s.index)

def InOrder (symbols : List Symbol) : Prop :=
  symbols.Pairwise fun s s' => Prod.Lex (· < ·) (· < ·) s.place s'.place

variable {d : Demanglers} {demangles : Bool}

theorem pairwise_index_ofSource (c : ElfClass) (r : Reader) (source : Source) :
    (ofSource d demangles c r source).1.Pairwise fun s s' => s.index < s'.index := by
  refine List.pairwise_map.1 ?_
  rw [map_index_ofSource_eq_filter]
  exact List.pairwise_lt_range.filter _

theorem inOrder_extract (hindex : t.toList.Pairwise fun s s' => s.index < s'.index) :
    InOrder (extract d demangles r h t).1 := by
  simp only [InOrder, extract, List.flatMap_map]
  refine List.pairwise_flatMap.2 ⟨fun source _ => ?_, ?_⟩
  · refine (pairwise_index_ofSource h.elfClass r source).imp_of_mem fun hs hs' hlt => ?_
    rw [place, place, tableSection_of_mem_ofSource hs, tableSection_of_mem_ofSource hs']
    exact .right _ hlt
  · refine (pairwise_sources hindex).imp fun hlt s hs s' hs' => .left _ _ ?_
    rwa [tableSection_of_mem_ofSource hs, tableSection_of_mem_ofSource hs']

theorem index_ne_zero_of_mem_extract {s : Symbol} (hs : s ∈ (extract d demangles r h t).1) :
    s.index ≠ 0 := by
  simp only [extract, List.flatMap_map, List.mem_flatMap] at hs
  obtain ⟨source, -, hs⟩ := hs
  simpa using (List.mem_filter.1 hs).2

/-- No two symbols have the same place. -/
theorem InOrder.eq_of_place_eq (hsymbols : InOrder symbols) {s s' : Symbol} (hs : s ∈ symbols)
    (hs' : s' ∈ symbols) (hplace : s.place = s'.place) : s = s' := by
  have hnodup : (symbols.map place).Nodup := by
    refine (List.pairwise_map.2 hsymbols).imp ?_
    rintro x _ hlt rfl
    obtain ⟨_, _, hlt⟩ | ⟨_, hlt⟩ := hlt
    · exact Nat.lt_irrefl _ hlt
    · exact Nat.lt_irrefl _ hlt
  exact List.inj_on_of_nodup_map hnodup hs hs' hplace

end Symbol

namespace Relocation

/-- The relocation is entry `k` of section `s`: it has the fields of the record there. -/
def IsEntry (r : Reader) (h : FileHeader) (s : Section) (k : Nat) (e : Relocation) : Prop :=
  ∃ withAddend : Bool, s.kind = (if withAddend then .rela else .rel) ∧
    RelocationRecord.decode h.elfClass withAddend r
      (s.offset.toNat + k * s.stride (h.elfClass.relocationSize withAddend)) =
        .ok ⟨e.offset, e.info, e.addend⟩ ∧
    ofInfo h.elfClass e.info = (e.symbolIndex, e.typeCode)

/-- Symbols with a name that are told apart by their places are found by them. -/
theorem symbolName?_eq_some_iff (hindex : ∀ s ∈ symbols, s.index ≠ 0)
    (hsymbols : Symbol.InOrder symbols) {table : Nat} {index : UInt32} {name : String} :
    symbolName? symbols table index = some name ↔
      name ≠ "" ∧ ∃ s ∈ symbols, s.place = (table, index.toNat) ∧ s.name = name := by
  let found : List Symbol :=
    symbols.filter fun s => s.name ≠ "" && s.tableSection = table && s.index = index.toNat
  have hfound (s : Symbol) : s ∈ found ↔
      s ∈ symbols ∧ s.name ≠ "" ∧ s.place = (table, index.toNat) := by
    simp [found, Symbol.place, and_assoc]
  constructor
  · intro hname
    rw [symbolName?] at hname
    split at hname
    · cases hname
    · obtain ⟨s, hs, rfl⟩ := Option.map_eq_some_iff.1 hname
      obtain ⟨hmem, hne, hplace⟩ := (hfound s).1 (List.mem_of_getLast? hs)
      exact ⟨hne, s, hmem, hplace, rfl⟩
  · rintro ⟨hne, s, hs, hplace, rfl⟩
    have hzero : index ≠ 0 := by
      rintro rfl
      exact hindex s hs (congrArg Prod.snd hplace)
    rw [symbolName?, if_neg hzero]
    have hmem : s ∈ found := (hfound s).2 ⟨hs, hne, hplace⟩
    obtain ⟨last, hlast⟩ :=
      Option.isSome_iff_exists.1 (List.getLast?_isSome.2 (List.ne_nil_of_mem hmem))
    obtain ⟨hs', -, hplace'⟩ := (hfound last).1 (List.mem_of_getLast? hlast)
    have heq : last = s := hsymbols.eq_of_place_eq hs' hs (hplace'.trans hplace.symm)
    rw [show (symbols.filter _).getLast? = some last from hlast, heq]
    rfl

/-- The relocations of a section are its entries in order. -/
theorem isEntry_of_getElem?_ofSection {s : Section} {k : Nat} {e : Relocation}
    (he : (ofSection r h t symbols s).1[k]? = some e) :
    e.symbolName = symbolName? symbols s.link.toNat e.symbolIndex ∧ e.IsEntry r h s k := by
  obtain hnil | ⟨withAddend, hkind, hlink⟩ := ofSection_eq_nil_or r h t symbols s
  · rw [hnil] at he
    cases he
  · rw [ofSection_eq_walk symbols hkind hlink] at he
    have hdecode := (TableLayout.entry_eq_ok_iff.1 (TableLayout.entry_of_getElem?_walk he)).2.2
    obtain ⟨-, hname, hrecord, hinfo⟩ := decode_eq_ok hdecode
    exact ⟨hname, withAddend, hkind, hrecord, hinfo⟩

theorem mem_extract_iff {e : Relocation} :
    e ∈ (extract r h t symbols).1 ↔ ∃ s ∈ t.toList, e ∈ (ofSection r h t symbols s).1 := by
  simp only [extract, List.flatMap_map, List.mem_flatMap]

/-- Relocations come section by section. -/
theorem pairwise_sectionIndex_extract (hindex : t.toList.Pairwise fun s s' => s.index < s'.index) :
    (extract r h t symbols).1.Pairwise fun e e' => e.sectionIndex ≤ e'.sectionIndex := by
  simp only [extract, List.flatMap_map]
  refine List.pairwise_flatMap.2 ⟨fun s _ => ?_, hindex.imp fun hlt e he e' he' => ?_⟩
  · refine List.pairwise_of_forall_mem_list fun e he e' he' => ?_
    exact Nat.le_of_eq
      ((sectionIndex_of_mem_ofSection he).trans (sectionIndex_of_mem_ofSection he').symm)
  · rw [sectionIndex_of_mem_ofSection he, sectionIndex_of_mem_ofSection he']
    exact Nat.le_of_lt hlt

/-- The symbols of a file come in the order of their tables and of their indices there, and index 0 is
none. A relocation has the name of the symbol that its section's link and its symbol index place, if
that symbol is there and has a name; else it has none. Relocations come in the order of their sections
and, within one, of its entries. -/
theorem extract_names_symbols (r : Reader) (h : FileHeader) (counts : TableCounts) (d : Demanglers)
    (demangles : Bool) :
    let t := (SectionTable.parse r h counts).1
    let symbols := (Symbol.extract d demangles r h t).1
    let relocations := (extract r h t symbols).1
    symbols.Pairwise (fun x y =>
        Prod.Lex (· < ·) (· < ·) (x.tableSection, x.index) (y.tableSection, y.index)) ∧
      (∀ x ∈ symbols, ∀ y ∈ symbols, x.tableSection = y.tableSection → x.index = y.index → x = y) ∧
      (∀ x ∈ symbols, x.index ≠ 0) ∧
      (∀ e ∈ relocations, ∃ s, t.get? e.sectionIndex = some s ∧ (s.kind = .rel ∨ s.kind = .rela) ∧
        ∀ name, e.symbolName = some name ↔
          name ≠ "" ∧ ∃ x ∈ symbols, x.tableSection = s.link.toNat ∧ x.index = e.symbolIndex.toNat ∧
            x.name = name) ∧
      relocations.Pairwise (fun e e' => e.sectionIndex ≤ e'.sectionIndex) ∧
      ∀ s ∈ t.toList, ∀ (k : Nat) (e : Relocation),
        (relocations.filter (·.sectionIndex = s.index))[k]? = some e → e.IsEntry r h s k := by
  intro t symbols relocations
  have hsections : t.toList.Pairwise fun s s' => s.index < s'.index :=
    SectionTable.pairwise_index_lt_parse r h counts
  have horder : Symbol.InOrder symbols := Symbol.inOrder_extract hsections
  have hindex : ∀ x ∈ symbols, x.index ≠ 0 := fun x => Symbol.index_ne_zero_of_mem_extract
  refine ⟨horder, ?_, hindex, ?_, pairwise_sectionIndex_extract hsections, ?_⟩
  · intro x hx y hy htable hplace
    exact horder.eq_of_place_eq hx hy (Prod.ext htable hplace)
  · intro e he
    obtain ⟨s, hs, he⟩ := mem_extract_iff.1 he
    obtain ⟨k, hk⟩ := List.mem_iff_getElem?.1 he
    obtain ⟨hname, withAddend, hkind, -⟩ := isEntry_of_getElem?_ofSection hk
    refine ⟨s, ?_, ?_, fun name => ?_⟩
    · rw [sectionIndex_of_mem_ofSection he]
      exact SectionTable.get?_index_of_mem_parse hs
    · cases withAddend with
      | false => exact .inl hkind
      | true => exact .inr hkind
    · rw [hname, symbolName?_eq_some_iff hindex horder]
      simp only [Symbol.place, Prod.mk.injEq, and_assoc]
  · intro s hs k e he
    have hgroup : relocations.filter (·.sectionIndex = s.index) = (ofSection r h t symbols s).1 := by
      simp only [relocations, extract, List.flatMap_map]
      exact filter_flatMap_of_key (hsections.imp Nat.ne_of_lt)
        (fun s e he => sectionIndex_of_mem_ofSection he) hs
    rw [hgroup] at he
    exact (isEntry_of_getElem?_ofSection he).2

end Relocation

end ElfAtlas
