import ElfAtlas.Proofs.Elf.Tables

/-!
A pass over tables that reports no fault has lost nothing. The passes over symbols and relocations leave
a section out without a word if its link names no section, so for them the pass over the section
headers must be silent as well: it reports those links.
-/

namespace ElfAtlas

/-- Of parts that are told apart by a key, one key selects one part. -/
theorem filter_flatMap_of_key {α β κ : Type} [DecidableEq κ] {k : α → κ} {g : β → κ}
    {f : α → List β} {xs : List α} (hkeys : xs.Pairwise fun x y => k x ≠ k y)
    (hkey : ∀ x, ∀ y ∈ f x, g y = k x) {x : α} (hx : x ∈ xs) :
    (xs.flatMap f).filter (g · = k x) = f x := by
  have hself (x : α) : (f x).filter (g · = k x) = f x :=
    List.filter_eq_self.2 fun y hy => decide_eq_true (hkey x y hy)
  have hother {z x : α} (hne : k z ≠ k x) : (f z).filter (g · = k x) = [] := by
    refine List.filter_eq_nil_iff.2 fun y hy => ?_
    rw [hkey z y hy]
    simpa using hne
  induction xs with
  | nil => simp at hx
  | cons z xs ih =>
      obtain ⟨hz, hkeys⟩ := List.pairwise_cons.1 hkeys
      rw [List.flatMap_cons, List.filter_append]
      obtain rfl | hx := List.mem_cons.1 hx
      · have hrest : (xs.flatMap f).filter (g · = k x) = [] := by
          rw [List.filter_flatMap, List.flatMap_eq_nil_iff]
          exact fun y hy => hother (hz y hy).symm
        rw [hself, hrest, List.append_nil]
      · rw [hother (hz x hx), List.nil_append, ih hkeys hx]

theorem filter_ne_zero_range (n : Nat) : (List.range n).filter (· ≠ 0) = List.range' 1 (n - 1) := by
  cases n with
  | zero => rfl
  | succ n =>
      rw [List.range_eq_range', List.range'_succ, List.filter_cons_of_neg (by simp)]
      refine List.filter_eq_self.2 fun i hi => ?_
      have := (List.mem_range'_1.1 hi).1
      simp
      omega

variable {r : Reader} {h : FileHeader}

theorem Segment.length_table {count : Nat} (hoffset : h.segmentOffset ≠ 0)
    (hfaults : (Segment.table r h count).2 = []) : (Segment.table r h count).1.length = count := by
  rw [table, if_neg hoffset] at hfaults ⊢
  exact TableLayout.length_walk hfaults

namespace SectionTable

variable {counts : TableCounts}

theorem size_parse (hoffset : h.sectionOffset ≠ 0) (hfaults : (parse r h counts).2 = []) :
    (parse r h counts).1.size = counts.sections := by
  simp only [parse, if_neg hoffset, List.append_eq_nil_iff] at hfaults ⊢
  rw [size_ofRecords, TableLayout.length_walk hfaults.1]

/-- A section whose link must name a section links to one. -/
theorem link_lt_size (hfaults : (parse r h counts).2 = []) {s : Section}
    (hs : s ∈ (parse r h counts).1.toList) (hkind : s.kind.requiresLink = true) :
    s.link.toNat < (parse r h counts).1.size := by
  by_cases hoffset : h.sectionOffset = 0
  · simp [parse, hoffset, toList] at hs
  · simp only [parse, if_neg hoffset, List.append_eq_nil_iff, List.flatMap_eq_nil_iff] at hfaults hs ⊢
    have hlink := (List.append_eq_nil_iff.1 (hfaults.2 s hs)).1
    simpa [hkind] using hlink

/-- No two sections of a file have the same index. -/
theorem pairwise_index_parse (r : Reader) (h : FileHeader) (counts : TableCounts) :
    (parse r h counts).1.toList.Pairwise fun s s' => s.index ≠ s'.index :=
  (pairwise_index_lt_parse r h counts).imp Nat.ne_of_lt

end SectionTable

namespace Symbol

variable {t : SectionTable} {d : Demanglers} {demangles : Bool} {c : ElfClass} {source : Source}

theorem Source.table_of_ofSection? {s : Section} (hsource : ofSection? t s = some source) :
    source.table = s := by
  rw [ofSection?] at hsource
  split at hsource
  all_goals simp only [bind, Option.bind_some, Option.bind_none, Option.bind_eq_some_iff] at hsource
  · obtain ⟨strings, -, ⟨⟩⟩ := hsource
    rfl
  · obtain ⟨strings, -, ⟨⟩⟩ := hsource
    rfl
  · cases hsource

theorem Source.exists_ofSection? {s : Section} (hkind : s.kind = .symtab ∨ s.kind = .dynsym)
    (hlink : s.link.toNat < t.size) : ∃ source, ofSection? t s = some source := by
  obtain ⟨strings, hstrings⟩ : ∃ strings, t.linked? s.link = some strings :=
    ⟨_, Array.getElem?_eq_getElem hlink⟩
  obtain hkind | hkind := hkind <;> simp [ofSection?, hkind, hstrings]

theorem decode_eq_ok {offset index : Nat} {s : Symbol}
    (hs : decode d demangles c r source offset index = .ok s) :
    s.index = index ∧ s.tableSection = source.table.index := by
  rw [decode, bind_eq_ok_iff] at hs
  obtain ⟨record, -, hs⟩ := hs
  rw [bind_eq_ok_iff] at hs
  obtain ⟨sectionIndex, -, hs⟩ := hs
  cases hs
  exact ⟨rfl, rfl⟩

theorem tableSection_of_mem_ofSource {s : Symbol} (hs : s ∈ (ofSource d demangles c r source).1) :
    s.tableSection = source.table.index := by
  obtain ⟨offset, index, hdecode⟩ := TableLayout.exists_decode_of_mem_walk (List.mem_filter.1 hs).1
  exact (decode_eq_ok hdecode).2

/-- Of the entries that a walk keeps, all but the reserved first are symbols. -/
theorem map_index_ofSource_eq_filter :
    (ofSource d demangles c r source).1.map (·.index) =
      (List.range ((layout c source.table).walk r (decode d demangles c r source)).1.length).filter
        (· ≠ 0) := by
  have hindex (offset index : Nat) (s : Symbol)
      (hs : decode d demangles c r source offset index = .ok s) : s.index = index :=
    (decode_eq_ok hs).1
  rw [← TableLayout.map_walk hindex, List.filter_map]
  rfl

/-- A table read without a fault yields every entry after the reserved first. -/
theorem map_index_ofSource (hfaults : (ofSource d demangles c r source).2 = []) :
    (ofSource d demangles c r source).1.map (·.index) =
      List.range' 1 (source.table.size.toNat / source.table.stride c.symbolSize - 1) := by
  have hlength : ((layout c source.table).walk r (decode d demangles c r source)).1.length =
      source.table.size.toNat / source.table.stride c.symbolSize := by
    rw [TableLayout.length_walk hfaults, layout, TableLayout.ofRange_section]
  rw [map_index_ofSource_eq_filter, hlength, filter_ne_zero_range]

/-- The sources of the symbols come in the order of their sections. -/
theorem pairwise_sources {R : Nat → Nat → Prop}
    (hindex : t.toList.Pairwise fun s s' => R s.index s'.index) :
    (t.toList.filterMap (Source.ofSection? t)).Pairwise fun x y => R x.table.index y.table.index := by
  refine hindex.filterMap _ fun s s' hrelated x hx y hy => ?_
  rwa [Source.table_of_ofSection? hx, Source.table_of_ofSection? hy]

/-- The symbols of a symbol table are its entries after the reserved first, each once and in order. -/
theorem map_index_extract (hfaults : (extract d demangles r h t).2 = [])
    (hindex : t.toList.Pairwise fun s s' => s.index ≠ s'.index)
    {s : Section} (hs : s ∈ t.toList) (hkind : s.kind = .symtab ∨ s.kind = .dynsym)
    (hlink : s.link.toNat < t.size) :
    ((extract d demangles r h t).1.filter (·.tableSection = s.index)).map (·.index) =
      List.range' 1 (s.size.toNat / s.stride h.elfClass.symbolSize - 1) := by
  obtain ⟨source, hsource⟩ := Source.exists_ofSection? hkind hlink
  obtain rfl := Source.table_of_ofSection? hsource
  have hsource : source ∈ t.toList.filterMap (Source.ofSection? t) :=
    List.mem_filterMap.2 ⟨_, hs, hsource⟩
  simp only [extract, List.flatMap_map, List.flatMap_eq_nil_iff] at hfaults ⊢
  rw [filter_flatMap_of_key (pairwise_sources hindex)
    (fun x s hs => tableSection_of_mem_ofSource hs) hsource]
  exact map_index_ofSource (hfaults source hsource)

end Symbol

namespace Relocation

variable {t : SectionTable} {symbols : List Symbol} {s : Section}

theorem decode_eq_ok {withAddend : Bool} {offset : Nat} {e : Relocation}
    (he : decode r h symbols s withAddend offset = .ok e) :
    e.sectionIndex = s.index ∧ e.symbolName = symbolName? symbols s.link.toNat e.symbolIndex ∧
      RelocationRecord.decode h.elfClass withAddend r offset = .ok ⟨e.offset, e.info, e.addend⟩ ∧
      ofInfo h.elfClass e.info = (e.symbolIndex, e.typeCode) := by
  rw [decode, bind_eq_ok_iff] at he
  obtain ⟨record, hrecord, he⟩ := he
  cases he
  exact ⟨rfl, rfl, hrecord, rfl⟩

theorem sectionIndex_of_mem_ofSection {e : Relocation} (he : e ∈ (ofSection r h t symbols s).1) :
    e.sectionIndex = s.index := by
  obtain hnil | ⟨withAddend, hkind, hlink⟩ := ofSection_eq_nil_or r h t symbols s
  · rw [hnil] at he
    cases he
  · rw [ofSection_eq_walk symbols hkind hlink] at he
    obtain ⟨offset, index, hdecode⟩ := TableLayout.exists_decode_of_mem_walk he
    exact (decode_eq_ok hdecode).1

theorem length_ofSection {withAddend : Bool} (hkind : s.kind = if withAddend then .rela else .rel)
    (hlink : s.link.toNat < t.size) (hfaults : (ofSection r h t symbols s).2 = []) :
    (ofSection r h t symbols s).1.length =
      s.size.toNat / s.stride (h.elfClass.relocationSize withAddend) := by
  rw [ofSection_eq_walk symbols hkind hlink] at hfaults ⊢
  exact TableLayout.length_walk hfaults

theorem length_extract {withAddend : Bool} (hfaults : (extract r h t symbols).2 = [])
    (hindex : t.toList.Pairwise fun s s' => s.index ≠ s'.index) (hs : s ∈ t.toList)
    (hkind : s.kind = if withAddend then .rela else .rel) (hlink : s.link.toNat < t.size) :
    ((extract r h t symbols).1.filter (·.sectionIndex = s.index)).length =
      s.size.toNat / s.stride (h.elfClass.relocationSize withAddend) := by
  simp only [extract, List.flatMap_map, List.flatMap_eq_nil_iff] at hfaults ⊢
  rw [filter_flatMap_of_key hindex (fun s e he => sectionIndex_of_mem_ofSection he) hs]
  exact length_ofSection hkind hlink (hfaults s hs)

end Relocation

end ElfAtlas
