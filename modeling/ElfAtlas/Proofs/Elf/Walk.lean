import ElfAtlas.Elf.Relocation
import ElfAtlas.Proofs.Prefix

/-!
Walks over tables. A walk that meets no fault keeps every entry; the entries that it keeps are those
from the first on, without a gap. A walk that loses entries says how many it kept.
-/

namespace ElfAtlas

/-- The distance of the entries of a table that fills a section; an entry size of zero means the
record's own. -/
def Section.stride (s : Section) (recordSize : Nat) : Nat :=
  if s.entrySize = 0 then recordSize else s.entrySize.toNat

namespace TableLayout

theorem ofRange_section (name : String) (s : Section) (recordSize : Nat) :
    ofRange name s.offset.toNat s.size.toNat s.entrySize.toNat recordSize =
      { name, offset := s.offset.toNat, count := s.size.toNat / s.stride recordSize,
        entrySize := s.stride recordSize, recordSize } := by
  have hzero : s.entrySize.toNat = 0 ↔ s.entrySize = 0 := by
    rw [← UInt64.toNat_inj]
    rfl
  simp only [ofRange, Section.stride, hzero]

variable {α β : Type} {t : TableLayout} {r : Reader} {decode : Nat → Nat → Except Fault α}

/-- An entry is kept exactly when its record lies in the image and can be decoded. -/
theorem entry_eq_ok_iff {index : Nat} {record : α} :
    t.entry r decode index = .ok record ↔
      t.offset + index * t.entrySize + t.recordSize ≤ r.length ∧
        t.offset + index * t.entrySize + t.recordSize < UInt64.size ∧
        decode (t.offset + index * t.entrySize) index = .ok record := by
  rw [entry]
  split
  · rename_i fault hoffset
    simp only [reduceCtorEq, false_iff]
    rintro ⟨-, hlt, -⟩
    have := entryOffset_eq_ok_iff.2 ⟨rfl, Nat.lt_of_le_of_lt (Nat.le_add_right ..) hlt⟩
    rw [hoffset] at this
    cases this
  · rename_i offset hoffset
    obtain ⟨rfl, -⟩ := entryOffset_eq_ok_iff.1 hoffset
    rw [← and_assoc, ← Reader.contains_eq_true_iff]
    split
    · rename_i hcontains
      rw [and_iff_right hcontains]
      split <;> simp_all
    · simp_all

/-- Where every entry is kept, so are all records that the entries hold. -/
theorem walkFrom_eq_mapIdx {f : Nat → β → α} {records : List β} {index : Nat}
    (h : ∀ i b, records[i]? = some b → t.entry r decode (index + i) = .ok (f (index + i) b)) :
    t.walkFrom r decode records.length index = (records.mapIdx fun i => f (index + i), []) := by
  induction records generalizing index with
  | nil => rfl
  | cons b records ih =>
      have hfirst := h 0 b rfl
      have hrest : t.walkFrom r decode records.length (index + 1) =
          (records.mapIdx fun i => f (index + 1 + i), []) := by
        refine ih fun i b hb => ?_
        have := h (i + 1) b hb
        rwa [Nat.add_comm i, ← Nat.add_assoc] at this
      rw [Nat.add_zero] at hfirst
      simp only [List.length_cons, walkFrom, hfirst, hrest, List.mapIdx_cons, Nat.add_zero]
      simp only [Nat.add_assoc, Nat.add_comm 1]

theorem walk_eq_mapIdx {f : Nat → β → α} {records : List β} (hcount : t.count = records.length)
    (hsize : t.recordSize ≤ t.entrySize)
    (h : ∀ i b, records[i]? = some b → t.entry r decode i = .ok (f i b)) :
    t.walk r decode = (records.mapIdx f, []) := by
  rw [walk]
  split
  · have hnil : records = [] := List.length_eq_zero_iff.1 (by omega)
    rw [hnil]
    rfl
  · rw [if_neg (by omega), hcount, walkFrom_eq_mapIdx (f := f) (by simpa using h)]
    simp

/-- A walk keeps all its entries, or it ends at the first that it does not keep and reports what it met
there and how many it kept. -/
theorem walkFrom_cases (t : TableLayout) (r : Reader) (decode : Nat → Nat → Except Fault α)
    (left index : Nat) :
    let kept := (t.walkFrom r decode left index).1.length
    let faults := (t.walkFrom r decode left index).2
    kept = left ∧ faults = [] ∨
      kept < left ∧ ∃ own, t.entry r decode (index + kept) = .error own ∧
        faults = own ++ [t.truncated (index + kept)] := by
  induction left generalizing index with
  | zero => exact .inl ⟨rfl, rfl⟩
  | succ left ih =>
      rw [walkFrom]
      cases hentry : t.entry r decode index with
      | error own => exact .inr ⟨Nat.succ_pos left, own, hentry, rfl⟩
      | ok record =>
          obtain ⟨hall, hfaults⟩ | ⟨hlt, own, hown, hfaults⟩ := ih (index + 1)
          · exact .inl ⟨congrArg Nat.succ hall, hfaults⟩
          · rw [Nat.add_assoc, Nat.add_comm 1] at hown hfaults
            exact .inr ⟨Nat.succ_lt_succ hlt, own, hown, hfaults⟩

theorem length_walkFrom {left index : Nat} (h : (t.walkFrom r decode left index).2 = []) :
    (t.walkFrom r decode left index).1.length = left := by
  obtain ⟨hall, -⟩ | ⟨-, own, -, hfaults⟩ := walkFrom_cases t r decode left index
  · exact hall
  · rw [h] at hfaults
    simp at hfaults

/-- A walk loses no entry without a fault. -/
theorem length_walk (h : (t.walk r decode).2 = []) : (t.walk r decode).1.length = t.count := by
  rw [walk] at h ⊢
  split
  · rename_i hcount
    exact hcount.symm
  · rename_i hcount
    rw [if_neg hcount] at h
    split at h
    · simp at h
    · rename_i hsize
      rw [if_neg hsize]
      exact length_walkFrom h

theorem entry_of_getElem?_walkFrom {left index i : Nat} {record : α}
    (h : (t.walkFrom r decode left index).1[i]? = some record) :
    t.entry r decode (index + i) = .ok record := by
  induction left generalizing index i with
  | zero => simp [walkFrom] at h
  | succ left ih =>
      rw [walkFrom] at h
      split at h
      · simp at h
      · rename_i first hfirst
        cases i with
        | zero =>
            cases h
            exact hfirst
        | succ i =>
            rw [Nat.add_comm i, ← Nat.add_assoc]
            exact ih h

/-- What a walk keeps at a place is the entry of that index. -/
theorem entry_of_getElem?_walk {i : Nat} {record : α} (h : (t.walk r decode).1[i]? = some record) :
    t.entry r decode i = .ok record := by
  rw [walk] at h
  split at h
  · simp at h
  · split at h
    · simp at h
    · simpa using entry_of_getElem?_walkFrom h

theorem exists_decode_of_mem_walk {record : α} (h : record ∈ (t.walk r decode).1) :
    ∃ offset index, decode offset index = .ok record := by
  obtain ⟨i, hi⟩ := List.mem_iff_getElem?.1 h
  exact ⟨_, _, (entry_eq_ok_iff.1 (entry_of_getElem?_walk hi)).2.2⟩

/-- Records that know their index are kept from the first on without a gap. -/
theorem map_walk {g : α → Nat} (hg : ∀ offset i record, decode offset i = .ok record → g record = i) :
    (t.walk r decode).1.map g = List.range (t.walk r decode).1.length := by
  refine List.ext_getElem? fun i => ?_
  rw [List.getElem?_map]
  cases h : (t.walk r decode).1[i]? with
  | none =>
      rw [List.getElem?_eq_none_iff] at h
      simp [h]
  | some record =>
      obtain ⟨hi, -⟩ := List.getElem?_eq_some_iff.1 h
      have hdecode := (entry_eq_ok_iff.1 (entry_of_getElem?_walk h)).2.2
      simp [hg _ _ _ hdecode, hi]

theorem length_walkFrom_le (left index : Nat) : (t.walkFrom r decode left index).1.length ≤ left := by
  induction left generalizing index with
  | zero => exact Nat.le_refl _
  | succ left ih =>
      rw [walkFrom]
      split
      · exact Nat.zero_le _
      · exact Nat.succ_le_succ (ih (index + 1))

theorem length_walk_le : (t.walk r decode).1.length ≤ t.count := by
  rw [walk]
  split
  · exact Nat.zero_le _
  · split
    · exact Nat.zero_le _
    · exact length_walkFrom_le t.count 0

theorem recordSize_le_of_walk_ne_nil (h : (t.walk r decode).1 ≠ []) : t.recordSize ≤ t.entrySize := by
  rw [walk] at h
  split at h
  · exact absurd rfl h
  · split at h
    · exact absurd rfl h
    · rename_i hsize
      exact Nat.le_of_not_lt hsize

theorem truncated_mem_walkFrom {left index : Nat}
    (h : (t.walkFrom r decode left index).1.length < left) :
    t.truncated (index + (t.walkFrom r decode left index).1.length) ∈
      (t.walkFrom r decode left index).2 := by
  obtain ⟨hall, -⟩ | ⟨-, own, -, hfaults⟩ := walkFrom_cases t r decode left index
  · exact absurd hall (Nat.ne_of_lt h)
  · rw [hfaults]
    exact List.mem_append_right own (List.mem_singleton_self _)

theorem walk_eq_walkFrom (hsize : t.recordSize ≤ t.entrySize) :
    t.walk r decode = t.walkFrom r decode t.count 0 := by
  rw [walk]
  split
  · rename_i hcount
    rw [hcount]
    rfl
  · rw [if_neg (Nat.not_lt.2 hsize)]

/-- A walk that loses entries says how many it kept. -/
theorem truncated_mem_walk (h : (t.walk r decode).1.length < t.count)
    (hsize : t.recordSize ≤ t.entrySize) :
    t.truncated (t.walk r decode).1.length ∈ (t.walk r decode).2 := by
  rw [walk_eq_walkFrom hsize] at h ⊢
  have := truncated_mem_walkFrom h
  rwa [Nat.zero_add] at this

/-- Entries that one image has in common with another are the first that it keeps. -/
theorem walkFrom_prefix {p : Reader} {decode' : Nat → Nat → Except Fault α}
    (h : ∀ i record, t.entry p decode' i = .ok record → t.entry r decode i = .ok record)
    (left index : Nat) :
    (t.walkFrom p decode' left index).1 <+: (t.walkFrom r decode left index).1 := by
  induction left generalizing index with
  | zero => exact List.prefix_refl _
  | succ left ih =>
      rw [walkFrom, walkFrom]
      cases hentry : t.entry p decode' index with
      | error faults => exact List.nil_prefix
      | ok record =>
          rw [h index record hentry]
          exact (List.prefix_cons_inj record).2 (ih (index + 1))

theorem walk_prefix {p : Reader} {decode' : Nat → Nat → Except Fault α}
    (h : ∀ i record, t.entry p decode' i = .ok record → t.entry r decode i = .ok record) :
    (t.walk p decode').1 <+: (t.walk r decode).1 := by
  rw [walk, walk]
  split
  · exact List.prefix_refl _
  · split
    · exact List.prefix_refl _
    · exact walkFrom_prefix h t.count 0

/-- Of a cut image a walk keeps the first of the entries of the whole one. -/
theorem walk_prefix_of_continues {p : Reader} {decode' : Nat → Nat → Except Fault α}
    (hr : r.Continues p)
    (hreads : ∀ offset i, Reader.ReadsRange p offset t.recordSize (decode' offset i) (decode offset i)) :
    (t.walk p decode').1 <+: (t.walk r decode).1 := by
  refine walk_prefix fun i record hentry => ?_
  obtain ⟨hle, hlt, hrecord⟩ := entry_eq_ok_iff.1 hentry
  have hin := Reader.contains_eq_true_iff.2 ⟨hle, hlt⟩
  rw [(hreads _ i).eq hin] at hrecord
  exact entry_eq_ok_iff.2 ⟨Nat.le_trans hle hr.length_le, hlt, hrecord⟩

/-- A walk that keeps fewer entries than another one of the same table says how many it kept. -/
theorem truncated_mem_walk_of_length_lt {p : Reader} {decode' : Nat → Nat → Except Fault α}
    (h : (t.walk p decode').1.length < (t.walk r decode).1.length) :
    t.truncated (t.walk p decode').1.length ∈ (t.walk p decode').2 := by
  have hne : (t.walk r decode).1 ≠ [] := List.ne_nil_of_length_pos (Nat.zero_lt_of_lt h)
  exact truncated_mem_walk (Nat.lt_of_lt_of_le h length_walk_le) (recordSize_le_of_walk_ne_nil hne)

/-- The record of an entry that is kept lies in the image. -/
theorem record_le_of_lt_length_walk {i : Nat} (h : i < (t.walk r decode).1.length) :
    t.offset + i * t.entrySize + t.recordSize ≤ r.length :=
  (entry_eq_ok_iff.1 (entry_of_getElem?_walk (List.getElem?_eq_getElem h))).1

/-- The entries that are kept end in the image, but for the bytes of the last one behind its record. -/
theorem stop_le_of_walk_ne_nil (h : (t.walk r decode).1 ≠ []) :
    t.offset + (t.walk r decode).1.length * t.entrySize ≤ r.length + (t.entrySize - t.recordSize) := by
  have hsize := recordSize_le_of_walk_ne_nil h
  obtain ⟨n, hn⟩ := Nat.exists_eq_succ_of_ne_zero (mt List.length_eq_zero_iff.1 h)
  have hlt : n < (t.walk r decode).1.length := by omega
  have hlast := record_le_of_lt_length_walk hlt
  rw [hn, Nat.succ_mul]
  omega

/-- An entry whose record ends behind the image is dropped, and the walk says so. -/
theorem dropped_of_length_lt {i : Nat} (hi : i < t.count) (hsize : t.recordSize ≤ t.entrySize)
    (hout : r.length < t.offset + i * t.entrySize + t.recordSize) :
    (t.walk r decode).1.length ≤ i ∧ t.truncated (t.walk r decode).1.length ∈ (t.walk r decode).2 := by
  have hle : (t.walk r decode).1.length ≤ i :=
    Nat.le_of_not_lt fun hkept => Nat.not_le.2 hout (record_le_of_lt_length_walk hkept)
  exact ⟨hle, truncated_mem_walk (Nat.lt_of_le_of_lt hle hi) hsize⟩

/-- A table whose first record is not in the image has no entries, and the walk says so unless none are
declared. -/
theorem walk_of_first_out (hoffset : t.offset < UInt64.size)
    (hout : r.length < t.offset + t.recordSize) :
    t.walk r decode =
      ([], if t.count = 0 then []
        else if t.entrySize < t.recordSize then [.entryTooSmall t.name t.recordSize t.entrySize]
        else [t.truncated 0]) := by
  have hfirst : entryOffset t.offset 0 t.entrySize = .ok t.offset :=
    entryOffset_eq_ok_iff.2 ⟨by omega, hoffset⟩
  have hcontains : r.contains t.offset t.recordSize = false := by
    rw [← Bool.not_eq_true, Reader.contains_eq_true_iff]
    omega
  have hentry : t.entry r decode 0 = .error [] := by simp [entry, hfirst, hcontains]
  rw [walk]
  split
  · rfl
  · rename_i hcount
    obtain ⟨left, hleft⟩ := Nat.exists_eq_succ_of_ne_zero hcount
    split
    · rfl
    · rw [hleft, walkFrom, hentry]
      rfl

/-- The records of a walk up to the first that is refused, each of them changed by `f`. What the rest of
the walk reports gives way to the fault of that record, whose index `key` tells. -/
def upTo (t : TableLayout) (refused : α → Bool) (key : α → Nat) (fault : Fault) (f : α → β)
    (walked : List α × List Fault) : List β × List Fault :=
  ((walked.1.takeWhile fun record => !refused record).map f,
    match walked.1.find? refused with
    | some record => [fault, t.truncated (key record)]
    | none => walked.2)

section UpTo

variable {decode' : Nat → Nat → Except Fault β} {refused : α → Bool} {key : α → Nat} {fault : Fault}
  {f : α → β}

/-- An entry whose record is refused is none, and its fault says why. -/
theorem entry_of_refusal (h : ∀ offset i, decode' offset i = decode offset i >>= fun record =>
      if refused record then .error fault else .ok (f record)) (index : Nat) :
    t.entry r decode' index = t.entry r decode index >>= fun record =>
      if refused record then .error [fault] else .ok (f record) := by
  rw [entry, entry]
  split
  · rfl
  · split
    · rw [h]
      cases decode _ index with
      | error fault => rfl
      | ok record =>
          by_cases hrefused : refused record = true <;> simp [bind, Except.bind, hrefused]
    · rfl

theorem walkFrom_upTo (hkey : ∀ offset i record, decode offset i = .ok record → key record = i)
    (h : ∀ offset i, decode' offset i = decode offset i >>= fun record =>
      if refused record then .error fault else .ok (f record)) (left index : Nat) :
    t.walkFrom r decode' left index = t.upTo refused key fault f (t.walkFrom r decode left index) := by
  induction left generalizing index with
  | zero => rfl
  | succ left ih =>
      rw [walkFrom, walkFrom, entry_of_refusal h]
      cases hentry : t.entry r decode index with
      | error faults => rfl
      | ok record =>
          obtain rfl := hkey _ _ _ (entry_eq_ok_iff.1 hentry).2.2
          by_cases hrefused : refused record = true
          · simp [upTo, hrefused, bind, Except.bind]
          · simp [upTo, hrefused, bind, Except.bind, ih]

/-- A walk whose decoder may refuse a record is the walk without that step, up to the first record that
is refused. -/
theorem walk_upTo (hkey : ∀ offset i record, decode offset i = .ok record → key record = i)
    (h : ∀ offset i, decode' offset i = decode offset i >>= fun record =>
      if refused record then .error fault else .ok (f record)) :
    t.walk r decode' = t.upTo refused key fault f (t.walk r decode) := by
  rw [walk, walk]
  split
  · rfl
  · split
    · rfl
    · exact walkFrom_upTo hkey h t.count 0

/-- A choice of records that leaves out none that is refused may come before the cut or after it. -/
theorem upTo_filter {p : α → Bool} {q : β → Bool} (hp : ∀ a, refused a = true → p a = true)
    (hq : ∀ a, q (f a) = p a) (records : List α) (faults : List Fault) :
    t.upTo refused key fault f (records.filter p, faults) =
      ((t.upTo refused key fault f (records, faults)).1.filter q,
        (t.upTo refused key fault f (records, faults)).2) := by
  have hkept : (fun a => !p a || !refused a) = fun a => !refused a := by
    funext a
    cases hrefused : refused a with
    | false => exact Bool.or_true _
    | true => rw [hp a hrefused]; rfl
  have hcut : (fun a => decide (p a = true ∧ refused a = true)) = refused := by
    funext a
    cases hrefused : refused a with
    | false => simp
    | true => simp [hp a hrefused]
  have hchosen : q ∘ f = p := funext hq
  simp only [upTo, List.takeWhile_filter, List.find?_filter, List.filter_map, hkept, hcut, hchosen]

end UpTo

theorem isFatal_of_mem_entry {index : Nat} {faults : List Fault}
    (hdecode : ∀ offset i fault, decode offset i = .error fault → fault.isFatal = false)
    (h : t.entry r decode index = .error faults) : ∀ fault ∈ faults, fault.isFatal = false := by
  rw [entry] at h
  split at h
  · rename_i fault hoffset
    cases h
    simpa using (isRange_of_entryOffset hoffset).isFatal_eq_false
  · split at h
    · split at h
      · cases h
      · rename_i fault hrecord
        cases h
        simpa using hdecode _ _ _ hrecord
    · cases h
      simp

theorem isFatal_of_mem_walkFrom
    (hdecode : ∀ offset i fault, decode offset i = .error fault → fault.isFatal = false)
    (left index : Nat) : ∀ fault ∈ (t.walkFrom r decode left index).2, fault.isFatal = false := by
  obtain ⟨-, hfaults⟩ | ⟨-, own, hentry, hfaults⟩ := walkFrom_cases t r decode left index
  · rw [hfaults]
    exact List.forall_mem_nil _
  · rw [hfaults]
    refine List.forall_mem_append.2 ⟨isFatal_of_mem_entry hdecode hentry, ?_⟩
    exact List.forall_mem_singleton.2 rfl

/-- A walk goes on from its faults, so none of them may be fatal. -/
theorem isFatal_of_mem_walk
    (hdecode : ∀ offset i fault, decode offset i = .error fault → fault.isFatal = false) :
    ∀ fault ∈ (t.walk r decode).2, fault.isFatal = false := by
  rw [walk]
  split
  · exact List.forall_mem_nil _
  · split
    · exact List.forall_mem_singleton.2 rfl
    · exact isFatal_of_mem_walkFrom hdecode t.count 0

end TableLayout

variable {r : Reader}

theorem Symbol.ofSource_eq_walk (d : Demanglers) (demangles : Bool) (c : ElfClass) (source : Source) :
    Symbol.ofSource d demangles c r source =
      let t : TableLayout :=
        { name := source.table.tableName "symbol table", offset := source.table.offset.toNat,
          count := source.table.size.toNat / source.table.stride c.symbolSize,
          entrySize := source.table.stride c.symbolSize, recordSize := c.symbolSize }
      let (symbols, faults) := t.walk r (Symbol.decode d demangles c r source)
      (symbols.filter (·.index ≠ 0), faults) := by
  rw [ofSource, layout, TableLayout.ofRange_section]

theorem Relocation.ofSection_eq_walk {h : FileHeader} {t : SectionTable} (symbols : List Symbol)
    {s : Section} {withAddend : Bool} (hkind : s.kind = if withAddend then .rela else .rel)
    (hlink : s.link.toNat < t.size) :
    Relocation.ofSection r h t symbols s =
      TableLayout.walk
        { name := s.tableName "relocation table", offset := s.offset.toNat,
          count := s.size.toNat / s.stride (h.elfClass.relocationSize withAddend),
          entrySize := s.stride (h.elfClass.relocationSize withAddend),
          recordSize := h.elfClass.relocationSize withAddend }
        r (fun offset _ => Relocation.decode r h symbols s withAddend offset) := by
  rw [← TableLayout.ofRange_section]
  cases withAddend <;> simp [ofSection, layout, hkind, hlink]

/-- Only a relocation table that links to a section has relocations or faults. -/
theorem Relocation.ofSection_eq_nil_or (r : Reader) (h : FileHeader) (t : SectionTable)
    (symbols : List Symbol) (s : Section) :
    Relocation.ofSection r h t symbols s = ([], []) ∨
      ∃ withAddend : Bool, s.kind = (if withAddend then .rela else .rel) ∧ s.link.toNat < t.size := by
  by_cases hlink : s.link.toNat < t.size
  · cases hkind : s.kind with
    | rela => exact .inr ⟨true, rfl, hlink⟩
    | rel => exact .inr ⟨false, rfl, hlink⟩
    | _ => exact .inl (by simp [ofSection, hkind])
  · refine .inl ?_
    simp only [ofSection, if_neg hlink]
    split <;> rfl

end ElfAtlas
