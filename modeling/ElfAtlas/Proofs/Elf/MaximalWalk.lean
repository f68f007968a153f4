import Mathlib.Data.List.Forall2
import Mathlib.Order.Bounds.Defs
import ElfAtlas.Proofs.Elf.Walk

/-!
How far a walk over a table goes. It keeps the longest run of entries from the first on that all have a
record, and stops at the entry behind them, if one is declared. That entry is the last that it looks at,
however many more are declared.
-/

namespace ElfAtlas

namespace TableLayout

def position (t : TableLayout) (i : Nat) : Nat := t.offset + i * t.entrySize

variable {α : Type}

/-- Entry `i` has this record: it starts at a 64-bit position, the record lies in the image and it can be
decoded. -/
structure Decodes (t : TableLayout) (r : Reader) (decode : Nat → Nat → Except Fault α) (i : Nat)
    (record : α) : Prop where
  position_lt : t.position i < UInt64.size
  contains : r.contains (t.position i) t.recordSize = true
  decode_eq : decode (t.position i) i = .ok record

/-- Entry `i` has no record, with the fault that says why. A record that is not in the image has none. -/
inductive Lacks (t : TableLayout) (r : Reader) (decode : Nat → Nat → Except Fault α) (i : Nat) :
    List Fault → Prop where
  | overflow : UInt64.size ≤ t.position i → Lacks t r decode i [.overflow "entry offset"]
  | outside : t.position i < UInt64.size → r.contains (t.position i) t.recordSize = false →
      Lacks t r decode i []
  | refused {fault : Fault} : t.position i < UInt64.size →
      r.contains (t.position i) t.recordSize = true → decode (t.position i) i = .error fault →
      Lacks t r decode i [fault]

def traceFrom (t : TableLayout) (r : Reader) (decode : Nat → Nat → Except Fault α) :
    (left index : Nat) → (List α × List Fault) × List Nat
  | 0, _ => (([], []), [])
  | left + 1, index =>
    match t.entry r decode index with
    | .error faults => (([], faults ++ [t.truncated index]), [index])
    | .ok record =>
      let ((records, faults), looked) := t.traceFrom r decode left (index + 1)
      ((record :: records, faults), index :: looked)

def trace (t : TableLayout) (r : Reader) (decode : Nat → Nat → Except Fault α) :
    (List α × List Fault) × List Nat :=
  if t.count = 0 then (([], []), [])
  else if t.entrySize < t.recordSize then
    (([], [.entryTooSmall t.name t.recordSize t.entrySize]), [])
  else t.traceFrom r decode t.count 0

variable {t : TableLayout} {r : Reader} {decode : Nat → Nat → Except Fault α}

/-- The checks of an entry in their order. -/
theorem entry_eq (i : Nat) :
    t.entry r decode i =
      if t.position i < UInt64.size then
        if r.contains (t.position i) t.recordSize then
          (decode (t.position i) i).mapError fun fault => [fault]
        else .error []
      else .error [.overflow "entry offset"] := by
  rw [entry, entryOffset_eq, position]
  by_cases hposition : t.offset + i * t.entrySize < UInt64.size
  · simp only [if_pos hposition]
    cases decode (t.offset + i * t.entrySize) i <;> rfl
  · simp only [if_neg hposition]

theorem entry_eq_ok_iff_decodes {i : Nat} {record : α} :
    t.entry r decode i = .ok record ↔ t.Decodes r decode i record := by
  rw [entry_eq_ok_iff]
  constructor
  · rintro ⟨hle, hlt, hdecode⟩
    exact ⟨Nat.lt_of_le_of_lt (Nat.le_add_right ..) hlt,
      Reader.contains_eq_true_iff.2 ⟨hle, hlt⟩, hdecode⟩
  · rintro ⟨-, hcontains, hdecode⟩
    obtain ⟨hle, hlt⟩ := Reader.contains_eq_true_iff.1 hcontains
    exact ⟨hle, hlt, hdecode⟩

theorem lacks_of_entry_eq_error {i : Nat} {faults : List Fault}
    (h : t.entry r decode i = .error faults) : t.Lacks r decode i faults := by
  rw [entry_eq] at h
  split at h
  · rename_i hposition
    split at h
    · rename_i hcontains
      cases hdecode : decode (t.position i) i with
      | ok record =>
          rw [hdecode] at h
          cases h
      | error fault =>
          rw [hdecode] at h
          cases h
          exact .refused hposition hcontains hdecode
    · rename_i hcontains
      cases h
      exact .outside hposition (Bool.eq_false_iff.2 hcontains)
  · rename_i hposition
    cases h
    exact .overflow (Nat.le_of_not_lt hposition)

/-- A walk looks at the entries that it keeps and at one more, unless it keeps all. -/
theorem traceFrom_eq (left index : Nat) :
    t.traceFrom r decode left index =
      (t.walkFrom r decode left index,
        List.range' index (min ((t.walkFrom r decode left index).1.length + 1) left)) := by
  induction left generalizing index with
  | zero => rfl
  | succ left ih =>
      rw [traceFrom, walkFrom]
      cases hentry : t.entry r decode index with
      | error faults =>
          dsimp only
          rw [List.length_nil, Nat.add_min_add_right, Nat.zero_min]
          rfl
      | ok record =>
          dsimp only
          rw [ih, List.length_cons, Nat.add_min_add_right, List.range'_succ]

theorem trace_fst : (t.trace r decode).1 = t.walk r decode := by
  rw [trace, walk]
  split
  · rfl
  · split
    · rfl
    · rw [traceFrom_eq]

theorem trace_snd (hsize : t.recordSize ≤ t.entrySize) :
    (t.trace r decode).2 = List.range (min ((t.walk r decode).1.length + 1) t.count) := by
  rw [trace]
  split
  · rename_i hcount
    rw [hcount, Nat.min_zero]
    rfl
  · rw [if_neg (Nat.not_lt.2 hsize), traceFrom_eq, walk_eq_walkFrom hsize, List.range_eq_range']

/-- What a walk keeps are the records of its first entries. -/
theorem forall₂_decodes_walk :
    List.Forall₂ (t.Decodes r decode) (List.range (t.walk r decode).1.length) (t.walk r decode).1 := by
  refine List.forall₂_iff_get.2 ⟨List.length_range, fun i _ hi => ?_⟩
  rw [List.get_eq_getElem, List.get_eq_getElem, List.getElem_range]
  exact entry_eq_ok_iff_decodes.1 (entry_of_getElem?_walk (List.getElem?_eq_getElem hi))

/-- A walk keeps all entries that are declared, or it ends at the first that has no record. -/
theorem walk_cases (r : Reader) (decode : Nat → Nat → Except Fault α)
    (hsize : t.recordSize ≤ t.entrySize) :
    let kept := (t.walk r decode).1.length
    let faults := (t.walk r decode).2
    kept = t.count ∧ faults = [] ∨
      kept < t.count ∧ ∃ own, t.Lacks r decode kept own ∧ faults = own ++ [t.truncated kept] := by
  rw [walk_eq_walkFrom hsize]
  obtain hall | ⟨hlt, own, hown, hfaults⟩ := walkFrom_cases t r decode t.count 0
  · exact .inl hall
  · rw [Nat.zero_add] at hown hfaults
    exact .inr ⟨hlt, own, lacks_of_entry_eq_error hown, hfaults⟩

theorem Decodes.not_lacks {i : Nat} {record : α} {faults : List Fault}
    (h : t.Decodes r decode i record) : ¬t.Lacks r decode i faults := by
  intro hlacks
  cases hlacks with
  | overflow hposition => exact Nat.not_lt.2 hposition h.position_lt
  | outside _ hout => simp [h.contains] at hout
  | refused _ _ hrefused => simp [h.decode_eq] at hrefused

/-- No longer run of entries from the first on has a record in each. -/
theorem isGreatest_length_walk (hsize : t.recordSize ≤ t.entrySize) :
    IsGreatest {n | n ≤ t.count ∧ ∀ i < n, ∃ record, t.Decodes r decode i record}
      (t.walk r decode).1.length := by
  constructor
  · refine ⟨length_walk_le, fun i hi => ⟨(t.walk r decode).1[i], ?_⟩⟩
    exact entry_eq_ok_iff_decodes.1 (entry_of_getElem?_walk (List.getElem?_eq_getElem hi))
  · rintro n ⟨hn, hdecodes⟩
    obtain ⟨hall, -⟩ | ⟨-, own, hlacks, -⟩ := walk_cases r decode hsize
    · rwa [hall]
    · refine Nat.le_of_not_lt fun hlt => ?_
      obtain ⟨record, hrecord⟩ := hdecodes _ hlt
      exact hrecord.not_lacks hlacks

/-- A table without entries is empty, and one whose entries are too small for a record is refused as a
whole. Of any other a walk keeps, in order, the records of the longest run of entries from the first on
that all have one. It meets no fault exactly if these are all entries that are declared; else it says why
the next entry has no record and, last, how many entries it kept. It looks at the entries that it keeps
and at that one, each once and in order, and at no other. -/
theorem walk_keeps_longest (t : TableLayout) (r : Reader) (decode : Nat → Nat → Except Fault α) :
    let records := (t.walk r decode).1
    let faults := (t.walk r decode).2
    let looked := (t.trace r decode).2
    (t.trace r decode).1 = t.walk r decode ∧
      (t.count = 0 → records = [] ∧ faults = [] ∧ looked = []) ∧
      (t.count ≠ 0 → t.entrySize < t.recordSize →
        records = [] ∧ faults = [.entryTooSmall t.name t.recordSize t.entrySize] ∧ looked = []) ∧
      (t.recordSize ≤ t.entrySize → ∃ n,
        IsGreatest {n | n ≤ t.count ∧ ∀ i < n, ∃ record, t.Decodes r decode i record} n ∧
        List.Forall₂ (t.Decodes r decode) (List.range n) records ∧
        (faults = [] ↔ n = t.count) ∧
        (n < t.count → ∃ own, t.Lacks r decode n own ∧
          faults = own ++ [.truncatedTable t.name n t.count]) ∧
        looked = List.range (min (n + 1) t.count)) := by
  refine ⟨trace_fst, fun hcount => ?_, fun hcount hsmall => ?_, fun hsize => ?_⟩
  · simp only [walk, trace, if_pos hcount, and_self]
  · simp only [walk, trace, if_neg hcount, if_pos hsmall, and_self]
  · refine ⟨_, isGreatest_length_walk hsize, forall₂_decodes_walk, ?_, ?_, trace_snd hsize⟩
    all_goals
      obtain ⟨hall, hfaults⟩ | ⟨hlt, own, hlacks, hfaults⟩ := walk_cases r decode hsize
    · simp [hall, hfaults]
    · simp [hfaults, Nat.ne_of_lt hlt]
    · exact fun hlt => absurd hall (Nat.ne_of_lt hlt)
    · exact fun _ => ⟨own, hlacks, hfaults⟩

/-- Three bytes are declared, one every 2^64 - 1 positions from position 1 on. The second would start at
position 2^64. -/
theorem walk_keeps_longest_overflowing :
    let t : TableLayout :=
      { name := "bytes", offset := 1, count := 3, entrySize := UInt64.size - 1, recordSize := 1 }
    let r : Reader := ⟨#[0, 7], .little⟩
    let decode (offset _ : Nat) : Except Fault UInt8 := r.u8 offset
    t.recordSize ≤ t.entrySize ∧
      IsGreatest {n | n ≤ t.count ∧ ∀ i < n, ∃ record, t.Decodes r decode i record} 1 ∧
      t.walk r decode =
        ([7], [.overflow "entry offset", .truncatedTable "bytes" 1 3]) ∧
      (t.trace r decode).2 = [0, 1] := by
  intro t r decode
  have hsize : t.recordSize ≤ t.entrySize := by decide
  have hwalk : t.walk r decode = ([7], [.overflow "entry offset", .truncatedTable "bytes" 1 3]) := by
    decide +kernel
  obtain ⟨n, hgreatest, hrecords, -, -, hlooked⟩ := (walk_keeps_longest t r decode).2.2.2 hsize
  obtain rfl : n = 1 := by
    have := hrecords.length_eq
    rwa [List.length_range, hwalk] at this
  exact ⟨hsize, hgreatest, hwalk, hlooked⟩

end TableLayout

end ElfAtlas
