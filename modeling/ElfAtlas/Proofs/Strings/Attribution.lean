import Mathlib.Data.Prod.Lex
import ElfAtlas.Proofs.Order.StableSort
import ElfAtlas.Proofs.Reader
import ElfAtlas.Strings.Attribution

/-!
Which section owns a file position. Sections nest and overlap, so the one that starts last before a
position may end before it as well, and an earlier one that is longer owns it. Of the sections that occupy
a position the owner is the greatest, by start and then by end; of several with the same range it is the
one that stands last in the table.
-/

namespace ElfAtlas

namespace Section

structure HasFileRange (s : Section) : Prop where
  index : s.index ≠ 0
  fileData : s.hasFileData = true
  size : s.size ≠ 0
  fits : s.offset.toNat + s.size.toNat < UInt64.size

structure Occupies (s : Section) (offset : Nat) : Prop extends s.HasFileRange where
  start : s.offset.toNat ≤ offset
  stop : offset < s.offset.toNat + s.size.toNat

/-- Start and end in the file. Of two ranges the one that starts first is less; if they start together,
the one that ends first. -/
def fileRange (s : Section) : Nat ×ₗ Nat := toLex (s.offset.toNat, s.offset.toNat + s.size.toNat)

def indexed (s : Section) : SectionRange := ⟨s.offset.toNat, s.offset.toNat + s.size.toNat, s⟩

end Section

namespace SectionRange

def covering? (offset : Nat) (s : Section) : Option SectionRange :=
  (ofSection? s).filter fun x => x.start ≤ offset && offset < x.stop

theorem le_iff {x y : SectionRange} :
    le x y = true ↔ x.start < y.start ∨ x.start = y.start ∧ x.stop ≤ y.stop := by
  simp only [le, Bool.or_eq_true, Bool.and_eq_true, decide_eq_true_eq]

theorem isTotalPreorder_le : IsTotalPreorder le where
  trans x y z hxy hyz := by
    rw [le_iff] at hxy hyz ⊢
    omega
  total x y := by
    rw [Bool.or_eq_true, le_iff, le_iff]
    omega

theorem le_indexed_iff {x y : Section} :
    le x.indexed y.indexed = true ↔ x.fileRange ≤ y.fileRange := by
  rw [le_iff, Section.fileRange, Section.fileRange, Prod.Lex.toLex_le_toLex]
  rfl

theorem le_indexed_eq_false_iff {x y : Section} :
    le x.indexed y.indexed = false ↔ y.fileRange < x.fileRange := by
  rw [← Bool.not_eq_true, le_indexed_iff, not_le]

theorem covering?_eq_some_iff {s : Section} {x : SectionRange} {offset : Nat} :
    covering? offset s = some x ↔ s.Occupies offset ∧ x = s.indexed := by
  rw [covering?, Option.filter_eq_some_iff, ofSection?]
  constructor
  · rintro ⟨hrange, hcovers⟩
    split at hrange
    · rename_i h
      obtain rfl := Option.some.inj hrange
      simp only [Bool.and_eq_true, decide_eq_true_eq] at hcovers
      exact ⟨⟨⟨h.1, h.2.1, h.2.2.1, h.2.2.2⟩, hcovers.1, hcovers.2⟩, rfl⟩
    · cases hrange
  · rintro ⟨⟨⟨hindex, hdata, hsize, hfits⟩, hstart, hstop⟩, rfl⟩
    exact ⟨if_pos ⟨hindex, hdata, hsize, hfits⟩, by simp [Section.indexed, hstart, hstop]⟩

/-- In the sorted index the ranges that start no later than a position stand in front. -/
theorem takeWhile_start {ranges : List SectionRange} (h : ranges.Pairwise fun x y => le x y = true)
    (offset : Nat) :
    ranges.takeWhile (·.start ≤ offset) = ranges.filter (·.start ≤ offset) := by
  induction ranges with
  | nil => rfl
  | cons x ranges ih =>
      rw [List.pairwise_cons] at h
      by_cases hx : x.start ≤ offset
      · rw [List.takeWhile_cons_of_pos (by simpa using hx), List.filter_cons_of_pos (by simpa using hx),
          ih h.2]
      · rw [List.takeWhile_cons_of_neg (by simpa using hx), eq_comm, List.filter_eq_nil_iff]
        intro y hy
        have hle : x.start ≤ y.start := by
          obtain rfl | hy := List.mem_cons.1 hy
          · exact Nat.le_refl _
          · have := le_iff.1 (h.1 y hy)
            omega
        simp only [decide_eq_true_eq]
        omega

end SectionRange

namespace SectionIndex

open SectionRange

variable {t : SectionTable} {s : Section} {offset : Nat}

/-- The owner is the last of the sorted ranges that cover the position. -/
theorem owner?_ofTable (t : SectionTable) (offset : Nat) :
    (ofTable t).owner? offset =
      (((t.toList.filterMap (covering? offset)).mergeSort le).getLast?).map (·.owner) := by
  have hsorted := List.pairwise_mergeSort isTotalPreorder_le.trans isTotalPreorder_le.total
    (t.toList.filterMap ofSection?)
  rw [owner?, ofTable, takeWhile_start hsorted, ← List.getLast?_filter, List.filter_filter,
    isTotalPreorder_le.filter_mergeSort, List.filter_filterMap]
  simp only [Bool.and_comm]
  rfl

theorem owner?_ofTable_eq_some_iff :
    (ofTable t).owner? offset = some s ↔
      s.Occupies offset ∧
        ∃ front back, t.toList = front ++ s :: back ∧
          (∀ x ∈ front, x.Occupies offset → x.fileRange ≤ s.fileRange) ∧
          ∀ x ∈ back, x.Occupies offset → x.fileRange < s.fileRange := by
  rw [owner?_ofTable, Option.map_eq_some_iff]
  constructor
  · rintro ⟨range, hlast, rfl⟩
    obtain ⟨front, back, hranges, hfront, hback⟩ :=
      isTotalPreorder_le.getLast?_mergeSort_eq_some_iff.1 hlast
    obtain ⟨before, rest, hlist, rfl, hrest⟩ := List.filterMap_eq_append_iff.1 hranges
    obtain ⟨skipped, s, after, rfl, hskipped, hrange, rfl⟩ := List.filterMap_eq_cons_iff.1 hrest
    obtain ⟨hs, rfl⟩ := covering?_eq_some_iff.1 hrange
    refine ⟨hs, before ++ skipped, after, by rw [hlist, List.append_assoc]; rfl, ?_, ?_⟩
    · intro x hx hoccupies
      have hrange := covering?_eq_some_iff.2 ⟨hoccupies, rfl⟩
      obtain hx | hx := List.mem_append.1 hx
      · exact le_indexed_iff.1 (hfront _ (List.mem_filterMap.2 ⟨x, hx, hrange⟩))
      · rw [hskipped x hx] at hrange
        cases hrange
    · intro x hx hoccupies
      have hrange := covering?_eq_some_iff.2 ⟨hoccupies, rfl⟩
      exact le_indexed_eq_false_iff.1 (hback _ (List.mem_filterMap.2 ⟨x, hx, hrange⟩))
  · rintro ⟨hs, front, back, hlist, hfront, hback⟩
    have hranges := congrArg (List.filterMap (covering? offset)) hlist
    rw [List.filterMap_append,
      List.filterMap_cons_some (covering?_eq_some_iff.2 ⟨hs, rfl⟩)] at hranges
    refine ⟨s.indexed,
      isTotalPreorder_le.getLast?_mergeSort_eq_some_iff.2 ⟨_, _, hranges, ?_, ?_⟩, rfl⟩
    · intro range hrange
      obtain ⟨x, hx, hrange⟩ := List.mem_filterMap.1 hrange
      obtain ⟨hoccupies, rfl⟩ := covering?_eq_some_iff.1 hrange
      exact le_indexed_iff.2 (hfront x hx hoccupies)
    · intro range hrange
      obtain ⟨x, hx, hrange⟩ := List.mem_filterMap.1 hrange
      obtain ⟨hoccupies, rfl⟩ := covering?_eq_some_iff.1 hrange
      exact le_indexed_eq_false_iff.2 (hback x hx hoccupies)

theorem owner?_ofTable_eq_none_iff :
    (ofTable t).owner? offset = none ↔ ∀ s ∈ t.toList, ¬ s.Occupies offset := by
  rw [owner?_ofTable, Option.map_eq_none_iff, List.getLast?_eq_none_iff, ← List.length_eq_zero_iff,
    List.length_mergeSort, List.length_eq_zero_iff, List.filterMap_eq_nil_iff]
  refine forall₂_congr fun s _ => ?_
  rw [Option.eq_none_iff_forall_ne_some]
  constructor
  · intro hnone hs
    exact hnone _ (covering?_eq_some_iff.2 ⟨hs, rfl⟩)
  · intro hs range hrange
    exact hs (covering?_eq_some_iff.1 hrange).1

/-- Where no range overflows, the scan of the table asks each section whether it occupies the position. -/
theorem scan_iff_occupies {offset : UInt64}
    (hfits : s.hasFileData = true → s.offset.toNat + s.size.toNat < UInt64.size) :
    (s.index ≠ 0 && s.containsOffset offset) = true ↔ s.Occupies offset.toNat := by
  simp only [Section.containsOffset, Bool.and_eq_true, decide_eq_true_eq]
  constructor
  · rintro ⟨hindex, ⟨hdata, hstart⟩, hsize⟩
    rw [sub_lt_iff hstart] at hsize
    rw [UInt64.le_iff_toNat_le] at hstart
    refine ⟨⟨hindex, hdata, ?_, hfits hdata⟩, hstart, hsize⟩
    rintro hzero
    rw [hzero, UInt64.toNat_zero] at hsize
    omega
  · rintro ⟨⟨hindex, hdata, -, -⟩, hstart, hstop⟩
    rw [← UInt64.le_iff_toNat_le] at hstart
    exact ⟨hindex, ⟨hdata, hstart⟩, (sub_lt_iff hstart).2 hstop⟩

/-- Of the sections that occupy a position the greatest owns it, and of those with its range the last. If
the ranges are apart and none overflows, that is the section a scan of the table finds. -/
theorem owner?_greatest_and_byOffset? (t : SectionTable) (offset : UInt64) :
    (∀ s, (ofTable t).owner? offset.toNat = some s ↔
      s.Occupies offset.toNat ∧
        ∃ front back, t.toList = front ++ s :: back ∧
          (∀ x ∈ front, x.Occupies offset.toNat → x.fileRange ≤ s.fileRange) ∧
          ∀ x ∈ back, x.Occupies offset.toNat → x.fileRange < s.fileRange) ∧
      ((ofTable t).owner? offset.toNat = none ↔ ∀ s ∈ t.toList, ¬ s.Occupies offset.toNat) ∧
      ((∀ s ∈ t.toList, s.hasFileData = true → s.offset.toNat + s.size.toNat < UInt64.size) →
        t.toList.Pairwise (fun x y => ∀ place, x.Occupies place → ¬ y.Occupies place) →
        (ofTable t).owner? offset.toNat = t.byOffset? offset) := by
  refine ⟨fun s => owner?_ofTable_eq_some_iff, owner?_ofTable_eq_none_iff, fun hfits hapart => ?_⟩
  rw [eq_comm, SectionTable.byOffset?]
  cases howner : (ofTable t).owner? offset.toNat with
  | none =>
      rw [owner?_ofTable_eq_none_iff] at howner
      rw [List.find?_eq_none]
      exact fun s hs hscan => howner s hs ((scan_iff_occupies (hfits s hs)).1 hscan)
  | some s =>
      obtain ⟨hs, front, back, hlist, -⟩ := owner?_ofTable_eq_some_iff.1 howner
      rw [List.find?_eq_some_iff_append]
      refine ⟨(scan_iff_occupies (hfits s (by simp [hlist]))).2 hs, front, back, hlist, ?_⟩
      intro x hx
      rw [hlist, List.pairwise_append] at hapart
      rw [Bool.not_eq_true', ← Bool.not_eq_true, scan_iff_occupies (hfits x (by simp [hlist, hx]))]
      exact fun hoccupies => hapart.2.2 x hx s List.mem_cons_self _ hoccupies hs

/-- `.text` and `.data` are apart, and the scan finds the owner. A section inside `.text` that has ended
leaves the bytes behind it to `.text`. -/
theorem owner?_apart_and_nested :
    let null := Section.ofRecord 0 "" ⟨0, 0, 0, 0, 0, 0, 0, 0, 0, 0⟩
    let text := Section.ofRecord 1 ".text" ⟨1, 1, 6, 0x1040, 0x40, 0x20, 0, 0, 16, 0⟩
    let data := Section.ofRecord 2 ".data" ⟨7, 1, 3, 0x2060, 0x60, 0x10, 0, 0, 8, 0⟩
    let stub := Section.ofRecord 2 ".stub" ⟨7, 1, 6, 0x1048, 0x48, 8, 0, 0, 8, 0⟩
    let apart : SectionTable := ⟨#[null, text, data]⟩
    let nested : SectionTable := ⟨#[null, text, stub]⟩
    (ofTable apart).owner? 0x64 = apart.byOffset? 0x64 ∧ apart.byOffset? 0x64 = some data ∧
      (ofTable nested).owner? 0x50 = some text := by
  intro null text data stub apart nested
  have hapart := (owner?_greatest_and_byOffset? apart 0x64).2.2 (by decide)
    (by
      simp only [apart, SectionTable.toList, List.pairwise_cons, List.mem_cons, List.not_mem_nil,
        or_false, forall_eq_or_imp, forall_eq]
      exact ⟨⟨fun _ h => absurd rfl h.index, fun _ h => absurd rfl h.index⟩,
        fun _ h h' => absurd (h'.start.trans_lt h.stop) (by decide), by simp⟩)
  have hnested := (owner?_greatest_and_byOffset? nested 0x50).1 text
  refine ⟨hapart, by decide, hnested.2 ⟨⟨⟨?_, ?_, ?_, ?_⟩, ?_, ?_⟩, [null], [stub], rfl, ?_, ?_⟩⟩
  any_goals decide
  · simp only [List.mem_singleton, forall_eq]
    exact fun h => absurd rfl h.index
  · simp only [List.mem_singleton, forall_eq]
    exact fun h => absurd h.stop (by decide)

end SectionIndex

end ElfAtlas
