import ElfAtlas.Code.PlainEngine
import ElfAtlas.Proofs.Analysis.CodeBytes
import ElfAtlas.Proofs.Order.StableSort

/-!
Where a range is cut into pieces: the points between its ends ascend strictly, lie strictly inside the
range, and are whole words from its start or starts of functions. There are such points for every chunk
size, except that the largest ones cannot be rounded up to words (`splitPoints?_ascending`).
-/

namespace ElfAtlas

namespace Analysis

variable {a : Analysis}

theorem mem_pointsFrom {step stop p x : Nat} (h : x ∈ pointsFrom step stop p) :
    p ≤ x ∧ x < stop ∧ step ∣ x - p := by
  induction hn : stop - p using Nat.strongRecOn generalizing p with
  | ind n ih =>
      rw [pointsFrom] at h
      split at h
      · rename_i hp
        rcases List.mem_cons.1 h with rfl | h
        · exact ⟨Nat.le_refl _, hp.2, by simp⟩
        · obtain ⟨hle, hlt, k, hk⟩ := ih _ (by omega) h rfl
          refine ⟨by omega, hlt, k + 1, ?_⟩
          rw [Nat.mul_succ]
          omega
      · simp at h

theorem pairwise_pointsFrom (step stop p : Nat) :
    (pointsFrom step stop p).Pairwise (· < ·) := by
  induction hn : stop - p using Nat.strongRecOn generalizing p with
  | ind n ih =>
      rw [pointsFrom]
      split
      · rename_i hp
        refine List.pairwise_cons.2 ⟨fun x hx => ?_, ih _ (by omega) _ rfl⟩
        have := (mem_pointsFrom hx).1
        omega
      · exact .nil

theorem spaced_sublist (chunk last : Nat) (points : List Nat) :
    (spaced chunk last points).Sublist points := by
  induction points generalizing last with
  | nil => exact .slnil
  | cons p rest ih =>
      rw [spaced]
      split
      · exact (ih p).cons_cons p
      · exact (ih last).cons p

theorem mem_functionStarts {start stop x : Nat} :
    x ∈ a.functionStarts start stop ↔
      (∃ s ∈ a.symbols, s.isFunction = true ∧ s.isDefined = true ∧ s.value.toNat = x) ∧
        start < x ∧ x < stop := by
  simp only [functionStarts, List.mem_eraseDups, List.mem_mergeSort, List.mem_filter, List.mem_map,
    Bool.and_eq_true, decide_eq_true_eq, and_assoc]

theorem pairwise_functionStarts (a : Analysis) (start stop : Nat) :
    (a.functionStarts start stop).Pairwise (· < ·) := by
  have hsorted (points : List Nat) :
      (points.mergeSort fun p q => decide (p ≤ q)).Pairwise fun p q => decide (p ≤ q) = true :=
    List.pairwise_mergeSort (fun p q r => by simp only [decide_eq_true_eq]; omega)
      (fun p q => by simp only [Bool.or_eq_true, decide_eq_true_eq]; omega) points
  exact (pairwise_eraseDups (hsorted _)).imp fun ⟨hle, hne⟩ =>
    Nat.lt_of_le_of_ne (of_decide_eq_true hle) hne

/-- A step is a positive number of whole words. -/
theorem chunkStep?_eq_some {chunk step : Nat} (h : chunkStep? chunk = some step) :
    0 < step ∧ 4 ∣ step := by
  rw [chunkStep?] at h
  split at h
  · rw [← Option.some.inj h]
    exact ⟨by omega, Nat.dvd_mul_left 4 _⟩
  · simp at h

/-- The ends of the range are the first and the last point. -/
theorem splitPoints?_eq_some {arch : Architecture} {start stop : Nat} {points : List Nat}
    (h : a.splitPoints? arch start stop = some points) :
    ∃ inner, points = start :: inner ++ [stop] ∧ (start :: inner).Pairwise (· < ·) ∧
      ∀ x ∈ inner, x < stop ∧
        if arch.isFixedWidth then 4 ∣ x - start else x ∈ a.functionStarts start stop := by
  rw [splitPoints?] at h
  cases harch : arch.isFixedWidth with
  | true =>
      simp only [harch, if_true] at h
      obtain ⟨step, hstep, rfl⟩ := Option.map_eq_some_iff.1 h
      obtain ⟨hpos, hwords⟩ := chunkStep?_eq_some hstep
      refine ⟨_, rfl, List.pairwise_cons.2 ⟨fun x hx => ?_, pairwise_pointsFrom _ _ _⟩,
        fun x hx => ?_⟩
      · have := (mem_pointsFrom hx).1
        omega
      · obtain ⟨hle, hlt, hdvd⟩ := mem_pointsFrom hx
        refine ⟨hlt, ?_⟩
        have hstart : x - start = x - (start + step) + step := by omega
        rw [if_pos rfl, hstart]
        exact Nat.dvd_add (Nat.dvd_trans hwords hdvd) hwords
  | false =>
      simp only [harch, Bool.false_eq_true, if_false, Option.some.injEq] at h
      have hsub := spaced_sublist a.config.disasm.parallelChunkBytes.toNat start
        (a.functionStarts start stop)
      refine ⟨_, h.symm, List.pairwise_cons.2 ⟨fun x hx => ?_,
        (pairwise_functionStarts a start stop).sublist hsub⟩, fun x hx => ?_⟩
      · exact (mem_functionStarts.1 (hsub.subset hx)).2.1
      · have hmem := hsub.subset hx
        refine ⟨(mem_functionStarts.1 hmem).2.2, ?_⟩
        rw [if_neg (by simp)]
        exact hmem

/-- Only a chunk size that cannot be rounded up to words leaves a range without points. -/
theorem isSome_splitPoints? {arch : Architecture} (start stop : Nat)
    (h : arch.isFixedWidth = true →
      (chunkStep? a.config.disasm.parallelChunkBytes.toNat).isSome = true) :
    ∃ points, a.splitPoints? arch start stop = some points := by
  rw [splitPoints?]
  cases harch : arch.isFixedWidth with
  | true =>
      obtain ⟨step, hstep⟩ := Option.isSome_iff_exists.1 (h harch)
      exact ⟨_, by simp only [if_true, hstep, Option.map_some]; rfl⟩
  | false => exact ⟨_, by simp only [Bool.false_eq_true, if_false]; rfl⟩

/-- Three chunk sizes below a full 64-bit quantity cannot be rounded up to words. -/
theorem chunkStep?_eq_none_iff {chunk : Nat} :
    chunkStep? chunk = none ↔ UInt64.size - 4 < chunk := by
  simp only [chunkStep?, UInt64.size]
  split
  · simp only [reduceCtorEq, false_iff]
    omega
  · simp only [true_iff]
    omega

theorem splitPoints?_eq_none_iff {arch : Architecture} {start stop : Nat} :
    a.splitPoints? arch start stop = none ↔
      arch.isFixedWidth = true ∧
        UInt64.size - 4 < a.config.disasm.parallelChunkBytes.toNat := by
  rw [splitPoints?, ← chunkStep?_eq_none_iff]
  cases harch : arch.isFixedWidth with
  | true => simp only [if_true, Option.map_eq_none_iff, true_and]
  | false => simp only [Bool.false_eq_true, if_false, reduceCtorEq, false_and]

/-- A range is cut for every chunk size and every row of symbols, unless its code is of fixed width and
the chunk size is one of the three that cannot be rounded up to words. The points begin with the start
of the range, end with its end and ascend strictly; in code of fixed width those between lie whole words
behind the start. The starts of functions that are compared with the last point taken lie behind it. -/
theorem splitPoints?_ascending (a : Analysis) (arch : Architecture) (start stop : Nat) :
    (a.splitPoints? arch start stop = none ↔
      arch.isFixedWidth = true ∧
        UInt64.size - 4 < a.config.disasm.parallelChunkBytes.toNat) ∧
    (start :: a.functionStarts start stop).Pairwise (· < ·) ∧
    ∀ points, a.splitPoints? arch start stop = some points →
      ∃ inner, points = start :: inner ++ [stop] ∧
        (start < stop → points.Pairwise (· < ·)) ∧
        (arch.isFixedWidth = true → ∀ x ∈ inner, 4 ∣ x - start) := by
  refine ⟨splitPoints?_eq_none_iff, ?_, fun points hpoints => ?_⟩
  · exact List.pairwise_cons.2
      ⟨fun x hx => (mem_functionStarts.1 hx).2.1, pairwise_functionStarts a start stop⟩
  · obtain ⟨inner, rfl, hsorted, hinner⟩ := splitPoints?_eq_some hpoints
    refine ⟨inner, rfl, fun hlt => ?_, fun harch x hx => ?_⟩
    · refine List.pairwise_append.2 ⟨hsorted, List.pairwise_singleton _ _, fun x hx y hy => ?_⟩
      rw [List.mem_singleton.1 hy]
      rcases List.mem_cons.1 hx with rfl | hx
      · exact hlt
      · exact (hinner x hx).1
    · have hplace := (hinner x hx).2
      rwa [if_pos harch] at hplace

/-- The largest chunk size is a valid setting, and with it not even two words can be decoded in pieces. -/
theorem splitPoints?_largest_chunk :
    let a := ofCode 183 { disasm := { parallelChunkBytes := 0xffffffffffffffff } } 0x1000 []
      [0, 0x20, 0, 0, 0, 0, 0, 0]
    a.config.validate = .ok () ∧ a.located 0x1000 8 = .ok (.arm64, ⟨0, 8⟩) ∧
      a.clampedLength ⟨0, 8⟩ 8 = 8 ∧ a.splitPoints? .arm64 0x1000 0x1008 = none ∧
      (disassembleParallel (PlainEngine.words "word" fun _ => true) a 0x1000 8 none).1 = none := by
  intro a
  have hlocated : a.located 0x1000 8 = .ok (.arm64, ⟨0, 8⟩) := rfl
  have hclamped : a.clampedLength ⟨0, 8⟩ 8 = 8 := rfl
  have hnone : a.splitPoints? .arm64 0x1000 0x1008 = none :=
    splitPoints?_eq_none_iff.2 ⟨rfl, by decide⟩
  refine ⟨rfl, hlocated, hclamped, hnone, ?_⟩
  have hstart : (0x1000 : UInt64).toNat = 0x1000 := rfl
  rw [disassembleParallel, hlocated]
  simp only [hclamped, hstart]
  rw [show min (0x1000 + 8) (UInt64.size - 1) = 0x1008 by decide, hnone]

end Analysis

end ElfAtlas
