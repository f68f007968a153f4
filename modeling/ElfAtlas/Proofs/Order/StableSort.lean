import Mathlib.Data.List.Basic

/-!
Stable sorting. An element put in front of a list goes, in the sorted list, between what is less than it
and what is not. So sorting commutes with selection, and the last of a sorted list is the greatest: of
several that tie, the one that came last. A list that was in order is so without its repetitions.
-/

namespace ElfAtlas

/-- What relates any two elements of a list does so without its repetitions, and any two then differ. -/
theorem pairwise_eraseDups {α : Type} [BEq α] [LawfulBEq α] {R : α → α → Prop} {xs : List α}
    (h : xs.Pairwise R) : xs.eraseDups.Pairwise fun x y => R x y ∧ x ≠ y := by
  induction hn : xs.length using Nat.strongRecOn generalizing xs with
  | ind n ih =>
      cases xs with
      | nil => exact .nil
      | cons x rest =>
          obtain ⟨hx, hrest⟩ := List.pairwise_cons.1 h
          have hlen := List.length_filter_le (fun y => !y == x) rest
          rw [List.length_cons] at hn
          rw [List.eraseDups_cons]
          refine List.pairwise_cons.2 ⟨fun y hy => ?_, ih _ (by omega) (hrest.filter _) rfl⟩
          obtain ⟨hy, hne⟩ := List.mem_filter.1 (List.mem_eraseDups.1 hy)
          exact ⟨hx y hy, fun heq => by simp [heq] at hne⟩

theorem nodup_eraseDups {α : Type} [BEq α] [LawfulBEq α] (xs : List α) : xs.eraseDups.Nodup :=
  (pairwise_eraseDups (List.pairwise_of_forall fun _ _ => trivial)).imp And.right

structure IsTotalPreorder {α : Type} (le : α → α → Bool) : Prop where
  trans : ∀ a b c, le a b = true → le b c = true → le a c = true
  total : ∀ a b, (le a b || le b a) = true

namespace IsTotalPreorder

variable {α : Type} {le : α → α → Bool} (h : IsTotalPreorder le)

include h

/-- Sorting with one element more in front. -/
theorem exists_mergeSort_cons (x : α) (xs : List α) :
    ∃ front back, (x :: xs).mergeSort le = front ++ x :: back ∧ xs.mergeSort le = front ++ back ∧
      (∀ y ∈ front, le x y = false) ∧ ∀ y ∈ back, le x y = true := by
  obtain ⟨front, back, hcons, htail, hfront⟩ := List.mergeSort_cons h.trans h.total x xs
  have hsorted := List.pairwise_mergeSort h.trans h.total (x :: xs)
  rw [hcons, List.pairwise_append, List.pairwise_cons] at hsorted
  exact ⟨front, back, hcons, htail, fun y hy => by simpa using hfront y hy, hsorted.2.1.1⟩

/-- Where an element goes is told by comparing it with each of the others. -/
theorem mergeSort_cons_eq (x : α) (xs : List α) :
    (x :: xs).mergeSort le =
      (xs.mergeSort le).filter (fun y => !le x y) ++ x :: (xs.mergeSort le).filter (le x) := by
  obtain ⟨front, back, hcons, htail, hfront, hback⟩ := h.exists_mergeSort_cons x xs
  have hless : (front ++ back).filter (fun y => !le x y) = front := by
    rw [List.filter_append, List.filter_eq_self.2 fun y hy => by simp [hfront y hy],
      List.filter_eq_nil_iff.2 fun y hy => by simp [hback y hy], List.append_nil]
  have hrest : (front ++ back).filter (le x) = back := by
    rw [List.filter_append, List.filter_eq_nil_iff.2 fun y hy => by simp [hfront y hy],
      List.filter_eq_self.2 hback, List.nil_append]
  rw [hcons, htail, hless, hrest]

/-- What is selected from the sorted list is the sorted selection. -/
theorem filter_mergeSort (p : α → Bool) (xs : List α) :
    (xs.mergeSort le).filter p = (xs.filter p).mergeSort le := by
  induction xs with
  | nil => simp
  | cons x xs ih =>
      by_cases hx : p x = true
      · rw [List.filter_cons_of_pos hx, h.mergeSort_cons_eq, h.mergeSort_cons_eq, ← ih,
          List.filter_append, List.filter_cons_of_pos hx]
        simp only [List.filter_filter, Bool.and_comm]
      · obtain ⟨front, back, hcons, htail, -⟩ := h.exists_mergeSort_cons x xs
        rw [List.filter_cons_of_neg hx, hcons, ← ih, htail, List.filter_append,
          List.filter_cons_of_neg hx, List.filter_append]

/-- The last of the sorted list is no less than what stands before it in the unsorted one, and greater
than what stands behind it. -/
theorem getLast?_mergeSort_eq_some_iff {xs : List α} {x : α} :
    (xs.mergeSort le).getLast? = some x ↔
      ∃ front back, xs = front ++ x :: back ∧ (∀ y ∈ front, le y x = true) ∧
        ∀ y ∈ back, le x y = false := by
  induction xs with
  | nil => simp
  | cons z xs ih =>
      obtain ⟨less, rest, hcons, htail, hless, hrest⟩ := h.exists_mergeSort_cons z xs
      have hmem (y : α) : y ∈ xs ↔ y ∈ less ∨ y ∈ rest := by
        rw [← List.mem_append, ← htail, List.mem_mergeSort]
      obtain rfl | ⟨rest, w, rfl⟩ := List.eq_nil_or_concat' rest
      · -- All others are less than `z`.
        have hall : ∀ y ∈ xs, le z y = false := fun y hy => hless y (by simpa using (hmem y).1 hy)
        rw [hcons, List.getLast?_concat, Option.some.injEq]
        constructor
        · rintro rfl
          exact ⟨[], xs, rfl, List.forall_mem_nil _, hall⟩
        · rintro ⟨front, back, heq, hfront, -⟩
          obtain ⟨rfl, heq⟩ | ⟨front, rfl, rfl⟩ := List.cons_eq_append_iff.1 heq
          · exact (List.cons.inj heq).1
          · have hle := hfront z List.mem_cons_self
            rw [hall x (by simp)] at hle
            cases hle
      · -- The greatest of the others, `w`, is no less than `z`.
        have hw : w ∈ xs := (hmem w).2 (.inr (by simp))
        have hzw : le z w = true := hrest w (by simp)
        rw [htail, ← List.append_assoc, List.getLast?_concat] at ih
        rw [hcons, ← List.cons_append, ← List.append_assoc, List.getLast?_concat]
        constructor
        · intro hx
          obtain ⟨front, back, hxs, hfront, hback⟩ := ih.1 hx
          obtain rfl := Option.some.inj hx
          exact ⟨z :: front, back, by rw [hxs, List.cons_append],
            List.forall_mem_cons.2 ⟨hzw, hfront⟩, hback⟩
        · rintro ⟨front, back, heq, hfront, hback⟩
          obtain ⟨rfl, heq⟩ | ⟨front, rfl, rfl⟩ := List.cons_eq_append_iff.1 heq
          · obtain ⟨rfl, rfl⟩ := List.cons.inj heq
            rw [hback w hw] at hzw
            cases hzw
          · exact ih.2 ⟨front, back, rfl, (List.forall_mem_cons.1 hfront).2, hback⟩

end IsTotalPreorder

end ElfAtlas
