import Mathlib.Data.List.Induction
import Mathlib.Data.List.ReduceOption
import Mathlib.Data.List.TakeWhile
import Mathlib.Data.Nat.Find
import ElfAtlas.Strings.Runs

/-!
The strings of a range of bytes, as an automaton accepts them: it reads byte by byte and keeps one
candidate. A scan that goes from NUL to NUL and looks back finds the same, wherever its limits make it
pause.
-/

namespace ElfAtlas

namespace Run

def extend (c : Run) (b : UInt8) : Run :=
  if 0x20 ≤ b ∧ b ≤ 0x7e then ⟨c.offset, c.bytes ++ [b]⟩
  else ⟨c.offset + c.bytes.length + 1, []⟩

/-- What the automaton emits from a candidate on: the candidate at each NUL, if it is long enough. -/
def accepted (least : Nat) (c : Run) : List UInt8 → List Run
  | [] => []
  | b :: rest =>
    if b = 0 ∧ least ≤ c.bytes.length then c :: accepted least (c.extend b) rest
    else accepted least (c.extend b) rest

def ofData (data : List UInt8) (minLength : Nat) : List Run :=
  accepted (max 1 minLength) ⟨0, []⟩ data

theorem extend_of_printable {b : UInt8} (h : isPrintable b = true) (c : Run) :
    c.extend b = ⟨c.offset, c.bytes ++ [b]⟩ := by
  simp only [isPrintable, Bool.and_eq_true, decide_eq_true_eq] at h
  rw [extend, if_pos h]

theorem extend_of_not_printable {b : UInt8} (h : isPrintable b = false) (c : Run) :
    c.extend b = ⟨c.offset + c.bytes.length + 1, []⟩ := by
  rw [extend, if_neg]
  intro hb
  simp [isPrintable, hb.1, hb.2] at h

/-- Without a NUL nothing is emitted. -/
theorem accepted_append (least : Nat) (c : Run) {segment : List UInt8} (h : 0 ∉ segment)
    (rest : List UInt8) :
    accepted least c (segment ++ rest) = accepted least (segment.foldl extend c) rest := by
  induction segment generalizing c with
  | nil => rfl
  | cons b segment ih =>
      simp only [List.mem_cons, not_or] at h
      obtain ⟨hb, hsegment⟩ := h
      rw [List.cons_append, accepted, if_neg fun hc => hb hc.1.symm, ih _ hsegment, List.foldl_cons]

end Run

theorem printableEnd_concat (segment : List UInt8) (b : UInt8) :
    printableEnd (segment ++ [b]) =
      if isPrintable b then printableEnd segment ++ [b] else [] := by
  simp only [printableEnd, List.reverse_append, List.reverse_singleton, List.singleton_append,
    List.takeWhile_cons]
  split <;> simp

theorem length_printableEnd_le (segment : List UInt8) :
    (printableEnd segment).length ≤ segment.length := by
  have hle : (segment.reverse.takeWhile isPrintable).length ≤ segment.reverse.length :=
    (List.takeWhile_sublist _).length_le
  rwa [List.length_reverse, ← List.length_reverse] at hle

/-- Looking back from the end of a segment finds the candidate that the automaton has there. -/
theorem Run.foldl_extend (pos : Nat) (segment : List UInt8) :
    segment.foldl extend ⟨pos, []⟩ =
      ⟨pos + (segment.length - (printableEnd segment).length), printableEnd segment⟩ := by
  induction segment using List.reverseRecOn with
  | nil => rfl
  | append_singleton segment b ih =>
      have hle := length_printableEnd_le segment
      rw [List.foldl_append, ih, List.foldl_cons, List.foldl_nil, printableEnd_concat]
      cases hb : isPrintable b with
      | true =>
          rw [extend_of_printable hb]
          simp
      | false =>
          rw [extend_of_not_printable hb]
          simp only [Bool.false_eq_true, if_false, List.length_append, List.length_singleton,
            List.length_nil, mk.injEq, and_true]
          omega

namespace Runs

variable {s : Runs}

/-- What the automaton still accepts behind the bytes that a scan has passed. -/
def remaining (s : Runs) : List Run := Run.accepted s.minLength ⟨s.pos, []⟩ s.rest

theorem remaining_ofData (data : List UInt8) (minLength : Nat) :
    (ofData data minLength).remaining = Run.ofData data minLength := rfl

theorem not_mem_takeWhile (bytes : List UInt8) : (0 : UInt8) ∉ bytes.takeWhile (· ≠ 0) := by
  intro h
  simpa using List.mem_takeWhile_imp h

theorem not_mem_of_dropWhile_eq_nil (h : s.rest.dropWhile (· ≠ 0) = []) : (0 : UInt8) ∉ s.rest := by
  intro hmem
  simpa using List.dropWhile_eq_nil_iff.1 h 0 hmem

/-- The segment up to the next NUL, the NUL, and the bytes behind it. -/
theorem rest_eq_of_dropWhile {b : UInt8} {rest : List UInt8}
    (h : s.rest.dropWhile (· ≠ 0) = b :: rest) :
    s.rest = s.rest.takeWhile (· ≠ 0) ++ 0 :: rest := by
  have hb : b = 0 := by
    have hhead := List.head?_dropWhile_not (· ≠ 0) s.rest
    rw [h] at hhead
    simpa using hhead
  rw [hb] at h
  rw [← h, List.takeWhile_append_dropWhile]

theorem remaining_of_not_mem (h : (0 : UInt8) ∉ s.rest) : s.remaining = [] := by
  rw [remaining, ← List.append_nil s.rest, Run.accepted_append _ _ h]
  rfl

/-- At the next NUL the automaton emits what the scan finds by looking back, if that is long enough. -/
theorem remaining_of_dropWhile {b : UInt8} {rest : List UInt8}
    (h : s.rest.dropWhile (· ≠ 0) = b :: rest) :
    let segment := s.rest.takeWhile (· ≠ 0)
    let run := printableEnd segment
    s.remaining =
      (if s.minLength ≤ run.length then [⟨s.pos + (segment.length - run.length), run⟩] else []) ++
        remaining { s with rest, pos := s.pos + segment.length + 1 } := by
  intro segment run
  have hle : run.length ≤ segment.length := length_printableEnd_le segment
  have hnul (c : Run) : c.extend 0 = ⟨c.offset + c.bytes.length + 1, []⟩ :=
    Run.extend_of_not_printable (by decide) c
  have hpos : s.pos + (segment.length - run.length) + run.length + 1 = s.pos + segment.length + 1 := by
    omega
  rw [remaining, rest_eq_of_dropWhile h, Run.accepted_append _ _ (not_mem_takeWhile _),
    Run.foldl_extend, Run.accepted, hnul, hpos]
  split <;> rename_i hlong
  · rw [if_pos hlong.2]
    rfl
  · rw [if_neg fun hlen => hlong ⟨rfl, hlen⟩]
    rfl

/-- A call and the scan after it share what the automaton still accepts. -/
theorem remaining_next (s : Runs) (limit : Option Nat) :
    s.remaining = (s.next limit).1.toList ++ (s.next limit).2.remaining := by
  fun_induction next s limit with
  | case1 s hrest =>
      have hnone := not_mem_of_dropWhile_eq_nil hrest
      rw [remaining_of_not_mem hnone, remaining_of_not_mem (s := { s with isDone := true }) hnone]
      rfl
  | case2 s _ _ rest hrest run s' hlong =>
      rw [remaining_of_dropWhile hrest, if_pos hlong]
      rfl
  | case3 s _ _ rest hrest run s' hshort =>
      rw [remaining_of_dropWhile hrest, if_neg hshort]
      rfl
  | case4 s _ _ rest hrest run s' hshort _ ih =>
      rw [remaining_of_dropWhile hrest, if_neg hshort]
      exact ih

theorem remaining_of_next_eq {limit : Option Nat} {answer : Option Run} {s' : Runs}
    (h : s.next limit = (answer, s')) : s.remaining = answer.toList ++ s'.remaining := by
  rw [remaining_next s limit, h]

/-- A call passes bytes of the data. One of them is a NUL, or the scan is done. -/
theorem next_passes (s : Runs) (limit : Option Nat) :
    ∃ passed, s.rest = passed ++ (s.next limit).2.rest ∧
      (s.next limit).2.pos = s.pos + passed.length ∧
      (0 ∈ passed ∨ (s.next limit).2.isDone = true) := by
  fun_induction next s limit with
  | case1 s => exact ⟨[], rfl, rfl, .inr rfl⟩
  | case2 s _ _ rest hrest run s' | case3 s _ _ rest hrest run s' =>
      refine ⟨s.rest.takeWhile (· ≠ 0) ++ [0], ?_, ?_, .inl (by simp)⟩
      · rw [List.append_assoc]
        exact rest_eq_of_dropWhile hrest
      · rw [List.length_append, ← Nat.add_assoc]
        rfl
  | case4 s _ _ rest hrest run s' _ _ ih =>
      obtain ⟨passed, hpassed, hpos, -⟩ := ih
      refine ⟨s.rest.takeWhile (· ≠ 0) ++ 0 :: passed, ?_, ?_, .inl (by simp)⟩
      · rw [List.append_assoc, List.cons_append, ← hpassed]
        exact rest_eq_of_dropWhile hrest
      · rw [hpos, List.length_append, List.length_cons]
        show s.pos + (s.rest.takeWhile (· ≠ 0)).length + 1 + passed.length = _
        omega

def IsSettled (s : Runs) : Prop := s.isDone = true → (0 : UInt8) ∉ s.rest

theorem isSettled_ofData (data : List UInt8) (minLength : Nat) :
    (ofData data minLength).IsSettled := by
  simp [IsSettled, ofData]

theorem IsSettled.next (h : s.IsSettled) (limit : Option Nat) : (s.next limit).2.IsSettled := by
  have hbehind {s : Runs} {b : UInt8} {rest : List UInt8} (hs : s.IsSettled)
      (hrest : s.rest.dropWhile (· ≠ 0) = b :: rest) (pos : Nat) :
      IsSettled { s with rest, pos } := by
    intro hdone hmem
    apply hs hdone
    rw [rest_eq_of_dropWhile hrest]
    simp
  fun_induction Runs.next s limit with
  | case1 s hrest => exact fun _ => not_mem_of_dropWhile_eq_nil hrest
  | case2 s _ _ rest hrest | case3 s _ _ rest hrest => exact hbehind h hrest _
  | case4 s _ _ rest hrest _ s' _ _ ih => exact ih (hbehind h hrest _)

theorem IsSettled.of_next_eq (hs : s.IsSettled) {limit : Option Nat} {answer : Option Run} {s' : Runs}
    (h : s.next limit = (answer, s')) : s'.IsSettled := by
  have := hs.next limit
  rwa [h] at this

theorem isDone_next (h : s.isDone = true) (limit : Option Nat) : (s.next limit).2.isDone = true := by
  fun_induction next s limit with
  | case1 => rfl
  | case2 | case3 => exact h
  | case4 _ _ _ _ _ _ _ _ _ ih => exact ih h

/-- Without a limit, only the end of the data keeps a call from finding a run. -/
theorem not_mem_of_next_eq_none (h : (s.next none).1 = none) : (0 : UInt8) ∉ (s.next none).2.rest := by
  revert h
  fun_induction next s none with
  | case1 s hrest => exact fun _ => not_mem_of_dropWhile_eq_nil hrest
  | case2 => simp
  | case3 _ _ _ _ _ _ _ _ hlimit => simp at hlimit
  | case4 _ _ _ _ _ _ _ _ _ ih => exact ih

/-- The runs that are left are those that the automaton still accepts. -/
theorem toList_eq_remaining (s : Runs) : s.toList = s.remaining := by
  fun_induction toList s with
  | case1 s s' h =>
      have hnone := not_mem_of_next_eq_none (s := s) (by rw [h])
      rw [h] at hnone
      rw [remaining_of_next_eq h, remaining_of_not_mem hnone]
      rfl
  | case2 s run s' h ih =>
      rw [ih, remaining_of_next_eq h]
      rfl

def after (limits : Nat → Option Nat) (s : Runs) : Nat → Runs
  | 0 => s
  | n + 1 => ((s.after limits n).next (limits n)).2

def answers (limits : Nat → Option Nat) (s : Runs) (n : Nat) : List (Option Run) :=
  (List.range n).map fun i => ((s.after limits i).next (limits i)).1

variable (limits : Nat → Option Nat)

theorem answers_succ (s : Runs) (n : Nat) :
    s.answers limits (n + 1) = s.answers limits n ++ [((s.after limits n).next (limits n)).1] := by
  rw [answers, List.range_succ, List.map_append, List.map_singleton]
  rfl

/-- No run is lost or repeated between two calls. -/
theorem remaining_eq_answers (s : Runs) (n : Nat) :
    s.remaining = (s.answers limits n).reduceOption ++ (s.after limits n).remaining := by
  induction n with
  | zero => rfl
  | succ n ih =>
      rw [ih, remaining_next (s.after limits n) (limits n), answers_succ, List.reduceOption_append,
        List.reduceOption_singleton, List.append_assoc]
      rfl

theorem isSettled_after (h : s.IsSettled) (n : Nat) : (s.after limits n).IsSettled := by
  induction n with
  | zero => exact h
  | succ n ih => exact ih.next (limits n)

/-- A call that does not end the scan takes a NUL from what is left. -/
theorem count_after (s : Runs) (n : Nat) (h : (s.after limits n).isDone = false) :
    (s.after limits n).rest.count 0 + n ≤ s.rest.count 0 := by
  induction n with
  | zero => exact Nat.le_refl _
  | succ n ih =>
      obtain ⟨passed, hrest, -, hpassed⟩ := next_passes (s.after limits n) (limits n)
      have hbefore : (s.after limits n).isDone = false := by
        cases hd : (s.after limits n).isDone with
        | false => rfl
        | true => exact absurd (isDone_next hd (limits n)) (by rw [← after, h]; simp)
      have hnul : 0 ∈ passed := by
        rcases hpassed with hnul | hdone
        · exact hnul
        · exact absurd hdone (by rw [← after, h]; simp)
      have hcount : (s.after limits n).rest.count 0 =
          passed.count 0 + (s.after limits (n + 1)).rest.count 0 := by
        rw [hrest, List.count_append]
        rfl
      have := List.count_pos_iff.2 hnul
      have := ih hbefore
      omega

/-- Calls with any limits go on until no NUL is left, and a scan that is done stays so. -/
theorem exists_isDone_after_iff (s : Runs) :
    ∃ last ≤ s.rest.count 0 + 1, ∀ n, (s.after limits n).isDone = true ↔ last ≤ n := by
  have hdone : (s.after limits (s.rest.count 0 + 1)).isDone = true := by
    cases hd : (s.after limits (s.rest.count 0 + 1)).isDone with
    | true => rfl
    | false =>
        have := count_after limits s _ hd
        omega
  have hexists : ∃ n, (s.after limits n).isDone = true := ⟨_, hdone⟩
  refine ⟨Nat.find hexists, Nat.find_min' hexists hdone, fun n => ⟨Nat.find_min' hexists, ?_⟩⟩
  intro hle
  induction hle with
  | refl => exact Nat.find_spec hexists
  | step _ ih => exact isDone_next ih _

/-- Whatever the limits, calls until the scan is done answer with the runs that the automaton accepts,
each once and in order; these are also the runs that the scan yields without limits. Every call passes
a NUL or finds that none is left, so that one call for each NUL and one more are enough; after the last
of them the scan stays done. -/
theorem answers_eq_accepted (data : List UInt8) (minLength : Nat) (limits : Nat → Option Nat) :
    let s := ofData data minLength
    (∀ n, ∃ passed, (s.after limits n).rest = passed ++ (s.after limits (n + 1)).rest ∧
      (s.after limits (n + 1)).pos = (s.after limits n).pos + passed.length ∧
      (0 ∈ passed ∨ (s.after limits (n + 1)).isDone = true)) ∧
    (∃ last ≤ data.count 0 + 1, ∀ n, (s.after limits n).isDone = true ↔ last ≤ n) ∧
    (∀ n, (s.after limits n).isDone = true →
      (s.answers limits n).reduceOption = Run.ofData data minLength) ∧
    s.toList = Run.ofData data minLength := by
  intro s
  refine ⟨fun n => next_passes _ (limits n), exists_isDone_after_iff limits s, fun n hn => ?_, ?_⟩
  · have hsettled := isSettled_after limits (isSettled_ofData data minLength) n
    have hall := remaining_eq_answers limits s n
    rw [remaining_of_not_mem (hsettled hn), List.append_nil] at hall
    rw [← hall, remaining_ofData]
  · rw [toList_eq_remaining, remaining_ofData]

end Runs

end ElfAtlas
