import Std.Data.HashSet

/-!
Printable runs that a NUL ends. The scan goes from NUL to NUL and looks back from each for the last byte
that is not printable; bytes after the last NUL belong to no run.
-/

namespace ElfAtlas

/-- A run of bytes and where it starts. -/
structure Run where
  offset : Nat
  bytes : List UInt8
  deriving DecidableEq, Repr

def isPrintable (b : UInt8) : Bool := 0x20 ≤ b && b ≤ 0x7e

/-- The longest printable end of a segment. -/
def printableEnd (segment : List UInt8) : List UInt8 :=
  (segment.reverse.takeWhile isPrintable).reverse

/-- A scan that has passed `pos` bytes. -/
structure Runs where
  minLength : Nat
  rest : List UInt8
  pos : Nat := 0
  isDone : Bool := false

namespace Runs

/-- Runs of no bytes are never found. -/
def ofData (data : List UInt8) (minLength : Nat) : Runs :=
  { minLength := max 1 minLength, rest := data }

/-- The next run. With a limit the scan gives up after the first NUL at which that many bytes are
passed; without a run it is done when no NUL is left. -/
def next (s : Runs) (limit : Option Nat) : Option Run × Runs :=
  let segment := s.rest.takeWhile (· ≠ 0)
  match _h : s.rest.dropWhile (· ≠ 0) with
  | [] => (none, { s with isDone := true })
  | _ :: rest =>
    let run := printableEnd segment
    let s' := { s with rest, pos := s.pos + segment.length + 1 }
    if s.minLength ≤ run.length then
      (some ⟨s.pos + (segment.length - run.length), run⟩, s')
    else if limit.any (· ≤ s'.pos) then (none, s')
    else s'.next limit
termination_by s.rest.length
decreasing_by
  have := (List.dropWhile_sublist (l := s.rest) (· ≠ 0)).length_le
  simp only [_h, List.length_cons] at this
  omega

/-- A step finds that no NUL is left, or passes one. -/
theorem next_cases (s : Runs) (limit : Option Nat) :
    ((s.next limit).1 = none ∧ (s.next limit).2.isDone = true) ∨
      (s.next limit).2.rest.length < s.rest.length := by
  fun_induction next s limit with
  | case1 => simp
  | case2 s _ _ rest hrest | case3 s _ _ rest hrest =>
    have := (List.dropWhile_sublist (l := s.rest) (· ≠ 0)).length_le
    simp only [hrest, List.length_cons] at this
    exact Or.inr (show rest.length < s.rest.length by omega)
  | case4 s _ _ rest hrest _ s' _ _ ih =>
    have := (List.dropWhile_sublist (l := s.rest) (· ≠ 0)).length_le
    simp only [hrest, List.length_cons] at this
    rcases ih with ih | ih
    · exact Or.inl ih
    · have : s'.rest.length = rest.length := rfl
      exact Or.inr (by omega)

/-- The runs that are left. -/
def toList (s : Runs) : List Run :=
  match _h : s.next none with
  | (none, _) => []
  | (some run, s') => run :: s'.toList
termination_by s.rest.length
decreasing_by
  have := s.next_cases none
  simp_all

end Runs

/-- Goes through runs in order and keeps the first of each content, until `cap` are kept. -/
def keepFirst (cap : Option Nat) : (kept : Nat) → Std.HashSet (List UInt8) → List Run → List Run
  | _, _, [] => []
  | kept, seen, run :: rest =>
    if cap.any (· ≤ kept) then []
    else if seen.contains run.bytes then keepFirst cap kept seen rest
    else run :: keepFirst cap (kept + 1) (seen.insert run.bytes) rest

/-- The runs of the data without repeated contents. -/
def uniqueRuns (data : List UInt8) (minLength : Nat) (cap : Option Nat) : List Run :=
  keepFirst cap 0 ∅ (Runs.ofData data minLength).toList

end ElfAtlas
