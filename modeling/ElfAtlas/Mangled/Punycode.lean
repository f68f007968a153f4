/-!
Text outside ASCII written in ASCII. The digits tell, character by character, how far the next
insertion lies from the last one; the distance counts positions first and code points above them.
-/

namespace ElfAtlas.Punycode

def digit? (c : Char) : Option Nat :=
  if 'a' ≤ c ∧ c ≤ 'z' then some (c.toNat - 97)
  else if '0' ≤ c ∧ c ≤ '9' then some (c.toNat - 22)
  else none

/-- The least value of the digit at place `k` after which more digits follow. -/
def threshold (bias k : Nat) : Nat := min (max (k - bias) 1) 26

/-- One number, least significant digit first, and what follows it. -/
def number? (bias k weight value : Nat) : List Char → Option (Nat × List Char)
  | [] => none
  | c :: rest => do
    let d ← digit? c
    let value := value + d * weight
    if d < threshold bias k then some (value, rest)
    else number? bias (k + 36) (weight * (36 - threshold bias k)) value rest

theorem number?_length {bias k weight value : Nat} {cs rest : List Char} {n : Nat}
    (h : number? bias k weight value cs = some (n, rest)) : rest.length < cs.length := by
  induction cs generalizing k weight value with
  | nil => simp [number?] at h
  | cons c cs ih =>
    rw [number?] at h
    obtain ⟨d, _, h⟩ := Option.bind_eq_some_iff.1 h
    simp only [] at h
    split at h
    · simp_all
    · exact Nat.lt_succ_of_lt (ih h)

def shrink (delta k : Nat) : Nat × Nat :=
  if 455 < delta then shrink (delta / 35) (k + 36) else (delta, k)

/-- The bias after an insertion at distance `delta` that made the text `length` long. -/
def adapt (delta length damp : Nat) : Nat :=
  let scaled := delta / damp
  let (delta, k) := shrink (scaled + scaled / length) 0
  k + 36 * delta / (delta + 38)

def char? (n : Nat) : Option Char := if n.isValidChar then some (Char.ofNat n) else none

/-- Inserts into `text` what the digits say, starting at `position` and at the code point `n`. No text
is longer than the bound. -/
def insert? (bound : Nat) (text : List Char) (n position bias damp : Nat) (digits : List Char) :
    Option (List Char) :=
  match _ : number? bias 36 1 0 digits with
  | none => none
  | some (delta, rest) =>
    let length := text.length + 1
    let n := n + (position + delta) / length
    let position := (position + delta) % length
    match char? n with
    | none => none
    | some c =>
      if bound < length then none
      else if rest.isEmpty then some (text.insertIdx position c)
      else insert? bound (text.insertIdx position c) n (position + 1) (adapt delta length damp) 2 rest
termination_by digits.length
decreasing_by exact number?_length (by assumption)

/-- The text made of the plain characters and of those that the digits insert between them. -/
def decode? (bound : Nat) (plain digits : List Char) : Option (List Char) :=
  if bound < plain.length then none else insert? bound plain 0x80 0 72 700 digits

end ElfAtlas.Punycode
