import ElfAtlas.Code.Engine
import ElfAtlas.Text.Hex

/-!
Instructions in sequence over a range of bytes. Whatever the decoder does, each item takes at least one
byte and no more than are left (`length_item`), so the items tile the range.
-/

namespace ElfAtlas

structure Stream (δ : Type) where
  arch : Architecture
  order : ByteOrder
  /-- The address of the first byte. -/
  base : UInt64
  code : List UInt8
  pos : Nat
  rest : List UInt8
  rest_eq : rest = code.drop pos
  /-- Absent until a decoder is opened. -/
  decoder : Option δ

namespace Stream

variable {σ δ : Type}

def ofCode (arch : Architecture) (order : ByteOrder) (base : UInt64) (code : List UInt8) :
    Stream δ :=
  { arch, order, base, code, pos := 0, rest := code, rest_eq := rfl, decoder := none }

/-- A stream with an open decoder over `code`. -/
def start (e : Engine σ δ) (arch : Architecture) (order : ByteOrder) (base : UInt64)
    (code : List UInt8) (shared : σ) : Except Fault (Stream δ) × σ :=
  match e.start arch order shared with
  | (.ok d, shared) => (.ok { (ofCode arch order base code : Stream δ) with decoder := some d }, shared)
  | (.error fault, shared) => (.error fault, shared)

/-- A stream over `image[first..stop]`. -/
def ofRange (e : Engine σ δ) (arch : Architecture) (order : ByteOrder) (base : UInt64)
    (image : Array UInt8) (first stop : Nat) (shared : σ) : Except Fault (Stream δ) × σ :=
  if stop < first ∨ image.size < stop then
    (.error (.outOfBounds first (stop - first) image.size), shared)
  else start e arch order base (image.extract first stop).toList shared

def rangeLength (s : Stream δ) : Nat := s.code.length

/-- The address of the next item; addresses wrap around. -/
def address (s : Stream δ) : UInt64 := s.base + UInt64.ofNat s.pos

def restart (s : Stream δ) : Stream δ := { s with pos := 0, rest := s.code, rest_eq := rfl }

/-- A stream at the same position that opens a decoder of its own when it needs one. -/
def clone (s : Stream δ) : Stream δ := { s with decoder := none }

def finish (s : Stream δ) : Stream δ :=
  { s with pos := s.code.length, rest := [], rest_eq := by simp }

def advance (s : Stream δ) (n : Nat) (d : δ) : Stream δ :=
  { s with
    pos := s.pos + n
    rest := s.rest.drop n
    rest_eq := by rw [s.rest_eq, List.drop_drop]
    decoder := some d }

/-- An instruction counts if it takes some of the bytes that are left, and no others. -/
def acceptable (rest : List UInt8) (i : Instruction) : Bool :=
  !i.isEmpty && (rest.take i.length).length = i.length

/-- The item at the front of `rest`: the decoder's instruction if acceptable, else undecoded bytes. -/
def item (e : Engine σ δ) (arch : Architecture) (d : δ) (rest : List UInt8) (address : UInt64) :
    Instruction × δ :=
  match e.decode d rest address with
  | (some i, d) =>
    (if acceptable rest i then i else .bad address (rest.take arch.minLength), d)
  | (none, d) => (.bad address (rest.take arch.minLength), d)

theorem length_item (e : Engine σ δ) (arch : Architecture) (d : δ) (rest : List UInt8)
    (address : UInt64) (h : rest ≠ []) :
    0 < (item e arch d rest address).1.length ∧
      (item e arch d rest address).1.length ≤ rest.length := by
  have hrest : 0 < rest.length := List.length_pos_iff.2 h
  have hmin : 0 < arch.minLength := by cases arch <;> decide
  have hbad : 0 < (Instruction.bad address (rest.take arch.minLength)).length ∧
      (Instruction.bad address (rest.take arch.minLength)).length ≤ rest.length := by
    simp only [Instruction.length, Instruction.bad, List.length_take]
    omega
  unfold item
  split
  · split
    · rename_i i _ _ hi
      simp only [acceptable, Bool.and_eq_true, Bool.not_eq_true', decide_eq_true_eq,
        List.length_take, Instruction.isEmpty, Instruction.length, List.isEmpty_eq_false_iff] at hi
      have := List.length_pos_iff.2 hi.1
      simp only [Instruction.length]
      omega
    · exact hbad
  · exact hbad

/-- Takes the next item with the decoder at hand. -/
def take (e : Engine σ δ) (s : Stream δ) (d : δ) : Instruction × Stream δ :=
  let (i, d) := item e s.arch d s.rest s.address
  (i, s.advance i.length d)

/-- The next instruction. A stream that can open no decoder ends where it is. -/
def next (e : Engine σ δ) (s : Stream δ) (shared : σ) : Option Instruction × Stream δ × σ :=
  if s.rest.isEmpty then (none, s, shared)
  else
    match s.decoder with
    | some d =>
      let (i, s) := take e s d
      (some i, s, shared)
    | none =>
      match e.start s.arch s.order shared with
      | (.ok d, shared) =>
        let (i, s) := take e s d
        (some i, s, shared)
      | (.error _, shared) => (none, s.finish, shared)

theorem length_rest_next {e : Engine σ δ} {s s' : Stream δ} {shared shared' : σ} {i : Instruction}
    (h : next e s shared = (some i, s', shared')) : s'.rest.length < s.rest.length := by
  unfold next at h
  split at h
  · simp at h
  · rename_i hrest
    have hne : s.rest ≠ [] := by simpa using hrest
    have taken (d : δ) : (take e s d).2.rest.length < s.rest.length := by
      have := length_item e s.arch d s.rest s.address hne
      simp only [take, advance, List.length_drop]
      omega
    split at h
    · rename_i d _
      have := taken d
      simp_all
    · split at h
      · rename_i d _ _
        have := taken d
        simp_all
      · simp at h

/-- All instructions that are left, and the stream at its end. -/
def drain (e : Engine σ δ) (s : Stream δ) (shared : σ) : List Instruction × Stream δ × σ :=
  match _h : next e s shared with
  | (none, s, shared) => ([], s, shared)
  | (some i, s', shared) =>
    let (is, s, shared) := drain e s' shared
    (i :: is, s, shared)
termination_by s.rest.length
decreasing_by exact length_rest_next _h

/-- Up to `n` instructions. -/
def takeUpTo (e : Engine σ δ) : Nat → Stream δ → σ → List Instruction × Stream δ × σ
  | 0, s, shared => ([], s, shared)
  | n + 1, s, shared =>
    match next e s shared with
    | (none, s, shared) => ([], s, shared)
    | (some i, s, shared) =>
      let (is, s, shared) := takeUpTo e n s shared
      (i :: is, s, shared)

end Stream

end ElfAtlas
