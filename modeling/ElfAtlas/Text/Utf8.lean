/-!
Bytes as text. Well-formed UTF-8 is decoded; of anything else each maximal ill-formed subpart becomes
one replacement character, so decoding never fails.
-/

namespace ElfAtlas.Utf8

def replacement : Char := Char.ofNat 0xFFFD

/-- How a sequence goes on after its first byte: the range of the second byte and the number of
continuation bytes after that one. -/
structure Lead where
  low : UInt8
  high : UInt8
  more : Nat
  payload : Nat

/-- The leads of two, three and four bytes. The narrower second ranges leave out overlong forms,
surrogates and what lies above U+10FFFF. -/
def lead? (b : UInt8) : Option Lead :=
  if 0xC2 ≤ b ∧ b ≤ 0xDF then some ⟨0x80, 0xBF, 0, b.toNat - 0xC0⟩
  else if b = 0xE0 then some ⟨0xA0, 0xBF, 1, 0⟩
  else if b = 0xED then some ⟨0x80, 0x9F, 1, 0xD⟩
  else if 0xE1 ≤ b ∧ b ≤ 0xEF then some ⟨0x80, 0xBF, 1, b.toNat - 0xE0⟩
  else if b = 0xF0 then some ⟨0x90, 0xBF, 2, 0⟩
  else if 0xF1 ≤ b ∧ b ≤ 0xF3 then some ⟨0x80, 0xBF, 2, b.toNat - 0xF0⟩
  else if b = 0xF4 then some ⟨0x80, 0x8F, 2, 4⟩
  else none

def isContinuation (b : UInt8) : Bool := 0x80 ≤ b && b ≤ 0xBF

/-- Takes up to `more` continuation bytes: the character when all are there, otherwise how many are. -/
def finish (value : Nat) : Nat → List UInt8 → Nat → Char × Nat
  | 0, _, used => (Char.ofNat value, used)
  | _ + 1, [], used => (replacement, used)
  | more + 1, b :: rest, used =>
    if isContinuation b then finish (64 * value + (b.toNat - 0x80)) more rest (used + 1)
    else (replacement, used)

/-- The character at the front of `b :: rest` and how many bytes of `rest` belong to it. -/
def first (b : UInt8) (rest : List UInt8) : Char × Nat :=
  if b < 0x80 then (Char.ofNat b.toNat, 0)
  else
    match lead? b, rest with
    | some l, c :: rest =>
      if l.low ≤ c ∧ c ≤ l.high then finish (64 * l.payload + (c.toNat - 0x80)) l.more rest 1
      else (replacement, 0)
    | _, _ => (replacement, 0)

/-- The characters of `bytes`, last first, in front of `done`. -/
def charsOnto (done : List Char) : List UInt8 → List Char
  | [] => done
  | b :: rest => charsOnto ((first b rest).1 :: done) (rest.drop (first b rest).2)
termination_by bytes => bytes.length
decreasing_by simp only [List.length_drop, List.length_cons]; omega

def chars (bytes : List UInt8) : List Char := (charsOnto [] bytes).reverse

def decode (bytes : List UInt8) : String := String.ofList (chars bytes)

def encode (s : String) : List UInt8 := s.toUTF8.toList

end ElfAtlas.Utf8
