/-!
Byte order: a list of bytes read as a number, and a number written as a list of bytes. Each undoes the
other within the width.
-/

namespace ElfAtlas

inductive ByteOrder where
  | little
  | big
  deriving DecidableEq, Repr

namespace ByteOrder

def isLittle (o : ByteOrder) : Bool := o = little

/-- Least significant byte first. -/
def ofLittle : List UInt8 → Nat
  | [] => 0
  | b :: rest => b.toNat + 256 * ofLittle rest

/-- The `width` lowest bytes of `n`, least significant first. -/
def toLittle : Nat → Nat → List UInt8
  | 0, _ => []
  | width + 1, n => UInt8.ofNat n :: toLittle width (n / 256)

def value (o : ByteOrder) (bytes : List UInt8) : Nat :=
  match o with
  | little => ofLittle bytes
  | big => ofLittle bytes.reverse

def bytes (o : ByteOrder) (width n : Nat) : List UInt8 :=
  match o with
  | little => toLittle width n
  | big => (toLittle width n).reverse

theorem length_toLittle (width n : Nat) : (toLittle width n).length = width := by
  induction width generalizing n with
  | zero => rfl
  | succ width ih => simp [toLittle, ih]

theorem shift_byte (width : Nat) : 1 <<< (8 * (width + 1)) = 256 * 1 <<< (8 * width) := by
  simp only [Nat.one_shiftLeft, Nat.mul_add, Nat.pow_add]
  omega

theorem ofLittle_lt (bytes : List UInt8) : ofLittle bytes < 1 <<< (8 * bytes.length) := by
  induction bytes with
  | nil => simp [ofLittle]
  | cons b rest ih =>
    have hb := b.toNat_lt
    simp only [ofLittle, List.length_cons, shift_byte]
    omega

theorem ofLittle_toLittle (width n : Nat) : ofLittle (toLittle width n) = n % 1 <<< (8 * width) := by
  induction width generalizing n with
  | zero => simp [toLittle, ofLittle, Nat.mod_one]
  | succ width ih =>
    have byte : (UInt8.ofNat n).toNat = n % 256 := UInt8.toNat_ofNat'
    rw [toLittle, ofLittle, ih, byte, shift_byte, Nat.mod_mul]

theorem toLittle_ofLittle (bs : List UInt8) : toLittle bs.length (ofLittle bs) = bs := by
  induction bs with
  | nil => rfl
  | cons b rest ih =>
    have hb := b.toNat_lt
    have low : UInt8.ofNat (b.toNat + 256 * ofLittle rest) = b := by
      apply UInt8.toNat_inj.1
      rw [UInt8.toNat_ofNat']
      omega
    have high : (b.toNat + 256 * ofLittle rest) / 256 = ofLittle rest := by omega
    rw [ofLittle, List.length_cons, toLittle, low, high, ih]

theorem length_bytes (o : ByteOrder) (width n : Nat) : (o.bytes width n).length = width := by
  cases o <;> simp [bytes, length_toLittle]

theorem value_lt (o : ByteOrder) (bs : List UInt8) : o.value bs < 1 <<< (8 * bs.length) := by
  cases o
  · exact ofLittle_lt bs
  · rw [← bs.length_reverse]
    exact ofLittle_lt bs.reverse

theorem value_bytes (o : ByteOrder) (width n : Nat) :
    o.value (o.bytes width n) = n % 1 <<< (8 * width) := by
  cases o <;> simp only [value, bytes, List.reverse_reverse, ofLittle_toLittle]

theorem bytes_value (o : ByteOrder) (bs : List UInt8) : o.bytes bs.length (o.value bs) = bs := by
  cases o with
  | little => exact toLittle_ofLittle bs
  | big =>
    have h := toLittle_ofLittle bs.reverse
    rw [List.length_reverse] at h
    rw [bytes, value, h, List.reverse_reverse]

end ByteOrder

end ElfAtlas
