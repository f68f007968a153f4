import ElfAtlas.Proofs.Reader

/-!
Fields of records in an image. A record is written field by field without gaps. Where an image holds
such bytes, reading a field gives the value that was written, and a value is read nowhere else.
-/

namespace ElfAtlas

/-- A record as bytes: its fields one after the other, each given by its width and its value. -/
def ByteOrder.record (o : ByteOrder) (fields : List (Nat × Nat)) : List UInt8 :=
  fields.flatMap fun f => o.bytes f.1 f.2

theorem ByteOrder.length_record (o : ByteOrder) (fields : List (Nat × Nat)) :
    (o.record fields).length = fields.foldr (fun f n => f.1 + n) 0 := by
  induction fields with
  | nil => rfl
  | cons f fields ih =>
      rw [record, List.flatMap_cons, List.length_append, length_bytes, List.foldr_cons, ← ih]
      rfl

namespace Reader

def Holds (r : Reader) (offset : Nat) (bytes : List UInt8) : Prop :=
  offset ≤ r.length ∧ bytes <+: r.bytes.toList.drop offset

instance (r : Reader) (offset : Nat) (bytes : List UInt8) : Decidable (r.Holds offset bytes) :=
  inferInstanceAs (Decidable (_ ∧ _))

variable {r : Reader} {offset : Nat}

theorem Holds.le_length {bytes : List UInt8} (h : r.Holds offset bytes) :
    offset + bytes.length ≤ r.length := by
  obtain ⟨hoffset, hprefix⟩ := h
  have hle := hprefix.length_le
  rw [List.length_drop, r.bytes.length_toList] at hle
  rw [length] at hoffset ⊢
  omega

theorem holds_append {front bytes : List UInt8} :
    r.Holds offset (front ++ bytes) ↔ r.Holds offset front ∧ r.Holds (offset + front.length) bytes := by
  constructor
  · intro h
    have hle := h.le_length
    rw [List.length_append] at hle
    obtain ⟨rest, hrest⟩ := h.2
    refine ⟨⟨h.1, ⟨bytes ++ rest, by rw [← List.append_assoc, hrest]⟩⟩, by omega, ⟨rest, ?_⟩⟩
    rw [← List.drop_drop, ← hrest, List.append_assoc, List.drop_left]
  · rintro ⟨⟨hle, hfront⟩, -, hbytes⟩
    refine ⟨hle, ?_⟩
    obtain ⟨rest, hrest⟩ := hfront
    rw [← List.drop_drop, ← hrest, List.drop_left] at hbytes
    rw [← hrest]
    exact (List.prefix_append_right_inj front).2 hbytes

theorem holds_cons_cons {b b' : UInt8} {bytes : List UInt8} :
    r.Holds offset (b :: b' :: bytes) ↔ r.Holds offset [b] ∧ r.Holds (offset + 1) (b' :: bytes) :=
  @holds_append r offset [b] (b' :: bytes)

theorem Holds.nil {bytes : List UInt8} (h : r.Holds offset bytes) :
    r.Holds (offset + bytes.length) [] :=
  ⟨h.le_length, List.nil_prefix⟩

theorem holds_record_cons {o : ByteOrder} {width value : Nat} {fields : List (Nat × Nat)} :
    r.Holds offset (o.record ((width, value) :: fields)) ↔
      r.Holds offset (o.bytes width value) ∧ r.Holds (offset + width) (o.record fields) := by
  rw [ByteOrder.record, List.flatMap_cons, holds_append, ByteOrder.length_bytes]
  rfl

theorem slice_eq_ok_iff_holds {len : Nat} {bytes : List UInt8} :
    r.slice offset len = .ok bytes ↔
      offset + len < UInt64.size ∧ bytes.length = len ∧ r.Holds offset bytes := by
  rw [slice_eq_ok_iff, contains_eq_true_iff, Array.toList_extract, List.extract_eq_take_drop,
    Nat.add_sub_cancel_left]
  constructor
  · rintro ⟨⟨hle, hlt⟩, rfl⟩
    refine ⟨hlt, ?_, by omega, List.take_prefix ..⟩
    rw [List.length_take, List.length_drop, Array.length_toList]
    rw [length] at hle
    omega
  · rintro ⟨hlt, rfl, h⟩
    exact ⟨⟨h.le_length, hlt⟩, (List.prefix_iff_eq_take.1 h.2).symm⟩

/-- A number is read where its bytes are held, and nowhere else. -/
theorem number_eq_ok_iff {width n : Nat} :
    r.number offset width = .ok n ↔
      offset + width < UInt64.size ∧ n < 1 <<< (8 * width) ∧
        r.Holds offset (r.order.bytes width n) := by
  simp only [number, bind_eq_ok_iff, slice_eq_ok_iff_holds]
  constructor
  · rintro ⟨bytes, ⟨hlt, rfl, h⟩, hvalue⟩
    obtain rfl : r.order.value bytes = n := Except.ok.inj hvalue
    rw [ByteOrder.bytes_value]
    exact ⟨hlt, ByteOrder.value_lt _ _, h⟩
  · rintro ⟨hlt, hn, h⟩
    refine ⟨_, ⟨hlt, ByteOrder.length_bytes .., h⟩, ?_⟩
    rw [ByteOrder.value_bytes, Nat.mod_eq_of_lt hn]
    rfl

/-- What an image holds ends at a 64-bit position if the image does. -/
theorem Holds.add_width_lt {width n : Nat} (h : r.Holds offset (r.order.bytes width n))
    (hr : r.length < UInt64.size) : offset + width < UInt64.size := by
  have hle := h.le_length
  rw [ByteOrder.length_bytes] at hle
  omega

theorem number_of_holds (hr : r.length < UInt64.size) {width value : Nat}
    (hvalue : value < 1 <<< (8 * width)) (h : r.Holds offset (r.order.bytes width value)) :
    r.number offset width = .ok value :=
  number_eq_ok_iff.2 ⟨h.add_width_lt hr, hvalue, h⟩

/-- The same for a type of numbers of this width. -/
theorem map_number_eq_ok_iff {α : Type} {ofNat : Nat → α} {toNat : α → Nat} {width : Nat}
    (hlt : ∀ n, toNat n < 1 <<< (8 * width)) (hofNat : ∀ n, ofNat (toNat n) = n)
    (htoNat : ∀ m, m < 1 <<< (8 * width) → toNat (ofNat m) = m) {n : α} :
    ofNat <$> r.number offset width = .ok n ↔
      offset + width < UInt64.size ∧ r.Holds offset (r.order.bytes width (toNat n)) := by
  simp only [map_eq_ok_iff, number_eq_ok_iff]
  constructor
  · rintro ⟨m, ⟨hoffset, hm, h⟩, rfl⟩
    rw [htoNat m hm]
    exact ⟨hoffset, h⟩
  · rintro ⟨hoffset, h⟩
    exact ⟨_, ⟨hoffset, hlt n, h⟩, hofNat n⟩

theorem u8_eq_ok_iff {n : UInt8} :
    r.u8 offset = .ok n ↔
      offset + 1 < UInt64.size ∧ r.Holds offset (r.order.bytes 1 n.toNat) :=
  map_number_eq_ok_iff (fun n => n.toNat_lt) (fun _ => UInt8.ofNat_toNat)
    fun _ => UInt8.toNat_ofNat_of_lt'

theorem u16_eq_ok_iff {n : UInt16} :
    r.u16 offset = .ok n ↔
      offset + 2 < UInt64.size ∧ r.Holds offset (r.order.bytes 2 n.toNat) :=
  map_number_eq_ok_iff (fun n => n.toNat_lt) (fun _ => UInt16.ofNat_toNat)
    fun _ => UInt16.toNat_ofNat_of_lt'

theorem u32_eq_ok_iff {n : UInt32} :
    r.u32 offset = .ok n ↔
      offset + 4 < UInt64.size ∧ r.Holds offset (r.order.bytes 4 n.toNat) :=
  map_number_eq_ok_iff (fun n => n.toNat_lt) (fun _ => UInt32.ofNat_toNat)
    fun _ => UInt32.toNat_ofNat_of_lt'

theorem u64_eq_ok_iff {n : UInt64} :
    r.u64 offset = .ok n ↔
      offset + 8 < UInt64.size ∧ r.Holds offset (r.order.bytes 8 n.toNat) :=
  map_number_eq_ok_iff (fun n => n.toNat_lt) (fun _ => UInt64.ofNat_toNat)
    fun _ => UInt64.toNat_ofNat_of_lt'

theorem u8_of_holds (hr : r.length < UInt64.size) {n : UInt8}
    (h : r.Holds offset (r.order.bytes 1 n.toNat)) : r.u8 offset = .ok n :=
  u8_eq_ok_iff.2 ⟨h.add_width_lt hr, h⟩

theorem u16_of_holds (hr : r.length < UInt64.size) {n : UInt16}
    (h : r.Holds offset (r.order.bytes 2 n.toNat)) : r.u16 offset = .ok n :=
  u16_eq_ok_iff.2 ⟨h.add_width_lt hr, h⟩

theorem u32_of_holds (hr : r.length < UInt64.size) {n : UInt32}
    (h : r.Holds offset (r.order.bytes 4 n.toNat)) : r.u32 offset = .ok n :=
  u32_eq_ok_iff.2 ⟨h.add_width_lt hr, h⟩

theorem u64_of_holds (hr : r.length < UInt64.size) {n : UInt64}
    (h : r.Holds offset (r.order.bytes 8 n.toNat)) : r.u64 offset = .ok n :=
  u64_eq_ok_iff.2 ⟨h.add_width_lt hr, h⟩

end Reader

end ElfAtlas
