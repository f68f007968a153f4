import ElfAtlas.Text.Utf8
import Mathlib.Tactic.SplitIfs

/-!
ASCII as UTF-8. Bytes below 0x80 are one character each, and encoding the decoded text gives them back. A
NUL is decoded from its own byte only.
-/

namespace ElfAtlas.Utf8

theorem charsOnto_of_ascii (done : List Char) {bytes : List UInt8} (h : ∀ b ∈ bytes, b < 0x80) :
    charsOnto done bytes = (bytes.map fun b => Char.ofNat b.toNat).reverse ++ done := by
  induction bytes generalizing done with
  | nil => simp [charsOnto]
  | cons b bytes ih =>
      obtain ⟨hb, hbytes⟩ := List.forall_mem_cons.1 h
      have hfirst : first b bytes = (Char.ofNat b.toNat, 0) := if_pos hb
      rw [charsOnto, hfirst, List.drop_zero, ih _ hbytes]
      simp

theorem chars_of_ascii {bytes : List UInt8} (h : ∀ b ∈ bytes, b < 0x80) :
    chars bytes = bytes.map fun b => Char.ofNat b.toNat := by
  simp [chars, charsOnto_of_ascii [] h]

theorem utf8EncodeChar_ofNat {b : UInt8} (h : b < 0x80) :
    String.utf8EncodeChar (Char.ofNat b.toNat) = [b] := by
  have hb : b.toNat < 128 := h
  have hvalid : b.toNat.isValidChar := .inl (by omega)
  have hval : (Char.ofNat b.toNat).val.toNat = b.toNat := by
    rw [Char.ofNat, dif_pos hvalid]
    rfl
  rw [String.utf8EncodeChar, hval, if_pos (by omega), UInt8.ofNat_toNat]

/-- The bytes of an array that are left, behind those that are collected. -/
theorem toList_loop (bytes : ByteArray) (i : Nat) (collected : List UInt8) :
    ByteArray.toList.loop bytes i collected = collected.reverse ++ bytes.data.toList.drop i := by
  fun_induction ByteArray.toList.loop bytes i collected with
  | case1 i collected h ih =>
      have hi : i < bytes.data.toList.length := h
      have hget : bytes.get! i = bytes.data.toList[i] := getElem!_pos bytes.data i h
      rw [ih, List.drop_eq_getElem_cons hi, List.reverse_cons, List.append_assoc, hget]
      rfl
  | case2 i collected h =>
      have hi : bytes.data.toList.length ≤ i := Nat.le_of_not_lt h
      rw [List.drop_of_length_le hi, List.append_nil]

theorem encode_eq (s : String) : encode s = s.toByteArray.data.toList := by
  rw [encode, ByteArray.toList, toList_loop]
  rfl

theorem encode_decode_of_ascii {bytes : List UInt8} (h : ∀ b ∈ bytes, b < 0x80) :
    encode (decode bytes) = bytes := by
  rw [encode_eq, decode, String.toByteArray_ofList, List.utf8Encode, List.toList_data_toByteArray,
    chars_of_ascii h, List.flatMap_map]
  induction bytes with
  | nil => rfl
  | cons b bytes ih =>
      obtain ⟨hb, hbytes⟩ := List.forall_mem_cons.1 h
      rw [List.flatMap_cons, utf8EncodeChar_ofNat hb, ih hbytes, List.singleton_append]

/-- Whatever groups of six bits come behind this value, the number is a character other than NUL. -/
def Completes (value : Nat) : (more : Nat) → Prop
  | 0 => 0 < value ∧ value.isValidChar
  | more + 1 => ∀ group < 64, Completes (64 * value + group) more

theorem ofNat_ne_nul {n : Nat} (hpos : 0 < n) (hvalid : n.isValidChar) : Char.ofNat n ≠ '\x00' := by
  intro h
  have hval : (Char.ofNat n).val.toNat = n := by
    rw [Char.ofNat, dif_pos hvalid]
    rfl
  rw [h] at hval
  exact Nat.ne_of_lt hpos hval

theorem replacement_ne_nul : replacement ≠ '\x00' := by decide

theorem finish_ne_nul {value more : Nat} (h : Completes value more) (rest : List UInt8) (used : Nat) :
    (finish value more rest used).1 ≠ '\x00' := by
  induction more generalizing value rest used with
  | zero => exact ofNat_ne_nul h.1 h.2
  | succ more ih =>
      cases rest with
      | nil => exact replacement_ne_nul
      | cons b rest =>
          rw [finish]
          split
          · rename_i hb
            simp only [isContinuation, Bool.and_eq_true, decide_eq_true_eq, UInt8.le_iff_toNat_le,
              UInt8.reduceToNat] at hb
            exact ih (h _ (by omega)) rest (used + 1)
          · exact replacement_ne_nul

/-- The ranges of the second byte keep out overlong forms, surrogates and what is too large. -/
theorem completes_of_lead {b c : UInt8} {l : Lead} (hl : lead? b = some l) (hlow : l.low ≤ c)
    (hhigh : c ≤ l.high) : Completes (64 * l.payload + (c.toNat - 0x80)) l.more := by
  simp only [lead?, UInt8.le_iff_toNat_le, ← UInt8.toNat_inj, UInt8.reduceToNat] at hl
  split_ifs at hl
  all_goals
    cases hl
    simp only [UInt8.le_iff_toNat_le, UInt8.reduceToNat] at hlow hhigh
    simp only [Completes, Nat.isValidChar]
    omega

theorem first_ne_nul {b : UInt8} (hb : b ≠ 0) (rest : List UInt8) : (first b rest).1 ≠ '\x00' := by
  unfold first
  split
  · rename_i hlt
    have hpos : b.toNat ≠ 0 := fun h => hb (UInt8.toNat_inj.1 h)
    have hlt : b.toNat < 128 := hlt
    exact ofNat_ne_nul (by omega) (.inl (by omega))
  · split
    · rename_i l c rest hl
      split
      · rename_i hc
        exact finish_ne_nul (completes_of_lead hl hc.1 hc.2) rest 1
      · exact replacement_ne_nul
    · exact replacement_ne_nul

theorem nul_not_mem_charsOnto {done : List Char} {bytes : List UInt8} (hdone : '\x00' ∉ done)
    (hbytes : 0 ∉ bytes) : '\x00' ∉ charsOnto done bytes := by
  fun_induction charsOnto done bytes with
  | case1 => exact hdone
  | case2 done b rest ih =>
      rw [List.mem_cons, not_or] at hbytes
      obtain ⟨hb, hrest⟩ := hbytes
      refine ih ?_ fun hmem => hrest (List.mem_of_mem_drop hmem)
      rw [List.mem_cons, not_or]
      exact ⟨(first_ne_nul (Ne.symm hb) rest).symm, hdone⟩

theorem nul_not_mem_decode {bytes : List UInt8} (h : 0 ∉ bytes) : '\x00' ∉ (decode bytes).toList := by
  rw [decode, String.toList_ofList, chars, List.mem_reverse]
  exact nul_not_mem_charsOnto List.not_mem_nil h

end ElfAtlas.Utf8
