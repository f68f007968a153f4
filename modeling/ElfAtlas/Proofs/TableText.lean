import ElfAtlas.Proofs.Reader
import ElfAtlas.Proofs.Text.Utf8

/-!
Texts of a string table. A text starts at a position of the table and ends before the first NUL or with the
table, whatever the image holds behind it.
-/

namespace ElfAtlas.Reader

variable {r r' : Reader} {first stop limit start size rel : Nat}

def range (r : Reader) (first stop : Nat) : List UInt8 := (r.bytes.extract first stop).toList

/-- A text of a table that ends at `limit`: none of its bytes is a NUL, and behind it stands a NUL or the
table ends. -/
structure IsText (r : Reader) (first stop limit : Nat) : Prop where
  first_le : first ≤ stop
  stop_le : stop ≤ limit
  ne_nul : ∀ i, first ≤ i → i < stop → r.bytes[i]? ≠ some 0
  ends : stop = limit ∨ r.bytes[stop]? = some 0

/-- A text has one end. -/
theorem IsText.stop_eq {other : Nat} (h : r.IsText first stop limit)
    (hother : r.IsText first other limit) : stop = other := by
  obtain hlt | heq | hgt := Nat.lt_trichotomy stop other
  · obtain hend | hend := h.ends
    · have := hother.stop_le
      omega
    · exact absurd hend (hother.ne_nul stop h.first_le hlt)
  · exact heq
  · obtain hend | hend := hother.ends
    · have := h.stop_le
      omega
    · exact absurd hend (h.ne_nul other hother.first_le hgt)

theorem range_eq (r : Reader) (first stop : Nat) :
    r.range first stop = (r.bytes.toList.drop first).take (stop - first) := by
  rw [range, Array.toList_extract, List.extract_eq_take_drop]

theorem getElem?_range {i : Nat} (hi : first + i < stop) :
    (r.range first stop)[i]? = r.bytes[first + i]? := by
  rw [range_eq, List.getElem?_take_of_lt (by omega), List.getElem?_drop, Array.getElem?_toList]

theorem length_range (hstop : stop ≤ r.length) : (r.range first stop).length = stop - first := by
  rw [length] at hstop
  rw [range_eq, List.length_take, List.length_drop, Array.length_toList]
  omega

theorem range_congr (hstop : stop ≤ r.length) (hstop' : stop ≤ r'.length)
    (h : ∀ i, first ≤ i → i < stop → r.bytes[i]? = r'.bytes[i]?) :
    r.range first stop = r'.range first stop := by
  refine List.ext_getElem? fun i => ?_
  by_cases hi : first + i < stop
  · rw [getElem?_range hi, getElem?_range hi, h _ (Nat.le_add_right ..) hi]
  · rw [List.getElem?_eq_none (by rw [length_range hstop]; omega),
      List.getElem?_eq_none (by rw [length_range hstop']; omega)]

/-- What stands before the first NUL of a range, or else the whole range, is a text. -/
theorem isText_takeWhile (hfirst : first ≤ limit) (hlimit : limit ≤ r.length) :
    r.IsText first (first + ((r.range first limit).takeWhile (· != 0)).length) limit := by
  generalize hfront : (r.range first limit).takeWhile (· != 0) = front
  have hlength : (r.range first limit).length = limit - first := length_range hlimit
  have hsplit : r.range first limit = front ++ (r.range first limit).dropWhile (· != 0) := by
    rw [← hfront, List.takeWhile_append_dropWhile]
  have hle : front.length ≤ limit - first := by
    rw [← hlength, ← hfront]
    exact (List.takeWhile_sublist _).length_le
  refine ⟨Nat.le_add_right .., by omega, fun i hi hlt hnul => ?_, ?_⟩
  · obtain ⟨k, rfl⟩ := Nat.exists_eq_add_of_le hi
    rw [← getElem?_range (by omega : first + k < limit), hsplit,
      List.getElem?_append_left (by omega)] at hnul
    have hmem : 0 ∈ (r.range first limit).takeWhile (· != 0) := by
      rw [hfront]
      exact List.mem_of_getElem? hnul
    simpa using List.all_eq_true.1 List.all_takeWhile _ hmem
  · have hnot := List.head?_dropWhile_not (· != 0) (r.range first limit)
    cases hback : (r.range first limit).dropWhile (· != 0) with
    | nil =>
        rw [hback, List.append_nil] at hsplit
        rw [hsplit] at hlength
        exact .inl (by omega)
    | cons b back =>
        rw [hback] at hnot hsplit
        have hlt : first + front.length < limit := by
          rw [hsplit, List.length_append, List.length_cons] at hlength
          omega
        obtain rfl : b = 0 := by simpa using hnot
        refine .inr ?_
        rw [← getElem?_range hlt, hsplit, List.getElem?_append_right (Nat.le_refl _), Nat.sub_self]
        rfl

theorem takeWhile_range (hfirst : first ≤ limit) (hlimit : limit ≤ r.length)
    (h : r.IsText first stop limit) :
    (r.range first limit).takeWhile (· != 0) = r.range first stop := by
  have hstop := h.stop_eq (isText_takeWhile hfirst hlimit)
  rw [List.prefix_iff_eq_take.1 (List.takeWhile_prefix _), range_eq, range_eq, List.take_take, hstop,
    Nat.add_sub_cancel_left, ← range_eq, Nat.min_eq_left]
  rw [← length_range hlimit]
  exact (List.takeWhile_sublist _).length_le

theorem text_eq (hin : r.contains start size = true) (hrel : rel < size) :
    r.text start size rel =
      .ok (Utf8.decode ((r.range (start + rel) (start + size)).takeWhile (· != 0))) := by
  have hle := (contains_eq_true_iff.1 hin).1
  refine text_eq_ok_iff.2 ⟨_, slice_eq_ok_iff.2 ⟨hin, rfl⟩, ?_, ?_⟩
  · have hlength : (r.range start (start + size)).length = start + size - start := length_range hle
    rw [range] at hlength
    omega
  · have hdrop : (r.range start (start + size)).drop rel = r.range (start + rel) (start + size) := by
      rw [range_eq, range_eq, List.drop_take, List.drop_drop]
      congr 1
      omega
    rw [← hdrop]
    rfl

theorem slice_eq_error (hout : r.contains start size = false) :
    r.slice start size =
      .error (if start + size < UInt64.size then .outOfBounds start size r.length
        else .overflow "slice end") := by
  rw [← Bool.not_eq_true, contains_eq_true_iff] at hout
  rw [slice, checkedAdd]
  split
  · have : ¬ start + size ≤ r.length := by omega
    simp [bind, Except.bind, this, outOfBounds]
  · rfl

theorem text_eq_error_of_out (hout : r.contains start size = false) :
    r.text start size rel =
      .error (if start + size < UInt64.size then .outOfBounds start size r.length
        else .overflow "slice end") := by
  rw [text, slice_eq_error hout]
  rfl

theorem text_eq_error_of_le (hin : r.contains start size = true) (hrel : size ≤ rel) :
    r.text start size rel =
      .error (if start + rel < UInt64.size then .outOfBounds (start + rel) 1 r.length
        else .overflow "string offset") := by
  have hslice := slice_eq_ok_iff.2 ⟨hin, rfl⟩
  have hlength : (r.range start (start + size)).length = size := by
    rw [length_range (contains_eq_true_iff.1 hin).1, Nat.add_sub_cancel_left]
  rw [range] at hlength
  rw [text, hslice]
  dsimp only [bind, Except.bind]
  rw [if_neg (by omega), checkedAdd]
  by_cases hsum : start + rel < UInt64.size
  · simp only [if_pos hsum, outOfBounds]
  · simp only [if_neg hsum]

theorem exists_text_eq_ok_iff :
    (∃ name, r.text start size rel = .ok name) ↔ r.contains start size = true ∧ rel < size := by
  constructor
  · rintro ⟨name, hname⟩
    cases hin : r.contains start size with
    | false =>
        rw [text_eq_error_of_out hin] at hname
        cases hname
    | true =>
        refine ⟨rfl, Nat.lt_of_not_le fun hle => ?_⟩
        rw [text_eq_error_of_le hin hle] at hname
        cases hname
  · rintro ⟨hin, hrel⟩
    exact ⟨_, text_eq hin hrel⟩

theorem text_eq_ok_iff_isText {name : String} :
    r.text start size rel = .ok name ↔
      (r.contains start size = true ∧ rel < size) ∧
        ∃ stop, r.IsText (start + rel) stop (start + size) ∧
          name = Utf8.decode (r.range (start + rel) stop) := by
  constructor
  · intro hname
    obtain ⟨hin, hrel⟩ := exists_text_eq_ok_iff.1 ⟨name, hname⟩
    have hfirst : start + rel ≤ start + size := by omega
    have hlimit := (contains_eq_true_iff.1 hin).1
    have hstop := isText_takeWhile hfirst hlimit
    rw [text_eq hin hrel, takeWhile_range hfirst hlimit hstop] at hname
    exact ⟨⟨hin, hrel⟩, _, hstop, (Except.ok.inj hname).symm⟩
  · rintro ⟨⟨hin, hrel⟩, stop, hstop, rfl⟩
    rw [text_eq hin hrel, takeWhile_range (by omega) (contains_eq_true_iff.1 hin).1 hstop]

theorem text_congr (hin : r.contains start size = true) (hin' : r'.contains start size = true)
    (h : ∀ i, start + rel ≤ i → i < start + size → r.bytes[i]? = r'.bytes[i]?) :
    (r.text start size rel).toOption = (r'.text start size rel).toOption := by
  obtain hrel | hrel := Nat.lt_or_ge rel size
  · rw [text_eq hin hrel, text_eq hin' hrel,
      range_congr (contains_eq_true_iff.1 hin).1 (contains_eq_true_iff.1 hin').1 h]
  · rw [text_eq_error_of_le hin hrel, text_eq_error_of_le hin' hrel]
    rfl

theorem nul_not_mem_of_text {name : String} (h : r.text start size rel = .ok name) :
    '\x00' ∉ name.toList := by
  obtain ⟨hin, hrel⟩ := exists_text_eq_ok_iff.1 ⟨name, h⟩
  rw [text_eq hin hrel] at h
  cases h
  refine Utf8.nul_not_mem_decode fun hmem => ?_
  simpa using List.all_eq_true.1 List.all_takeWhile _ hmem

/-- A text is read exactly where the table lies in the image and the position in the table. It is decoded
from the bytes up to the first NUL or the end of the table, so it has no NUL, and images that agree on the
rest of the table have the same text there. Else the fault is that of the sum that leaves the image: an
overflow if it is no 64-bit quantity. -/
theorem text_confined (r : Reader) (start size rel : Nat) :
    let first := start + rel
    let limit := start + size
    ((∃ name, r.text start size rel = .ok name) ↔ r.contains start size = true ∧ rel < size) ∧
      (∀ name, r.text start size rel = .ok name ↔
        (r.contains start size = true ∧ rel < size) ∧
          ∃ stop, r.IsText first stop limit ∧ name = Utf8.decode (r.range first stop)) ∧
      (∀ name, r.text start size rel = .ok name → '\x00' ∉ name.toList) ∧
      (∀ r' : Reader, r.contains start size = true → r'.contains start size = true →
        (∀ i, first ≤ i → i < limit → r.bytes[i]? = r'.bytes[i]?) →
          (r.text start size rel).toOption = (r'.text start size rel).toOption) ∧
      (r.contains start size = false →
        r.text start size rel =
          .error (if limit < UInt64.size then .outOfBounds start size r.length
            else .overflow "slice end")) ∧
      (r.contains start size = true → size ≤ rel →
        r.text start size rel =
          .error (if first < UInt64.size then .outOfBounds first 1 r.length
            else .overflow "string offset")) :=
  ⟨exists_text_eq_ok_iff, fun _ => text_eq_ok_iff_isText, fun _ => nul_not_mem_of_text,
    fun _ => text_congr, text_eq_error_of_out, text_eq_error_of_le⟩

/-- A text of three bytes and two characters, in two images of different lengths that agree on nothing
but this text and what comes behind it in the table. The last text of the table has no NUL behind it. -/
theorem text_confined_accented :
    let r : Reader := ⟨#[0x00, 0x00, 0x68, 0xc3, 0xa9, 0x00, 0xff, 0x64], .little⟩
    let r' : Reader := ⟨#[0x7f, 0x68, 0x68, 0xc3, 0xa9, 0x00, 0xff, 0x64, 0x65], .big⟩
    r.contains 1 7 = true ∧ r'.contains 1 7 = true ∧ r.text 1 7 1 = .ok "hé" ∧
      r.text 1 7 5 = .ok "�d" ∧ (r'.text 1 7 1).toOption = some "hé" ∧
      r.text 1 7 (UInt64.size - 1) = .error (.overflow "string offset") := by
  intro r r'
  have hin : r.contains 1 7 = true := by decide
  have hin' : r'.contains 1 7 = true := by decide
  obtain ⟨-, hread, -, hsame, -⟩ := text_confined r 1 7 1
  obtain ⟨-, hreadLast, -⟩ := text_confined r 1 7 5
  obtain ⟨-, -, -, -, -, hpast⟩ := text_confined r 1 7 (UInt64.size - 1)
  have hnul : ∀ i < 8, 2 ≤ i → i ≠ 5 → r.bytes[i]? ≠ some 0 := by decide
  have hagree : ∀ i < 8, 2 ≤ i → r.bytes[i]? = r'.bytes[i]? := by decide
  have hfirst : r.IsText 2 5 8 :=
    ⟨by omega, by omega, fun i hi hlt => hnul i (by omega) hi (by omega), .inr (by decide)⟩
  have hlast : r.IsText 6 8 8 :=
    ⟨by omega, by omega, fun i hi hlt => hnul i hlt (by omega) (by omega), .inl rfl⟩
  have hname := (hread "hé").2 ⟨⟨hin, by omega⟩, 5, hfirst, by decide +kernel⟩
  have hnameLast := (hreadLast "�d").2 ⟨⟨hin, by omega⟩, 8, hlast, by decide +kernel⟩
  have hother := hsame r' hin hin' fun i hi hlt => hagree i hlt hi
  rw [hname] at hother
  exact ⟨hin, hin', hname, hnameLast, hother.symm, hpast hin (by decide)⟩

end ElfAtlas.Reader
