import ElfAtlas.Proofs.Order.StableSort
import ElfAtlas.Proofs.Text.Hex
import ElfAtlas.Proofs.Text.Span
import ElfAtlas.Xref.Builder

/-!
The addresses that the text of an operand names. The scan for literals goes from left to right and takes
each as long as it can. Text before a character that no literal holds does not matter for what is found
behind it, so a literal that stands apart is found whatever comes before.
-/

namespace ElfAtlas.XrefBuilder

open Hex

theorem hexLiterals_cons_of_ne {c : Char} (hc : c ≠ '0') (rest : List Char) :
    hexLiterals (c :: rest) = hexLiterals rest := by
  rw [hexLiterals, if_neg fun h => hc h.1]

/-- The scan finds its way again at a character that stands in no literal, and at the end. -/
theorem hexLiterals_append {back : List Char}
    (hback : ∀ c ∈ back.head?, isDigit c = false ∧ c ≠ 'x' ∧ c ≠ 'X') (front : List Char) :
    hexLiterals (front ++ back) = hexLiterals front ++ hexLiterals back := by
  have hdigit : ∀ c ∈ back.head?, isDigit c = false := fun c hc => (hback c hc).1
  fun_induction hexLiterals front with
  | case1 => rfl
  | case2 c rest digits hstart ih =>
      obtain ⟨rfl, hmark, hne⟩ := hstart
      cases rest with
      | nil => simp at hmark
      | cons mark rest =>
          have hdigits : (mark :: (rest ++ back)).tail.takeWhile isDigit = digits :=
            takeWhile_append_of_head hdigit rest
          simp only [List.drop_one, List.tail_cons, List.head?_cons] at hmark ih
          rw [List.cons_append, List.cons_append, hexLiterals, List.drop_one, hdigits,
            if_pos ⟨rfl, hmark, hne⟩, List.tail_cons, dropWhile_append_of_head hdigit, ih]
          rfl
  | case3 c rest digits hstart ih =>
      rw [List.cons_append, hexLiterals, if_neg, ih]
      rintro ⟨rfl, hmark, hne⟩
      cases rest with
      | nil =>
          obtain hmark | hmark := hmark
          · exact (hback 'x' hmark).2.1 rfl
          · exact (hback 'X' hmark).2.2 rfl
      | cons mark rest =>
          rw [List.cons_append, List.drop_one, List.tail_cons, takeWhile_append_of_head hdigit] at hne
          exact hstart ⟨rfl, hmark, hne⟩

theorem hexLiterals_literal {mark : Char} (hmark : mark = 'x' ∨ mark = 'X') {digits back : List Char}
    (hne : digits ≠ []) (hdigits : ∀ d ∈ digits, isDigit d = true)
    (hback : ∀ c ∈ back.head?, isDigit c = false) :
    hexLiterals ('0' :: mark :: (digits ++ back)) = digits :: hexLiterals back := by
  rw [hexLiterals, List.drop_one, List.tail_cons, takeWhile_append_of_all hback hdigits,
    dropWhile_append_of_all hback hdigits, if_pos]
  exact ⟨rfl, by simpa using hmark, hne⟩

def IsLiteral (text digits : List Char) : Prop :=
  ∃ front mark back, text = front ++ '0' :: mark :: (digits ++ back) ∧ (mark = 'x' ∨ mark = 'X') ∧
    digits ≠ [] ∧ (∀ d ∈ digits, isDigit d = true) ∧ ∀ c ∈ back.head?, isDigit c = false

theorem IsLiteral.append_left {text digits : List Char} (h : IsLiteral text digits)
    (before : List Char) : IsLiteral (before ++ text) digits := by
  obtain ⟨front, mark, back, rfl, hliteral⟩ := h
  exact ⟨before ++ front, mark, back, (List.append_assoc ..).symm, hliteral⟩

theorem isLiteral_of_mem {text digits : List Char} (h : digits ∈ hexLiterals text) :
    IsLiteral text digits := by
  fun_induction hexLiterals text with
  | case1 => cases h
  | case2 c rest found hstart ih =>
      obtain ⟨rfl, hmark, hne⟩ := hstart
      cases rest with
      | nil => simp at hmark
      | cons mark rest =>
          have hsplit : rest = found ++ rest.dropWhile isDigit :=
            List.takeWhile_append_dropWhile.symm
          obtain rfl | h := List.mem_cons.1 h
          · refine ⟨[], mark, rest.dropWhile isDigit, ?_, by simpa using hmark, hne,
              fun d => List.all_eq_true.1 List.all_takeWhile d, fun c hc => ?_⟩
            · rw [← hsplit, List.nil_append]
            · have hnot := List.head?_dropWhile_not isDigit rest
              rwa [Option.mem_def.1 hc] at hnot
          · rw [hsplit]
            exact (ih h).append_left ('0' :: mark :: found)
  | case3 c rest found hstart ih => exact (ih h).append_left [c]

theorem mem_operandValues {o : Operand} {v : UInt64} :
    v ∈ operandValues o ↔
      o.target = some v ∨ o.immediate.map Int64.toUInt64 = some v ∨
        ∃ digits ∈ hexLiterals o.text.toList, ofDigits? digits = some v.toNat := by
  have hvalue (digits : List Char) :
      ((ofDigits? digits).filter (· < UInt64.size)).map UInt64.ofNat = some v ↔
        ofDigits? digits = some v.toNat := by
    constructor
    · intro h
      obtain ⟨n, hn, rfl⟩ := Option.map_eq_some_iff.1 h
      obtain ⟨hn, hlt⟩ := Option.filter_eq_some_iff.1 hn
      rw [hn, UInt64.toNat_ofNat_of_lt' (of_decide_eq_true hlt)]
    · intro h
      have hlt : v.toNat < UInt64.size := v.toNat_lt
      rw [h, Option.filter_some, if_pos (decide_eq_true hlt), Option.map_some, UInt64.ofNat_toNat]
  simp only [operandValues, List.mem_eraseDups, List.mem_append, List.mem_filterMap, hvalue,
    Option.mem_toList, or_assoc]

/-- The digits of a literal that starts behind no digit and no mark. -/
theorem mem_hexLiterals {front digits back : List Char} {mark : Char} (hmark : mark = 'x' ∨ mark = 'X')
    (hfront : ∀ c ∈ front.getLast?, isDigit c = false ∧ c ≠ 'x' ∧ c ≠ 'X')
    (hne : digits ≠ []) (hdigits : ∀ d ∈ digits, isDigit d = true)
    (hback : ∀ c ∈ back.head?, isDigit c = false) :
    digits ∈ hexLiterals (front ++ '0' :: mark :: (digits ++ back)) := by
  have hliteral := hexLiterals_literal hmark hne hdigits hback
  obtain rfl | ⟨front, c, rfl⟩ := List.eq_nil_or_concat front
  · rw [List.nil_append, hliteral]
    exact List.mem_cons_self
  · rw [List.concat_eq_append] at hfront ⊢
    have hc := hfront c (by simp)
    have hzero : c ≠ '0' := by
      rintro rfl
      exact absurd hc.1 (by decide)
    rw [List.append_assoc, hexLiterals_append (by simpa using hc), List.singleton_append,
      hexLiterals_cons_of_ne hzero, hliteral]
    exact List.mem_append_right _ List.mem_cons_self

/-- An address that stands in the text behind no digit and no mark, and before no digit, is among the values
of the operand. No value is listed twice, and each is the target, the immediate in two's complement, or
what a literal of the text writes. -/
theorem operandValues_literals (o : Operand) :
    (∀ (v : UInt64) (front back : String), ∀ literal ∈ [marked v.toNat, markedUpper v.toNat],
      o.text = front ++ literal ++ back →
      (∀ c ∈ front.toList.getLast?, isDigit c = false ∧ c ≠ 'x' ∧ c ≠ 'X') →
      (∀ c ∈ back.toList.head?, isDigit c = false) → v ∈ operandValues o) ∧
      (operandValues o).Nodup ∧
      ∀ v ∈ operandValues o, o.target = some v ∨ o.immediate.map Int64.toUInt64 = some v ∨
        ∃ digits, IsLiteral o.text.toList digits ∧ ofDigits? digits = some v.toNat := by
  refine ⟨fun v front back literal hliteral htext hfront hback => ?_, nodup_eraseDups _,
    fun v hv => ?_⟩
  · have hspelled : ∃ spell : Char → Char, (∀ d < 16, digitValue? (spell (digit d)) = some d) ∧
        literal.toList = '0' :: 'x' :: (digits v.toNat).map spell := by
      obtain rfl | hliteral := List.mem_cons.1 hliteral
      · exact ⟨id, fun _ => digitValue?_digit, by simp [marked]⟩
      · obtain rfl := List.mem_singleton.1 hliteral
        exact ⟨Char.toUpper, fun _ => digitValue?_toUpper_digit, by simp [markedUpper]⟩
    obtain ⟨spell, hspell, hchars⟩ := hspelled
    have hmem := mem_hexLiterals (.inl rfl) hfront (by simpa using digits_ne_nil v.toNat)
      (fun _ => isDigit_of_mem_map_digits hspell) hback
    refine mem_operandValues.2 (.inr (.inr ⟨_, ?_, ofDigits?_map_digits hspell v.toNat⟩))
    rw [htext, String.toList_append, String.toList_append, hchars, List.append_assoc]
    exact hmem
  · obtain htarget | himmediate | ⟨digits, hdigits, hvalue⟩ := mem_operandValues.1 hv
    · exact .inl htarget
    · exact .inr (.inl himmediate)
    · exact .inr (.inr ⟨digits, isLiteral_of_mem hdigits, hvalue⟩)

/-- Behind a literal that fits no word and one that ends where another seems to start. -/
theorem operandValues_literals_apart :
    let front := "0x10000000000000000, 0x0x7, [x1, #"
    let literal := markedUpper (0xdeadbeef : UInt64).toNat
    let o := Operand.ofText (front ++ literal ++ "]!")
    literal = "0xDEADBEEF" ∧
      (∀ c ∈ front.toList.getLast?, isDigit c = false ∧ c ≠ 'x' ∧ c ≠ 'X') ∧
      (∀ c ∈ "]!".toList.head?, isDigit c = false) ∧ 0xdeadbeef ∈ operandValues o := by
  intro front literal o
  have hliteral : literal = "0xDEADBEEF" := by decide +kernel
  have hlast : front.toList.getLast? = some '#' := by decide +kernel
  have hfirst : "]!".toList.head? = some ']' := by decide +kernel
  have hfront : ∀ c ∈ front.toList.getLast?, isDigit c = false ∧ c ≠ 'x' ∧ c ≠ 'X' := by
    rw [hlast]
    rintro c ⟨⟩
    decide
  have hback : ∀ c ∈ "]!".toList.head?, isDigit c = false := by
    rw [hfirst]
    rintro c ⟨⟩
    decide
  obtain ⟨hfound, -⟩ := operandValues_literals o
  exact ⟨hliteral, hfront, hback,
    hfound 0xdeadbeef front "]!" literal (by simp [literal]) rfl hfront hback⟩

end ElfAtlas.XrefBuilder
