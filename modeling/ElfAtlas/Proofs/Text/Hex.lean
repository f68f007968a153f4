import ElfAtlas.Text.Hex

/-!
Hexadecimal digits are read back as the number that they write, in either letter case.
-/

namespace ElfAtlas.Hex

theorem digitValue?_digit {n : Nat} (h : n < 16) : digitValue? (digit n) = some n := by
  revert n
  decide

theorem digitValue?_toUpper_digit {n : Nat} (h : n < 16) : digitValue? (digit n).toUpper = some n := by
  revert n
  decide

def markedUpper (n : Nat) : String := "0x" ++ String.ofList ((digits n).map Char.toUpper)

theorem ofDigits?_append_singleton (cs : List Char) (c : Char) :
    ofDigits? (cs ++ [c]) = (ofDigits? cs).bind fun n => (digitValue? c).map (16 * n + ·) := by
  rw [ofDigits?, List.foldlM_append]
  cases h : List.foldlM (fun n c => (digitValue? c).map (16 * n + ·)) 0 cs <;> simp [ofDigits?, h]

/-- Digits are read back as the number that they write, however each digit is spelled. -/
theorem ofDigits?_map_digits {spell : Char → Char}
    (hspell : ∀ d < 16, digitValue? (spell (digit d)) = some d) (n : Nat) :
    ofDigits? ((digits n).map spell) = some n := by
  induction n using digits.induct with
  | case1 n h =>
      rw [digits, if_pos h]
      simp [ofDigits?, hspell n h]
  | case2 n h ih =>
      rw [digits, if_neg h, List.map_append, List.map_singleton, ofDigits?_append_singleton, ih,
        Option.bind_some, hspell _ (by omega), Option.map_some, Nat.div_add_mod]

theorem isDigit_of_mem_map_digits {spell : Char → Char}
    (hspell : ∀ d < 16, digitValue? (spell (digit d)) = some d) {n : Nat} {c : Char}
    (hc : c ∈ (digits n).map spell) : isDigit c = true := by
  induction n using digits.induct with
  | case1 n h =>
      rw [digits, if_pos h, List.map_singleton, List.mem_singleton] at hc
      rw [hc, isDigit, hspell n h]
      rfl
  | case2 n h ih =>
      rw [digits, if_neg h, List.map_append, List.mem_append] at hc
      obtain hc | hc := hc
      · exact ih hc
      · rw [List.map_singleton, List.mem_singleton] at hc
        rw [hc, isDigit, hspell _ (by omega)]
        rfl

theorem digits_ne_nil (n : Nat) : digits n ≠ [] := by
  rw [digits]
  split <;> simp

end ElfAtlas.Hex
