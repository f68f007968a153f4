import ElfAtlas.Json.Print
import ElfAtlas.Json.Token
import ElfAtlas.Proofs.Text.Hex
import ElfAtlas.Proofs.Text.Span

/-!
What is written is cut into the tokens that were meant: a string with its escapes into one text, a
number into one literal, and the line ends and blanks between them into nothing.
-/

namespace ElfAtlas

namespace Hex

theorem ofDigits?_byte {n : Nat} (h : n < 256) :
    ofDigits? ['0', '0', digit (n / 16), digit (n % 16)] = some n := by
  have hhigh := digitValue?_digit (n := n / 16) (by omega)
  have hlow := digitValue?_digit (n := n % 16) (by omega)
  have hzero : digitValue? '0' = some 0 := by decide
  simpa [ofDigits?, hhigh, hlow, hzero] using Nat.div_add_mod n 16

theorem digit_is_plain {n : Nat} (h : n < 16) :
    digit n ≠ '"' ∧ digit n ≠ '\\' ∧ ¬(digit n).toNat < 0x20 := by
  revert n
  decide

end Hex

namespace Json

/-! ### Strings -/

/-- A character is written as a one-letter escape, as the code of a control character, or as itself. -/
theorem escapeChar_cases (c : Char) :
    (∃ e, escapeChar c = ['\\', e] ∧ escaped? e = some c) ∨
      (c.toNat < 0x20 ∧
        escapeChar c = ['\\', 'u', '0', '0', Hex.digit (c.toNat / 16), Hex.digit (c.toNat % 16)]) ∨
      (escapeChar c = [c] ∧ c ≠ '"' ∧ c ≠ '\\' ∧ ¬c.toNat < 0x20) := by
  by_cases hletter : c ∈ ['"', '\\', '\x08', '\x0c', '\n', '\r', '\t']
  · simp only [List.mem_cons, List.not_mem_nil, or_false] at hletter
    left
    rcases hletter with rfl | rfl | rfl | rfl | rfl | rfl | rfl <;> exact ⟨_, rfl, rfl⟩
  · simp only [List.mem_cons, List.not_mem_nil, or_false, not_or] at hletter
    obtain ⟨hquote, hslash, hothers⟩ := hletter
    right
    by_cases hcontrol : c.toNat < 0x20
    · exact .inl ⟨hcontrol, by simp [escapeChar, hquote, hslash, hothers, hcontrol]⟩
    · exact .inr ⟨by simp [escapeChar, hquote, hslash, hothers, hcontrol], hquote, hslash, hcontrol⟩

theorem textBody_escapeChar (c : Char) (rest : List Char) :
    textBody (escapeChar c ++ rest)
      = (textBody rest).map fun (body, rest) => (escapeChar c ++ body, rest) := by
  obtain ⟨e, he, _⟩ | ⟨hcontrol, he⟩ | ⟨he, hquote, hslash, hcontrol⟩ := escapeChar_cases c
  · rw [he]
    rfl
  · obtain ⟨hhigh, hhigh', hhigh''⟩ := Hex.digit_is_plain (n := c.toNat / 16) (by omega)
    obtain ⟨hlow, hlow', hlow''⟩ := Hex.digit_is_plain (n := c.toNat % 16) (by omega)
    rw [he]
    cases h : textBody rest <;> simp [textBody, *]
  · rw [he]
    simp [textBody, *]

theorem unescape_escapeChar (c : Char) (rest : List Char) :
    unescape (escapeChar c ++ rest) = (unescape rest).map (some c :: ·) := by
  obtain ⟨e, he, hc⟩ | ⟨hcontrol, he⟩ | ⟨he, hquote, hslash, hcontrol⟩ := escapeChar_cases c
  · have hu : e ≠ 'u' := by
      rintro rfl
      cases hc
    rw [he]
    cases h : unescape rest <;> simp [unescape, hc, hu, h]
  · have hunit := Hex.ofDigits?_byte (n := c.toNat) (by omega)
    have hhigh : isHighSurrogate c.toNat = false := by simp [isHighSurrogate]; omega
    have hlow : isLowSurrogate c.toNat = false := by simp [isLowSurrogate]; omega
    rw [he]
    cases h : unescape rest <;> simp [unescape, unit?, hunit, hhigh, hlow, h]
  · rw [he]
    cases h : unescape rest <;> simp [unescape, hslash, h]

theorem textBody_flatMap_escapeChar (cs rest : List Char) :
    textBody (cs.flatMap escapeChar ++ '"' :: rest) = some (cs.flatMap escapeChar, rest) := by
  induction cs with
  | nil => rfl
  | cons c cs ih =>
    rw [List.flatMap_cons, List.append_assoc, textBody_escapeChar, ih]
    rfl

theorem unescape_flatMap_escapeChar (cs : List Char) :
    unescape (cs.flatMap escapeChar) = some (cs.map some) := by
  induction cs with
  | nil => rfl
  | cons c cs ih =>
    rw [List.flatMap_cons, unescape_escapeChar, ih]
    rfl

theorem tokens_quote (s : String) (rest : List Char) :
    tokens (quote s ++ rest) = (tokens rest).map (.text (some s) :: ·) := by
  have hbody := textBody_flatMap_escapeChar s.toList rest
  have hcontent : content? (s.toList.flatMap escapeChar) = some (some s) := by
    rw [content?, unescape_flatMap_escapeChar]
    simp
  rw [quote, List.cons_append, List.cons_append, List.append_assoc, List.singleton_append, tokens]
  split
  · next body rest' h =>
    obtain ⟨rfl, rfl⟩ : _ = body ∧ _ = rest' := by simpa using hbody.symm.trans h
    rw [hcontent]
  · next h => exact absurd (hbody.symm.trans h) (by simp)

/-! ### Numbers -/

def EndsNumber (rest : List Char) : Prop := ∀ c ∈ rest.head?, isNumberChar c = false

theorem isNumberChar_of_isDigit {c : Char} (h : c.isDigit) : isNumberChar c := by
  simp [isNumberChar, h]

theorem isNumberChar_of_isDigits {cs : List Char} (h : isDigits cs) : ∀ c ∈ cs, isNumberChar c := by
  simp only [isDigits, Bool.and_eq_true, List.all_eq_true] at h
  exact fun c hc => isNumberChar_of_isDigit (h.2 c hc)

theorem isNumberChar_of_isExponent {cs : List Char} (h : isExponent cs) :
    ∀ c ∈ cs, isNumberChar c := by
  have hmark {e : Char} (h : (e = 'e' || e = 'E') = true) : isNumberChar e := by
    simp only [Bool.or_eq_true, decide_eq_true_eq] at h
    rcases h with rfl | rfl <;> rfl
  have hplus : isNumberChar '+' := rfl
  have hminus : isNumberChar '-' := rfl
  unfold isExponent at h
  split at h
  · simp
  all_goals
    rw [Bool.and_eq_true] at h
    simpa [hmark h.1, hplus, hminus] using isNumberChar_of_isDigits h.2

theorem isNumberChar_of_dropWhile_isDigit {p : List Char → Bool} {cs : List Char}
    (hp : ∀ cs, p cs → ∀ c ∈ cs, isNumberChar c) (h : p (cs.dropWhile Char.isDigit)) :
    ∀ c ∈ cs, isNumberChar c := by
  rw [← List.takeWhile_append_dropWhile (p := Char.isDigit) (l := cs)]
  intro c hc
  rcases List.mem_append.1 hc with hc | hc
  · exact isNumberChar_of_isDigit (List.all_eq_true.1 List.all_takeWhile c hc)
  · exact hp _ h c hc

theorem isNumberChar_of_isFraction {cs : List Char} (h : isFraction cs) :
    ∀ c ∈ cs, isNumberChar c := by
  unfold isFraction at h
  split at h
  · next cs =>
    rw [Bool.and_eq_true] at h
    have := isNumberChar_of_dropWhile_isDigit @isNumberChar_of_isExponent h.2
    simpa [show isNumberChar '.' from rfl]
  · exact isNumberChar_of_isExponent h

theorem isNumberChar_of_isUnsigned {cs : List Char} (h : isUnsigned cs) :
    ∀ c ∈ cs, isNumberChar c := by
  unfold isUnsigned at h
  split at h
  · have := isNumberChar_of_isFraction h
    simpa [show isNumberChar '0' from rfl]
  · rw [Bool.and_eq_true] at h
    exact isNumberChar_of_dropWhile_isDigit @isNumberChar_of_isFraction h.2

theorem isNumberChar_of_isNumber {cs : List Char} (h : isNumber cs) : ∀ c ∈ cs, isNumberChar c := by
  unfold isNumber at h
  split at h
  · have := isNumberChar_of_isUnsigned h
    simpa [show isNumberChar '-' from rfl]
  · exact isNumberChar_of_isUnsigned h

/-- A number starts with its sign or with a digit. -/
theorem exists_eq_cons_of_isNumber {cs : List Char} (h : isNumber cs) :
    ∃ c rest, cs = c :: rest ∧ (c = '-' ∨ c.isDigit) := by
  unfold isNumber at h
  split at h
  · exact ⟨'-', _, rfl, .inl rfl⟩
  unfold isUnsigned at h
  split at h
  · exact ⟨'0', _, rfl, .inr rfl⟩
  cases cs with
  | nil => exact absurd h (by decide)
  | cons c rest =>
    refine ⟨c, rest, rfl, .inr ?_⟩
    cases hc : c.isDigit
    · simp [isDigits, hc] at h
    · rfl

theorem isBlank_eq_false_of_starts {c : Char} (h : c = '-' ∨ c.isDigit) : isBlank c = false := by
  cases hblank : isBlank c with
  | false => rfl
  | true =>
    simp only [isBlank, Bool.or_eq_true, decide_eq_true_eq] at hblank
    rcases hblank with ((rfl | rfl) | rfl) | rfl <;> exact absurd h (by decide)

theorem EndsNumber.takeWhile_append {cs rest : List Char} (hrest : EndsNumber rest)
    (h : ∀ c ∈ cs, isNumberChar c) : (cs ++ rest).takeWhile isNumberChar = cs :=
  takeWhile_append_of_all hrest h

theorem EndsNumber.dropWhile_append {cs rest : List Char} (hrest : EndsNumber rest)
    (h : ∀ c ∈ cs, isNumberChar c) : (cs ++ rest).dropWhile isNumberChar = rest :=
  dropWhile_append_of_all hrest h

theorem tokens_literal {cs rest : List Char} (h : isNumber cs) (hrest : EndsNumber rest) :
    tokens (cs ++ rest) = (tokens rest).map (.number (String.ofList cs) :: ·) := by
  have hchars := isNumberChar_of_isNumber h
  obtain ⟨c, cs, rfl, hc⟩ := exists_eq_cons_of_isNumber h
  have htail : ∀ c ∈ cs, isNumberChar c := fun d hd => hchars d (List.mem_cons_of_mem c hd)
  rw [List.cons_append, tokens]
  · rw [hrest.takeWhile_append htail, hrest.dropWhile_append htail, isBlank_eq_false_of_starts hc]
    simp [h]
  all_goals
    intros
    subst_vars
    exact absurd hc (by decide)

/-! ### Line ends and blanks -/

theorem tokens_blank (rest : List Char) : tokens (' ' :: rest) = tokens rest := by
  rw [tokens] <;> simp [isBlank]

theorem tokens_newline (level : Nat) (rest : List Char) :
    tokens (newline level ++ rest) = tokens rest := by
  have hblanks (n : Nat) : tokens (List.replicate n ' ' ++ rest) = tokens rest := by
    induction n with
    | zero => rfl
    | succ n ih => rw [List.replicate_succ, List.cons_append, tokens_blank, ih]
  rw [newline, List.cons_append, tokens, hblanks] <;> simp [isBlank]

end Json

end ElfAtlas
