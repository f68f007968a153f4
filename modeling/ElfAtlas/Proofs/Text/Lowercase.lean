import ElfAtlas.Text.Lowercase

/-!
Lower-casing a part of a text. A character is lowered by itself, but a capital sigma looks at both sides:
it becomes a final sigma where a word ends. So a part of a text is lowered there as it is by itself exactly
if its capital sigmas end words there where they do in the part.
-/

namespace ElfAtlas.LetterCase

/-- A capital sigma between these characters ends a word. Those before it are given last first. -/
def endsWord (before after : List Char) : Bool := meetsCased before && !meetsCased after

def lowerAt (before : List Char) (c : Char) (after : List Char) : List Char :=
  if c = capitalSigma then [if endsWord before after then finalSigma else smallSigma]
  else if c = dottedCapitalI then ['i', Char.ofNat 0x307]
  else [lowerChar c]

theorem lowerFrom_cons (before : List Char) (c : Char) (rest : List Char) :
    lowerFrom before (c :: rest) = lowerAt before c rest ++ lowerFrom (c :: before) rest := rfl

def lowerWithin (before cs after : List Char) : List Char :=
  match cs with
  | [] => []
  | c :: rest => lowerAt before c (rest ++ after) ++ lowerWithin (c :: before) rest after

theorem lowerFrom_append (before cs after : List Char) :
    lowerFrom before (cs ++ after) =
      lowerWithin before cs after ++ lowerFrom (cs.reverse ++ before) after := by
  induction cs generalizing before with
  | nil => rfl
  | cons c rest ih =>
      rw [List.cons_append, lowerFrom_cons, ih, lowerWithin, List.append_assoc, List.reverse_cons,
        List.append_assoc, List.singleton_append]

theorem lower_append_append (front part back : List Char) :
    lower (front ++ part ++ back) =
      lowerWithin [] front (part ++ back) ++ lowerWithin front.reverse part back
        ++ lowerFrom (part.reverse ++ front.reverse) back := by
  rw [lower, List.append_assoc, lowerFrom_append, lowerFrom_append, List.append_nil,
    List.append_assoc]

theorem length_lowerAt (before before' after after' : List Char) (c : Char) :
    (lowerAt before c after).length = (lowerAt before' c after').length := by
  simp only [lowerAt]
  split
  · rfl
  · split <;> rfl

/-- Only a capital sigma is lowered in more than one way. -/
theorem lowerAt_eq_iff {before before' after after' : List Char} {c : Char} :
    lowerAt before c after = lowerAt before' c after' ↔
      (c = capitalSigma → endsWord before after = endsWord before' after') := by
  have hsigma : finalSigma ≠ smallSigma := by decide
  by_cases hc : c = capitalSigma
  · cases hends : endsWord before after <;> cases hends' : endsWord before' after' <;>
      simp [lowerAt, hc, hends, hends', hsigma, hsigma.symm]
  · simp [lowerAt, hc]

/-- Every capital sigma of the part ends a word between `front` and `back` exactly if it ends one in the
part by itself. -/
def KeepsWordEnds (front part back : List Char) : Prop :=
  ∀ x y, part = x ++ capitalSigma :: y →
    endsWord (x.reverse ++ front.reverse) (y ++ back) = endsWord x.reverse y

theorem keepsWordEnds_of_not_mem {part : List Char} (h : capitalSigma ∉ part) (front back : List Char) :
    KeepsWordEnds front part back := by
  rintro x y rfl
  exact absurd (by simp) h

theorem lowerWithin_eq_lowerFrom_iff {before before' cs after : List Char} :
    lowerWithin before cs after = lowerFrom before' cs ↔
      ∀ x y, cs = x ++ capitalSigma :: y →
        endsWord (x.reverse ++ before) (y ++ after) = endsWord (x.reverse ++ before') y := by
  induction cs generalizing before before' with
  | nil => simp [lowerWithin, lowerFrom]
  | cons c rest ih =>
      rw [lowerWithin, lowerFrom_cons]
      constructor
      · intro hlower x y hxy
        obtain ⟨hat, hwithin⟩ := List.append_inj hlower (length_lowerAt ..)
        have hc := lowerAt_eq_iff.1 hat
        have hrest := ih.1 hwithin
        obtain ⟨rfl, heq⟩ | ⟨x, rfl, rfl⟩ := List.cons_eq_append_iff.1 hxy
        · obtain ⟨rfl, rfl⟩ := List.cons.inj heq
          exact hc rfl
        · simpa using hrest x y rfl
      · intro h
        have hat : lowerAt before c (rest ++ after) = lowerAt before' c rest := by
          refine lowerAt_eq_iff.2 ?_
          rintro rfl
          exact h [] rest rfl
        have hwithin : lowerWithin (c :: before) rest after = lowerFrom (c :: before') rest := by
          refine ih.2 ?_
          rintro x y rfl
          simpa using h (c :: x) y rfl
        rw [hat, hwithin]

/-- A part of a text is lowered there as it is by itself if its word ends are kept, and only then. -/
theorem lowerWithin_eq_lower_iff {front part back : List Char} :
    lowerWithin front.reverse part back = lower part ↔ KeepsWordEnds front part back := by
  rw [lower, lowerWithin_eq_lowerFrom_iff]
  simp only [KeepsWordEnds, List.append_nil]

theorem KeepsWordEnds.lower_infix {front part back : List Char} (h : KeepsWordEnds front part back) :
    lower part <:+: lower (front ++ part ++ back) := by
  rw [lower_append_append, lowerWithin_eq_lower_iff.2 h]
  exact List.infix_append ..

end ElfAtlas.LetterCase
