/-!
How far a test holds in a text. Behind a text that does not start with a character of the test, nothing
is added to what the test takes from the text before it.
-/

namespace ElfAtlas

variable {p : Char → Bool} {back : List Char} (hback : ∀ c ∈ back.head?, p c = false)

include hback

theorem takeWhile_append_of_head (front : List Char) :
    (front ++ back).takeWhile p = front.takeWhile p := by
  induction front with
  | nil =>
      cases back with
      | nil => rfl
      | cons c back => simp [hback c rfl]
  | cons c front ih => simp only [List.cons_append, List.takeWhile_cons, ih]

theorem dropWhile_append_of_head (front : List Char) :
    (front ++ back).dropWhile p = front.dropWhile p ++ back := by
  induction front with
  | nil =>
      cases back with
      | nil => rfl
      | cons c back => simp [hback c rfl]
  | cons c front ih =>
      simp only [List.cons_append, List.dropWhile_cons, ih]
      split <;> rfl

/-- All of the front is taken where all of it passes the test. -/
theorem takeWhile_append_of_all {front : List Char} (hfront : ∀ c ∈ front, p c = true) :
    (front ++ back).takeWhile p = front := by
  have hnil : back.takeWhile p = [] := takeWhile_append_of_head hback []
  rw [List.takeWhile_append_of_pos hfront, hnil, List.append_nil]

theorem dropWhile_append_of_all {front : List Char} (hfront : ∀ c ∈ front, p c = true) :
    (front ++ back).dropWhile p = back := by
  have hself : back.dropWhile p = back := dropWhile_append_of_head hback []
  rw [List.dropWhile_append_of_pos hfront, hself]

end ElfAtlas
