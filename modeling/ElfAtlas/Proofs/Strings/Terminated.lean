import ElfAtlas.Proofs.Strings.Acceptor

/-!
Which runs the automaton accepts: the rows of printable bytes that a NUL ends and that reach as far
back as they can. It accepts them in the order of their offsets.
-/

namespace ElfAtlas

namespace Run

/-- The run is a row of printable bytes of the data, long enough, with a NUL behind it and no printable
byte before it. -/
structure IsTerminated (data : List UInt8) (minLength : Nat) (r : Run) : Prop where
  long : max 1 minLength ≤ r.bytes.length
  printable : ∀ b ∈ r.bytes, isPrintable b = true
  placed : ∃ front rest, data = front ++ r.bytes ++ 0 :: rest ∧ front.length = r.offset ∧
    ∀ b ∈ front.getLast?, isPrintable b = false

/-- The automaton emits its candidate at each NUL where that is long enough. -/
theorem mem_accepted_iff {least : Nat} {c r : Run} {data : List UInt8} :
    r ∈ accepted least c data ↔
      ∃ before rest, data = before ++ 0 :: rest ∧ before.foldl extend c = r ∧
        least ≤ r.bytes.length := by
  induction data generalizing c with
  | nil => simp [accepted]
  | cons b data ih =>
      have hmem : r ∈ accepted least c (b :: data) ↔
          ((b = 0 ∧ least ≤ c.bytes.length) ∧ r = c) ∨ r ∈ accepted least (c.extend b) data := by
        rw [accepted]
        split <;> rename_i hc <;> simp [hc]
      rw [hmem, ih]
      constructor
      · rintro (⟨⟨rfl, hlong⟩, rfl⟩ | ⟨before, rest, rfl, hr, hlong⟩)
        · exact ⟨[], data, rfl, rfl, hlong⟩
        · exact ⟨b :: before, rest, rfl, hr, hlong⟩
      · rintro ⟨before, rest, hdata, hr, hlong⟩
        cases before with
        | nil =>
            obtain ⟨rfl, rfl⟩ := List.cons.inj hdata
            subst hr
            exact .inl ⟨⟨rfl, hlong⟩, rfl⟩
        | cons b' before =>
            obtain ⟨rfl, rfl⟩ := List.cons.inj hdata
            exact .inr ⟨before, rest, rfl, hr, hlong⟩

end Run

/-- What is found by looking back is printable, and no further printable byte precedes it. -/
theorem exists_eq_append_printableEnd (segment : List UInt8) :
    ∃ front, segment = front ++ printableEnd segment ∧
      (∀ b ∈ printableEnd segment, isPrintable b = true) ∧
      ∀ b ∈ front.getLast?, isPrintable b = false := by
  refine ⟨(segment.reverse.dropWhile isPrintable).reverse, ?_, ?_, ?_⟩
  · rw [printableEnd, ← List.reverse_append, List.takeWhile_append_dropWhile, List.reverse_reverse]
  · intro b hb
    exact List.mem_takeWhile_imp (List.mem_reverse.1 hb)
  · intro b hb
    have hhead := List.head?_dropWhile_not isPrintable segment.reverse
    rw [List.getLast?_reverse] at hb
    rw [Option.mem_def.1 hb] at hhead
    exact hhead

theorem printableEnd_append {front bytes : List UInt8} (hbytes : ∀ b ∈ bytes, isPrintable b = true)
    (hfront : ∀ b ∈ front.getLast?, isPrintable b = false) :
    printableEnd (front ++ bytes) = bytes := by
  have hstop : front.reverse.takeWhile isPrintable = [] := by
    rw [← List.head?_reverse] at hfront
    cases h : front.reverse with
    | nil => rfl
    | cons b rest =>
        rw [h] at hfront
        rw [List.takeWhile_cons, hfront b rfl]
        rfl
  rw [printableEnd, List.reverse_append, List.takeWhile_append_of_pos, hstop, List.append_nil,
    List.reverse_reverse]
  exact fun b hb => hbytes b (List.mem_reverse.1 hb)

namespace Run

variable {data : List UInt8} {minLength : Nat}

theorem mem_ofData_iff {r : Run} : r ∈ ofData data minLength ↔ IsTerminated data minLength r := by
  rw [ofData, mem_accepted_iff]
  constructor
  · rintro ⟨before, rest, rfl, rfl, hlong⟩
    obtain ⟨front, hbefore, hprintable, hlast⟩ := exists_eq_append_printableEnd before
    rw [foldl_extend] at hlong ⊢
    refine ⟨hlong, hprintable, front, rest, by rw [← hbefore], ?_, hlast⟩
    have hlength := congrArg List.length hbefore
    rw [List.length_append] at hlength
    show front.length = 0 + (before.length - (printableEnd before).length)
    omega
  · rintro ⟨hlong, hprintable, front, rest, rfl, hoffset, hlast⟩
    refine ⟨front ++ r.bytes, rest, rfl, ?_, hlong⟩
    rw [foldl_extend, printableEnd_append hprintable hlast, List.length_append, Nat.add_sub_cancel,
      Nat.zero_add, hoffset]

/-- The bytes of a terminated run stand at its offset, and a NUL stands behind them. -/
theorem IsTerminated.prefix_drop {r : Run} (h : r.IsTerminated data minLength) :
    r.bytes ++ [0] <+: data.drop r.offset := by
  obtain ⟨front, rest, rfl, hoffset, -⟩ := h.placed
  refine ⟨rest, ?_⟩
  rw [← hoffset, List.append_assoc front, List.drop_left, List.append_assoc]
  rfl

theorem IsTerminated.offset_lt {r : Run} (h : r.IsTerminated data minLength) :
    r.offset < data.length := by
  obtain ⟨front, rest, rfl, hoffset, -⟩ := h.placed
  simp only [List.length_append, List.length_cons]
  omega

theorem le_offset_of_mem_accepted {least : Nat} {c r : Run} {bytes : List UInt8}
    (h : r ∈ accepted least c bytes) : c.offset ≤ r.offset := by
  obtain ⟨before, -, -, rfl, -⟩ := mem_accepted_iff.1 h
  clear h
  induction before generalizing c with
  | nil => exact Nat.le_refl _
  | cons b before ih =>
      refine Nat.le_trans ?_ (ih (c := c.extend b))
      rw [extend]
      split
      · exact Nat.le_refl _
      · show c.offset ≤ c.offset + c.bytes.length + 1
        omega

theorem pairwise_accepted (least : Nat) (c : Run) (bytes : List UInt8) :
    (accepted least c bytes).Pairwise (·.offset < ·.offset) := by
  induction bytes generalizing c with
  | nil => exact .nil
  | cons b bytes ih =>
      rw [accepted]
      split
      · rename_i hnul
        refine List.pairwise_cons.2 ⟨fun r hr => ?_, ih _⟩
        rw [hnul.1, extend_of_not_printable (by decide)] at hr
        have hle : c.offset + c.bytes.length + 1 ≤ r.offset := le_offset_of_mem_accepted hr
        show c.offset < r.offset
        omega
      · exact ih _

end Run

end ElfAtlas
