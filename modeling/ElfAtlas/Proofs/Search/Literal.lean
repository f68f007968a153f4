import ElfAtlas.Proofs.Search.Listing
import ElfAtlas.Proofs.Text.Lowercase

/-!
Search for a text that stands letter for letter in what is searched. Query and text are lowered apart, so
it is found for certain only where the capital sigmas of the query end the same words in the text. A query
without them is always found.
-/

namespace ElfAtlas

namespace Needle

theorem occurs_iff {piece text : List Char} : occurs piece text = true ↔ piece <:+: text := by
  induction text with
  | nil => rw [occurs, List.isEmpty_iff, List.infix_nil]
  | cons c rest ih =>
      rw [occurs, Bool.or_eq_true, List.isPrefixOf_iff_prefix, ih, List.infix_cons_iff]

theorem chars_of_ofQuery? {query : String} {n : Needle} (h : ofQuery? query = some n) :
    n.chars = LetterCase.lower (Blank.trim query.toList) ∧ Blank.trim query.toList ≠ [] := by
  rw [ofQuery?] at h
  split at h
  · cases h
  · rename_i hempty
    cases h
    exact ⟨rfl, by simpa using hempty⟩

end Needle

open LetterCase

namespace SearchMatch

def ofMnemonic (i : Instruction) : SearchMatch :=
  { category := .instruction, address := some i.address, offset := none, text := i.mnemonic,
    context := i.text }

def ofOperands (i : Instruction) : SearchMatch :=
  { category := .operand, address := some i.address, offset := none, text := i.operandText,
    context := i.text }

end SearchMatch

namespace Analysis

open SearchMatch

variable {σ δ : Type}

/-- A text with the query in it, letter for letter, matches if the capital sigmas of the query end the same
words in the text. What carries the text is found by every filter that wants it: a named symbol with this
name or readable name, a string, and an instruction within the settings' bound. A search in code is one
whose walk does not overflow. -/
theorem search_finds_literal {query : String} {n : Needle} (hn : Needle.ofQuery? query = some n)
    {text : String} {front back : List Char}
    (htext : text.toList = front ++ Blank.trim query.toList ++ back)
    (hends : capitalSigma ∈ Blank.trim query.toList →
      KeepsWordEnds front (Blank.trim query.toList) back) :
    n.isIn text = true ∧
      ∀ (e : Engine σ δ) (a : Analysis) (f : SearchFilter) (shared : σ),
        (f.wantsCode = true → a.overflows e shared = false) →
        ∃ listed, ((a.withMaxResults none).search e query f shared).1 = some listed ∧
          (f.wants .symbol = true → ∀ s ∈ a.symbols,
            s.name = text ∨ s.name ≠ "" ∧ s.demangled = some text → ofSymbol s ∈ listed) ∧
          (f.wants .string = true → ∀ s ∈ a.strings, s.content = text → ofString s ∈ listed) ∧
          ∀ i ∈ (a.instructions e shared).take a.config.search.maxInstructions.toNat,
            i.isBad = false →
              (f.wants .instruction = true → i.mnemonic = text → ofMnemonic i ∈ listed) ∧
              (f.wants .operand = true → i.operandText = text → ofOperands i ∈ listed) := by
  obtain ⟨hchars, hquery⟩ := Needle.chars_of_ofQuery? hn
  replace hends : KeepsWordEnds front (Blank.trim query.toList) back := by
    by_cases hsigma : capitalSigma ∈ Blank.trim query.toList
    · exact hends hsigma
    · exact keepsWordEnds_of_not_mem hsigma front back
  have hisIn : n.isIn text = true := by
    rw [Needle.isIn, Needle.occurs_iff, hchars, htext]
    exact hends.lower_infix
  have hnonempty : text ≠ "" := by
    rintro rfl
    simp [hquery] at htext
  refine ⟨hisIn, fun e a f shared hwalk =>
    ⟨_, search_eq_some_of_not_overflows e a query f shared hwalk, ?_⟩⟩
  simp only [mem_sort, found, hn, List.mem_append, List.mem_flatMap]
  refine ⟨fun hf s hs hcarries => .inl ?_, fun hf s hs hcarries => .inl ?_,
    fun i hi hbad => ⟨fun hf hcarries => .inr ⟨i, hi, ?_⟩, fun hf hcarries => .inr ⟨i, hi, ?_⟩⟩⟩
  · rw [inTables, if_pos hf]
    refine List.mem_append_left _ (List.mem_map.2 ⟨s, List.mem_filter.2 ⟨hs, ?_⟩, rfl⟩)
    obtain rfl | ⟨hname, hcarries⟩ := hcarries
    · simp [hnonempty, hisIn]
    · simp [hname, hcarries, hisIn]
  · rw [inTables, if_pos hf]
    refine List.mem_append_right _ (List.mem_map.2 ⟨s, List.mem_filter.2 ⟨hs, ?_⟩, rfl⟩)
    rw [hcarries, hisIn]
  · simp [inInstruction, hbad, hf, hcarries, hisIn, ofMnemonic]
  · simp [inInstruction, hbad, hf, hcarries, hisIn, ofOperands]

/-- The sigma ends a word in the query and in the name. -/
theorem search_finds_literal_word :
    let s : Symbol :=
      { name := "ΟΔΟΣ_ΜΟΥ", demangled := none, value := 0x1000, size := 8, kind := .func,
        binding := .globalScope, visibility := .default, sectionIndex := 1, origin := .staticTable,
        index := 1, tableSection := 2 }
    let a := ofCode 183 {} 0x1000 [s] [0, 0, 0, 0]
    let e := PlainEngine.words "word" fun _ => true
    ∃ n listed, Needle.ofQuery? "ΟΔΟΣ" = some n ∧ n.isIn "ΟΔΟΣ_ΜΟΥ" = true ∧
      ((a.withMaxResults none).search e "ΟΔΟΣ" .symbols none).1 = some listed ∧
      ofSymbol s ∈ listed := by
  intro s a e
  have hn : Needle.ofQuery? "ΟΔΟΣ" = some ⟨['ο', 'δ', 'ο', 'ς']⟩ := by decide +kernel
  have htext : "ΟΔΟΣ_ΜΟΥ".toList = [] ++ Blank.trim "ΟΔΟΣ".toList ++ ['_', 'Μ', 'Ο', 'Υ'] := by
    decide +kernel
  have hends : KeepsWordEnds [] (Blank.trim "ΟΔΟΣ".toList) ['_', 'Μ', 'Ο', 'Υ'] :=
    lowerWithin_eq_lower_iff.1 (by decide +kernel)
  obtain ⟨hisIn, hlists⟩ := search_finds_literal hn htext fun _ => hends
  obtain ⟨listed, hlisted, hsymbols, -⟩ := hlists e a .symbols none (by decide)
  exact ⟨_, listed, hn, hisIn, hlisted, hsymbols rfl s List.mem_cons_self (.inl rfl)⟩

/-- The sigma that ends the query stands inside a word of the name, and the symbol is not found. -/
theorem search_misses_literal :
    let s : Symbol :=
      { name := "ΟΔΟΣΗΜΑ", demangled := none, value := 0x1000, size := 8, kind := .func,
        binding := .globalScope, visibility := .default, sectionIndex := 1, origin := .staticTable,
        index := 1, tableSection := 2 }
    let a := ofCode 183 {} 0x1000 [s] [0, 0, 0, 0]
    let e := PlainEngine.words "word" fun _ => true
    ∃ n, Needle.ofQuery? "ΟΔΟΣ" = some n ∧ Blank.trim "ΟΔΟΣ".toList <:+: s.name.toList ∧
      n.isIn s.name = false ∧
      ((a.withMaxResults none).search e "ΟΔΟΣ" .symbols none).1 = some [] := by
  intro s a e
  have hn : Needle.ofQuery? "ΟΔΟΣ" = some ⟨['ο', 'δ', 'ο', 'ς']⟩ := by decide +kernel
  have hfound : a.found e "ΟΔΟΣ" .symbols none = [] := by decide +kernel
  have hsearch := search_eq_some_of_not_overflows e a "ΟΔΟΣ" .symbols none (by decide)
  rw [hfound] at hsearch
  exact ⟨_, hn, by decide +kernel, by decide +kernel,
    hsearch.trans (congrArg some List.mergeSort_nil)⟩

end Analysis

end ElfAtlas
