import ElfAtlas.Analysis.Session
import ElfAtlas.Proofs.Analysis.CappedWalk
import ElfAtlas.Proofs.Analysis.WalkHalt
import ElfAtlas.Proofs.Order.StableSort

/-!
What a search lists. A filter selects from what is found without one, and sorting keeps the selection, so
the list of all matches is made of the lists of the four categories. A bound on the number of matches cuts
the list off; which instructions are looked at depends on neither the filter nor the matches.
-/

namespace ElfAtlas

@[simp] theorem SearchFilter.wants_all (c : MatchCategory) : SearchFilter.all.wants c = true := rfl

namespace SearchMatch

/-- The order within a category: by address, then by file position. What is absent comes first. -/
def PlaceLe (x y : SearchMatch) : Prop :=
  x.address < y.address ∨ x.address = y.address ∧ x.offset ≤ y.offset

theorem optionKey_lt_iff {x y : Option UInt64} : optionKey x < optionKey y ↔ x < y := by
  cases x <;> cases y <;> simp [optionKey, UInt64.lt_iff_toNat_lt]

theorem optionKey_le_iff {x y : Option UInt64} : optionKey x ≤ optionKey y ↔ x ≤ y := by
  cases x <;> cases y <;> simp [optionKey, UInt64.le_iff_toNat_le]

theorem optionKey_inj {x y : Option UInt64} : optionKey x = optionKey y ↔ x = y := by
  cases x <;> cases y <;> simp [optionKey, ← UInt64.toNat_inj]

theorem placeLe_iff {x y : SearchMatch} :
    x.PlaceLe y ↔ optionKey x.address < optionKey y.address ∨
      optionKey x.address = optionKey y.address ∧ optionKey x.offset ≤ optionKey y.offset := by
  rw [PlaceLe, optionKey_lt_iff, optionKey_inj, optionKey_le_iff]

theorem le_iff {x y : SearchMatch} :
    le x y = true ↔ x.category.rank < y.category.rank ∨
      x.category.rank = y.category.rank ∧ x.PlaceLe y := by
  rw [placeLe_iff, le, key, key]
  simp only [keyLe, Bool.or_eq_true, Bool.and_eq_true, decide_eq_true_eq, and_true,
    ← Nat.le_iff_lt_or_eq]

theorem isTotalPreorder_le : IsTotalPreorder le where
  trans x y z hxy hyz := by
    rw [le_iff, placeLe_iff] at hxy hyz ⊢
    omega
  total x y := by
    rw [Bool.or_eq_true, le_iff, le_iff, placeLe_iff, placeLe_iff]
    omega

theorem mem_sort {m : SearchMatch} {found : List SearchMatch} : m ∈ sort found ↔ m ∈ found :=
  List.mem_mergeSort

/-- The matches that are found in one category, as a list: in the order of their places, and as they were
found where their places are the same. -/
structure IsListing (found listed : List SearchMatch) : Prop where
  ordered : listed.Pairwise PlaceLe
  ties : ∀ address offset,
    listed.filter (fun m => m.address = address ∧ m.offset = offset) =
      found.filter (fun m => m.address = address ∧ m.offset = offset)

theorem isListing_sort {found : List SearchMatch} {c : MatchCategory}
    (h : ∀ m ∈ found, m.category = c) : IsListing found (sort found) where
  ordered := by
    have hsorted := List.pairwise_mergeSort isTotalPreorder_le.trans isTotalPreorder_le.total found
    refine hsorted.imp_of_mem fun {x y} hx hy hxy => ?_
    rw [mem_sort] at hx hy
    rw [le_iff, h x hx, h y hy] at hxy
    obtain hless | ⟨-, hplace⟩ := hxy
    · exact absurd hless (Nat.lt_irrefl _)
    · exact hplace
  ties address offset := by
    rw [sort, isTotalPreorder_le.filter_mergeSort]
    refine List.mergeSort_of_pairwise (List.pairwise_of_forall_mem_list fun x hx y hy => ?_)
    simp only [List.mem_filter, decide_eq_true_eq] at hx hy
    obtain ⟨hx, haddress, hoffset⟩ := hx
    obtain ⟨hy, rfl, rfl⟩ := hy
    rw [le_iff, placeLe_iff, h x hx, h y hy, haddress, hoffset]
    omega

def ofCategory (c : MatchCategory) (ms : List SearchMatch) : List SearchMatch :=
  ms.filter (·.category = c)

theorem ofCategory_cons (c : MatchCategory) (m : SearchMatch) (ms : List SearchMatch) :
    ofCategory c (m :: ms) = if m.category = c then m :: ofCategory c ms else ofCategory c ms := by
  simp only [ofCategory, List.filter_cons, decide_eq_true_eq]

/-- A list in which the categories stand in order is made of its categories. -/
theorem ofCategory_append {ms : List SearchMatch}
    (h : ms.Pairwise fun x y => x.category.rank ≤ y.category.rank) :
    ofCategory .symbol ms ++ ofCategory .string ms ++ ofCategory .instruction ms
      ++ ofCategory .operand ms = ms := by
  induction ms with
  | nil => rfl
  | cons m ms ih =>
      obtain ⟨hm, hms⟩ := List.pairwise_cons.1 h
      have hnone (c : MatchCategory) (hc : c.rank < m.category.rank) : ofCategory c ms = [] := by
        rw [ofCategory, List.filter_eq_nil_iff]
        intro x hx hxc
        have := hm x hx
        rw [of_decide_eq_true hxc] at this
        omega
      have hrest := congrArg (m :: ·) (ih hms)
      simp only [ofCategory_cons]
      cases hcategory : m.category with
      | symbol => simpa using hrest
      | string =>
          rw [hcategory] at hnone
          simpa [hnone .symbol (by decide)] using hrest
      | instruction =>
          rw [hcategory] at hnone
          simpa [hnone .symbol (by decide), hnone .string (by decide)] using hrest
      | operand =>
          rw [hcategory] at hnone
          simpa [hnone .symbol (by decide), hnone .string (by decide), hnone .instruction (by decide)]
            using hrest

/-- What a filter selects from matches of one category: all of them or none. -/
theorem filter_wants {c : MatchCategory} {ms : List SearchMatch} (h : ∀ m ∈ ms, m.category = c)
    (f : SearchFilter) : ms.filter (f.wants ·.category) = if f.wants c then ms else [] := by
  split
  · rename_i hwants
    exact List.filter_eq_self.2 fun m hm => by rw [h m hm, hwants]
  · rename_i hwants
    exact List.filter_eq_nil_iff.2 fun m hm => by rwa [h m hm]

theorem category_of_mem_inSymbols {symbols : List Symbol} {n : Needle} :
    ∀ m ∈ inSymbols symbols n, m.category = .symbol := by
  intro m hm
  obtain ⟨s, -, rfl⟩ := List.mem_map.1 hm
  rfl

theorem category_of_mem_inStrings {strings : List ExtractedString} {n : Needle} :
    ∀ m ∈ inStrings strings n, m.category = .string := by
  intro m hm
  obtain ⟨s, -, rfl⟩ := List.mem_map.1 hm
  rfl

variable (symbols : List Symbol) (strings : List ExtractedString) (n : Needle) (f : SearchFilter)

theorem inTables_eq_filter :
    inTables symbols strings n f = (inTables symbols strings n .all).filter (f.wants ·.category) := by
  rw [inTables, inTables, SearchFilter.wants_all, SearchFilter.wants_all, if_pos rfl, if_pos rfl,
    List.filter_append, filter_wants category_of_mem_inSymbols, filter_wants category_of_mem_inStrings]

theorem category_of_mem_inTables {m : SearchMatch} (h : m ∈ inTables symbols strings n f) :
    m.category = .symbol ∨ m.category = .string := by
  rw [inTables, List.mem_append] at h
  obtain h | h := h
  · split at h
    · exact .inl (category_of_mem_inSymbols m h)
    · simp at h
  · split at h
    · exact .inr (category_of_mem_inStrings m h)
    · simp at h

theorem inInstruction_eq_filter (i : Instruction) :
    inInstruction n f i = (inInstruction n .all i).filter (f.wants ·.category) := by
  rw [inInstruction, inInstruction]
  split
  · rfl
  · simp only [SearchFilter.wants_all, Bool.true_and, List.filter_append]
    by_cases hmnemonic : n.isIn i.mnemonic = true
    all_goals by_cases hoperands : n.isIn i.operandText = true
    all_goals simp [hmnemonic, hoperands, List.filter_cons]

theorem category_of_mem_inInstruction {i : Instruction} {m : SearchMatch}
    (h : m ∈ inInstruction n f i) : m.category = .instruction ∨ m.category = .operand := by
  rw [inInstruction] at h
  split at h
  · simp at h
  · simp only [List.mem_append] at h
    obtain h | h := h
    all_goals
      split at h
      · simp_all
      · simp at h

/-- A filter that wants no code selects nothing from it. -/
theorem inInstruction_eq_nil (hf : f.wantsCode = false) (i : Instruction) :
    inInstruction n f i = [] := by
  rw [SearchFilter.wantsCode, Bool.or_eq_false_iff] at hf
  simp [inInstruction, hf]

end SearchMatch

namespace Analysis

open SearchMatch

variable {σ δ : Type}

def instructions (e : Engine σ δ) (a : Analysis) (shared : σ) : List Instruction :=
  match a.architecture with
  | .error _ => []
  | .ok arch => (walkCode e a arch none shared).1.seen

def searched (e : Engine σ δ) (a : Analysis) (shared : σ) : List Instruction :=
  (a.instructions e shared).take a.config.search.maxInstructions.toNat

def found (e : Engine σ δ) (a : Analysis) (query : String) (f : SearchFilter) (shared : σ) :
    List SearchMatch :=
  match Needle.ofQuery? query with
  | none => []
  | some n =>
    inTables a.symbols a.strings n f ++ (a.searched e shared).flatMap (inInstruction n f)

def overflows (e : Engine σ δ) (a : Analysis) (shared : σ) : Bool :=
  match a.architecture with
  | .error _ => false
  | .ok arch =>
    (walkCode e a arch (some a.config.search.maxInstructions.toNat) shared).1.halt = some .overflow

/-- A search in code has no result if the walk overflows. -/
def found? (e : Engine σ δ) (a : Analysis) (query : String) (f : SearchFilter) (shared : σ) :
    Option (List SearchMatch) :=
  if (Needle.ofQuery? query).isSome && f.wantsCode && a.overflows e shared then none
  else some (a.found e query f shared)

variable (e : Engine σ δ) (a : Analysis) (query : String) (f : SearchFilter) (shared : σ)

theorem searchCode_eq (n : Needle) :
    (searchCode e a n f shared).1 =
      if f.wantsCode && a.overflows e shared then none
      else some ((a.searched e shared).flatMap (inInstruction n f)) := by
  rw [searchCode, overflows, searched, instructions]
  cases hf : f.wantsCode with
  | true =>
      cases a.architecture with
      | error fault => simp
      | ok arch =>
          simp only [if_true, Bool.true_and, decide_eq_true_eq]
          split
          · rfl
          · rw [seen_walkCode_some]
  | false =>
      have hnil := inInstruction_eq_nil n f hf
      rw [List.flatMap_eq_nil_iff.2 fun i _ => hnil i]
      simp

theorem search_eq :
    (a.search e query f shared).1 =
      match a.config.search.maxResults with
      | none => (a.found? e query f shared).map sort
      | some most => (a.found? e query f shared).map fun found => (sort found).take most.toNat := by
  rw [search, found?, found]
  cases Needle.ofQuery? query with
  | none =>
      have hnil : sort [] = [] := List.mergeSort_nil
      cases a.config.search.maxResults <;> simp [hnil]
  | some n =>
      have hcode := searchCode_eq e a f shared n
      simp only [Option.isSome_some, Bool.true_and]
      split at hcode
      · rename_i hoverflows
        rw [hcode, if_pos hoverflows]
        cases a.config.search.maxResults <;> rfl
      · rename_i hoverflows
        rw [hcode, if_neg hoverflows]
        cases a.config.search.maxResults <;> rfl

theorem found?_eq_none_iff :
    a.found? e query f shared = none ↔
      Needle.ofQuery? query ≠ none ∧ f.wantsCode = true ∧ a.overflows e shared = true := by
  simp [found?, Option.isSome_iff_ne_none, and_assoc]

theorem eq_found_of_found? {ms : List SearchMatch} (h : a.found? e query f shared = some ms) :
    ms = a.found e query f shared := by
  rw [found?] at h
  split at h
  · cases h
  · exact (Option.some.inj h).symm

theorem found_eq_filter :
    a.found e query f shared = (a.found e query .all shared).filter (f.wants ·.category) := by
  rw [found, found]
  cases Needle.ofQuery? query with
  | none => rfl
  | some n =>
      dsimp only
      rw [List.filter_append, List.filter_flatMap, ← inTables_eq_filter]
      simp only [← inInstruction_eq_filter]

/-- Sorted, what a filter selects is what it selects from the list of all matches. -/
theorem sort_found (query : String) (f : SearchFilter) (shared : σ) :
    sort (a.found e query f shared) =
      (sort (a.found e query .all shared)).filter (f.wants ·.category) := by
  rw [found_eq_filter, sort, sort, isTotalPreorder_le.filter_mergeSort]

theorem category_of_mem_found {f : SearchFilter} (hf : f ≠ .all) :
    ∃ c, ∀ m ∈ a.found e query f shared, m.category = c := by
  have hwants (m : SearchMatch) (hm : m ∈ a.found e query f shared) : f.wants m.category = true := by
    rw [found_eq_filter] at hm
    exact (List.mem_filter.1 hm).2
  cases f with
  | instructions => exact ⟨.instruction, fun m hm => of_decide_eq_true (hwants m hm)⟩
  | operands => exact ⟨.operand, fun m hm => of_decide_eq_true (hwants m hm)⟩
  | strings => exact ⟨.string, fun m hm => of_decide_eq_true (hwants m hm)⟩
  | symbols => exact ⟨.symbol, fun m hm => of_decide_eq_true (hwants m hm)⟩
  | all => exact absurd rfl hf

/-- The list of all matches is made of the lists of the four categories. -/
theorem sort_found_all :
    sort (a.found e query .symbols shared) ++ sort (a.found e query .strings shared)
      ++ sort (a.found e query .instructions shared) ++ sort (a.found e query .operands shared) =
    sort (a.found e query .all shared) := by
  have hsorted := List.pairwise_mergeSort isTotalPreorder_le.trans isTotalPreorder_le.total
    (a.found e query .all shared)
  have hrank := hsorted.imp fun {x y} (hxy : le x y = true) =>
    show x.category.rank ≤ y.category.rank by
      rw [le_iff] at hxy
      omega
  have hcategories := ofCategory_append hrank
  rw [sort_found e a query .symbols, sort_found e a query .strings,
    sort_found e a query .instructions, sort_found e a query .operands]
  exact hcategories

/-- A list is missing exactly if one of those it is made of is. -/
theorem map_sort_found?_all :
    (a.found? e query .all shared).map sort = do
      let symbols ← (a.found? e query .symbols shared).map sort
      let strings ← (a.found? e query .strings shared).map sort
      let instructions ← (a.found? e query .instructions shared).map sort
      let operands ← (a.found? e query .operands shared).map sort
      return symbols ++ strings ++ instructions ++ operands := by
  have hsymbols : SearchFilter.symbols.wantsCode = false := rfl
  have hstrings : SearchFilter.strings.wantsCode = false := rfl
  have hinstructions : SearchFilter.instructions.wantsCode = true := rfl
  have hoperands : SearchFilter.operands.wantsCode = true := rfl
  have hall : SearchFilter.all.wantsCode = true := rfl
  have happend := sort_found_all e a query shared
  simp only [found?, hsymbols, hstrings, hinstructions, hoperands, hall, Bool.and_true, Bool.and_false,
    Bool.false_and]
  cases (Needle.ofQuery? query).isSome && a.overflows e shared with
  | true => rfl
  | false => exact congrArg some happend.symm

/-- The matches in code are those of the instructions that are looked at. -/
theorem code_found {n : Needle} (hn : Needle.ofQuery? query = some n) :
    (a.found e query f shared).filter
        (fun m => m.category = .instruction ∨ m.category = .operand) =
      (a.searched e shared).flatMap (inInstruction n f) := by
  rw [found, hn]
  dsimp only
  rw [List.filter_append, List.filter_eq_nil_iff.2, List.nil_append, List.filter_eq_self]
  · intro m hm
    obtain ⟨i, -, hm⟩ := List.mem_flatMap.1 hm
    exact decide_eq_true (category_of_mem_inInstruction n f hm)
  · intro m hm
    obtain hm | hm := category_of_mem_inTables _ _ n f hm
    all_goals simp [hm]

def withMaxResults (a : Analysis) (most : Option UInt64) : Analysis :=
  { a with config := { a.config with search := { a.config.search with maxResults := most } } }

theorem walkRegion_withMaxResults (most : Option UInt64) (arch : Architecture) (region : CodeRegion)
    (pos : Nat) (wanted : Option Nat) :
    walkRegion e (a.withMaxResults most) arch region pos wanted shared =
      walkRegion e a arch region pos wanted shared := by
  induction hn : region.length - pos using Nat.strongRecOn generalizing pos wanted shared with
  | ind n ih =>
      have hstream : streamAt e (a.withMaxResults most) arch = streamAt e a arch := rfl
      have htaken : (a.withMaxResults most).taken region pos = a.taken region pos := rfl
      have hseam : (a.withMaxResults most).seamAt? arch region pos = a.seamAt? arch region pos := rfl
      rw [walkRegion, walkRegion, hstream, htaken, hseam]
      by_cases hpos : pos < region.length
      · rw [dif_pos hpos, dif_pos hpos]
        dsimp only
        split
        · rfl
        · split
          · rfl
          · split
            · rfl
            · split
              · rw [ih _ (by omega) _ _ _ rfl]
              · rfl
      · rw [dif_neg hpos, dif_neg hpos]

theorem walkRegions_withMaxResults (most : Option UInt64) (arch : Architecture)
    (regions : List CodeRegion) (wanted : Option Nat) :
    walkRegions e (a.withMaxResults most) arch regions wanted shared =
      walkRegions e a arch regions wanted shared := by
  induction regions generalizing wanted shared with
  | nil => rfl
  | cons region rest ih =>
      rw [walkRegions, walkRegions, walkRegion_withMaxResults]
      dsimp only
      rw [ih]

theorem walkCode_withMaxResults (most : Option UInt64) (arch : Architecture) (wanted : Option Nat) :
    walkCode e (a.withMaxResults most) arch wanted shared = walkCode e a arch wanted shared :=
  walkRegions_withMaxResults e a shared most arch a.codeRegions wanted

/-- The bound on the number of matches has no part in finding them. -/
theorem found?_withMaxResults (most : Option UInt64) :
    (a.withMaxResults most).found? e query f shared = a.found? e query f shared := by
  have harch : (a.withMaxResults most).architecture = a.architecture := rfl
  have hinstructions : (a.withMaxResults most).instructions e shared = a.instructions e shared := by
    simp only [instructions, harch, walkCode_withMaxResults]
  have hsearched : (a.withMaxResults most).searched e shared = a.searched e shared := by
    rw [searched, searched, hinstructions]
    rfl
  have hoverflows : (a.withMaxResults most).overflows e shared = a.overflows e shared := by
    simp only [overflows, harch, walkCode_withMaxResults]
    rfl
  simp only [found?, found, hsearched, hoverflows]
  rfl

theorem search_withMaxResults_none :
    ((a.withMaxResults none).search e query f shared).1 = (a.found? e query f shared).map sort := by
  rw [← found?_withMaxResults e a query f shared none]
  exact search_eq e (a.withMaxResults none) query f shared

theorem search_withMaxResults_some (most : UInt64) :
    ((a.withMaxResults (some most)).search e query f shared).1 =
      (a.found? e query f shared).map fun found => (sort found).take most.toNat := by
  rw [← found?_withMaxResults e a query f shared (some most)]
  exact search_eq e (a.withMaxResults (some most)) query f shared

/-- A search that does not overflow lists what is found. -/
theorem search_eq_some_of_not_overflows (h : f.wantsCode = true → a.overflows e shared = false) :
    ((a.withMaxResults none).search e query f shared).1 = some (sort (a.found e query f shared)) := by
  rw [search_withMaxResults_none, found?, if_neg]
  · rfl
  · intro hnone
    simp only [Bool.and_eq_true] at hnone
    obtain ⟨⟨-, hcode⟩, hoverflows⟩ := hnone
    rw [h hcode] at hoverflows
    cases hoverflows

variable {e}

/-- Where openings are alike, what earlier ones leave behind has no part in it either. -/
theorem found?_eq_of_opensAlike (he : e.OpensAlike) (shared' : σ) :
    a.found? e query f shared = a.found? e query f shared' := by
  have hinstructions : a.instructions e shared = a.instructions e shared' := by
    rw [instructions, instructions]
    cases a.architecture with
    | error fault => rfl
    | ok arch => exact congrArg CodeWalk.seen (he.walkCode_eq a arch none shared shared')
  have hoverflows : a.overflows e shared = a.overflows e shared' := by
    rw [overflows, overflows]
    cases a.architecture with
    | error fault => rfl
    | ok arch =>
        dsimp only
        rw [he.walkCode_eq a arch _ shared shared']
  simp only [found?, found, searched, hinstructions, hoverflows]

theorem overflows_eq_false (he : e.OpensFaithful) : a.overflows e shared = false := by
  rw [overflows]
  cases a.architecture with
  | error fault => rfl
  | ok arch => exact decide_eq_false (halt_walkCode_ne_overflow he a arch _ shared)

end Analysis

end ElfAtlas
