import ElfAtlas.Proofs.Xref.Places

/-!
What an index starts from. Functions and strings are annotated in their order; an address is known by
its first function, or by its first object where it has no function; and a name leads to the first
symbol that has it. Instructions add edges under the names so given and change none of them.
-/

namespace ElfAtlas

namespace XrefIndex

variable {x : XrefIndex}

theorem addressOf?_foldl_push (x : XrefIndex) (rs : List CrossReference) (n : String) :
    (rs.foldl push x).addressOf? n = x.addressOf? n := by
  induction rs generalizing x with
  | nil => rfl
  | cons r rs ih => exact ih (x.push r)

theorem IsConsistent.referencesTo_eq (h : x.IsConsistent) (a : UInt64) :
    x.referencesTo a = x.toList.filter fun r => r.target = a :=
  atPlaces_eq (h.target_eq a)

end XrefIndex

namespace XrefBuilder

def known (s : Symbol) : KnownSymbol := ⟨s.displayName, s.isFunction⟩

def definition (s : Symbol) : CrossReference := ⟨none, s.value, .symbolDefinition, s.displayName⟩

def location (a : UInt64) (s : ExtractedString) : CrossReference :=
  ⟨none, a, .stringLocation, s.content⟩

def isCalled (n : String) (s : Symbol) : Bool := s.name = n || s.demangled = some n

def isFunctionAt (a : UInt64) (s : Symbol) : Bool := isEligible s && s.isFunction && s.value = a

def isObjectAt (a : UInt64) (s : Symbol) : Bool := isEligible s && s.kind = .object && s.value = a

/-- The symbol that an address is known by: its first function, or else its first object. -/
def namesake? (symbols : List Symbol) (a : UInt64) : Option Symbol :=
  (symbols.find? (isFunctionAt a)).or (symbols.find? (isObjectAt a))

def ofSymbols (symbols : List Symbol) : XrefBuilder := symbols.foldl addSymbol {}

theorem ofSymbols_append_singleton (symbols : List Symbol) (s : Symbol) :
    ofSymbols (symbols ++ [s]) = (ofSymbols symbols).addSymbol s :=
  List.foldl_append

variable {b : XrefBuilder} {s : Symbol} {a : UInt64}

/-! ### Names -/

theorem addName_getElem? (names : Std.HashMap String UInt64) (name n : String) (value : UInt64) :
    (addName names name value)[n]? = names[n]?.or (if name = n then some value else none) := by
  rw [addName, Std.HashMap.getElem?_insertIfNew]
  by_cases h : name = n
  · subst h
    by_cases hmem : name ∈ names <;> simp [hmem]
  · simp [h]

theorem addSymbol_names (b : XrefBuilder) (s : Symbol) :
    (b.addSymbol s).index.names =
      if isEligible s then
        match s.demangled with
        | some readable => addName (addName b.index.names s.name s.value) readable s.value
        | none => addName b.index.names s.name s.value
      else b.index.names := by
  rw [addSymbol]
  split
  · cases s.isFunction <;> rfl
  · rfl

/-- Both spellings lead to the same address, so that it does not matter which of them is new. -/
theorem addSymbol_addressOf? (b : XrefBuilder) (s : Symbol) (n : String) :
    (b.addSymbol s).index.addressOf? n =
      (b.index.addressOf? n).or (if isEligible s && isCalled n s then some s.value else none) := by
  simp only [XrefIndex.addressOf?, addSymbol_names]
  cases isEligible s with
  | false => simp
  | true =>
      cases hreadable : s.demangled with
      | none => simp [addName_getElem?, isCalled, hreadable]
      | some readable =>
          by_cases hname : s.name = n <;> simp [addName_getElem?, isCalled, hreadable, hname]

theorem ofSymbols_addressOf? (symbols : List Symbol) (n : String) :
    (ofSymbols symbols).index.addressOf? n =
      (symbols.find? fun s => isEligible s && isCalled n s).map Symbol.value := by
  induction symbols using List.reverseRecOn with
  | nil => simp [ofSymbols, XrefIndex.addressOf?]
  | append_singleton symbols s ih =>
      rw [ofSymbols_append_singleton, addSymbol_addressOf?, ih, List.find?_append, Option.map_or,
        List.find?_singleton]
      split <;> rfl

/-! ### Known symbols -/

theorem addKnown_of_ne (m : Std.HashMap UInt64 KnownSymbol) (h : s.value ≠ a) :
    (addKnown m s)[a]? = m[a]? := by
  rw [addKnown]
  split
  · simp [Std.HashMap.getElem?_insert, h]
  · split
    · simp [Std.HashMap.getElem?_insert, h]
    · rfl

/-- What an address is known by stays, but an object makes room for a function. -/
theorem addKnown_self (m : Std.HashMap UInt64 KnownSymbol) (s : Symbol) :
    (addKnown m s)[s.value]? =
      (m[s.value]?.filter fun k => k.isFunction || !s.isFunction).or (some (known s)) := by
  rw [addKnown]
  cases hk : m[s.value]? with
  | none => simp [known]
  | some k =>
      cases hs : s.isFunction <;> cases hf : k.isFunction <;> simp [hk, hs, hf, known, Option.filter]

theorem addSymbol_symbols (b : XrefBuilder) (s : Symbol) :
    (b.addSymbol s).symbols = if isEligible s then addKnown b.symbols s else b.symbols := by
  rw [addSymbol]
  split <;> rfl

theorem isFunctionAt_iff :
    isFunctionAt a s = true ↔ isEligible s = true ∧ s.isFunction = true ∧ s.value = a := by
  simp only [isFunctionAt, Bool.and_eq_true, decide_eq_true_eq, and_assoc]

theorem isObjectAt_iff :
    isObjectAt a s = true ↔ isEligible s = true ∧ s.isFunction = false ∧ s.value = a := by
  simp only [isObjectAt, Bool.and_eq_true, decide_eq_true_eq, and_assoc]
  refine and_congr_right fun h => and_congr_left fun _ => ?_
  simp only [isEligible, Bool.and_eq_true, Bool.or_eq_true, decide_eq_true_eq] at h
  constructor
  · intro hobject
    simp [Symbol.isFunction, hobject]
  · intro hfunction
    simpa [hfunction] using h.2

/-- One more symbol takes an address that has no namesake, and a function takes it from an object. -/
theorem namesake?_append_singleton (symbols : List Symbol) (h : isEligible s = true) :
    namesake? (symbols ++ [s]) s.value =
      ((namesake? symbols s.value).filter fun t => t.isFunction || !s.isFunction).or (some s) := by
  simp only [namesake?, List.find?_append, List.find?_singleton]
  cases hfirst : symbols.find? (isFunctionAt s.value) with
  | some f =>
      obtain ⟨-, hf, -⟩ := isFunctionAt_iff.1 (List.find?_some hfirst)
      simp [Option.filter, hf]
  | none =>
      cases hs : s.isFunction with
      | true =>
          have hat : isFunctionAt s.value s = true := isFunctionAt_iff.2 ⟨h, hs, rfl⟩
          cases hobject : symbols.find? (isObjectAt s.value) with
          | none => simp [hat]
          | some o =>
              obtain ⟨-, ho, -⟩ := isObjectAt_iff.1 (List.find?_some hobject)
              simp [Option.filter, hat, ho]
      | false =>
          have hat : isFunctionAt s.value s = false := by simp [isFunctionAt, hs]
          have hobject : isObjectAt s.value s = true := isObjectAt_iff.2 ⟨h, hs, rfl⟩
          cases symbols.find? (isObjectAt s.value) <;> simp [Option.filter, hat, hobject]

theorem namesake?_append_of_not (symbols : List Symbol) (h : ¬(isEligible s = true ∧ s.value = a)) :
    namesake? (symbols ++ [s]) a = namesake? symbols a := by
  have hfunction : isFunctionAt a s = false := Bool.eq_false_iff.2 fun hat =>
    h ⟨(isFunctionAt_iff.1 hat).1, (isFunctionAt_iff.1 hat).2.2⟩
  have hobject : isObjectAt a s = false := Bool.eq_false_iff.2 fun hat =>
    h ⟨(isObjectAt_iff.1 hat).1, (isObjectAt_iff.1 hat).2.2⟩
  simp [namesake?, List.find?_append, hfunction, hobject]

theorem ofSymbols_symbols (symbols : List Symbol) (a : UInt64) :
    (ofSymbols symbols).symbols[a]? = (namesake? symbols a).map known := by
  induction symbols using List.reverseRecOn with
  | nil => simp [ofSymbols, namesake?]
  | append_singleton symbols s ih =>
      rw [ofSymbols_append_singleton, addSymbol_symbols]
      by_cases h : isEligible s = true ∧ s.value = a
      · obtain ⟨heligible, rfl⟩ := h
        rw [if_pos heligible, addKnown_self, ih, namesake?_append_singleton symbols heligible,
          Option.map_or, Option.filter_map]
        rfl
      · -- A symbol that takes no part or lies elsewhere.
        rw [namesake?_append_of_not symbols h, ← ih]
        split
        · next heligible => exact addKnown_of_ne _ fun ha => h ⟨heligible, ha⟩
        · rfl

/-! ### Annotations -/

theorem addSymbol_toList (b : XrefBuilder) (s : Symbol) :
    (b.addSymbol s).index.toList =
      b.index.toList ++ if isEligible s && s.isFunction then [definition s] else [] := by
  rw [addSymbol]
  cases isEligible s with
  | false => simp
  | true =>
      cases s.isFunction with
      | false => simp [XrefIndex.toList]
      | true =>
          simp only [if_true, Bool.and_self, XrefIndex.toList_push]
          rfl

theorem ofSymbols_toList (symbols : List Symbol) :
    (ofSymbols symbols).index.toList =
      (symbols.filter fun s => isEligible s && s.isFunction).map definition := by
  induction symbols using List.reverseRecOn with
  | nil => rfl
  | append_singleton symbols s ih =>
      rw [ofSymbols_append_singleton, addSymbol_toList, ih, List.filter_append, List.map_append,
        List.filter_singleton]
      cases isEligible s && s.isFunction <;> simp

theorem foldl_addString_toList (b : XrefBuilder) (strings : List ExtractedString) :
    (strings.foldl addString b).index.toList =
      b.index.toList ++ strings.filterMap fun s => s.address.map (location · s) := by
  induction strings generalizing b with
  | nil => simp
  | cons s strings ih =>
      rw [List.foldl_cons, ih, addString]
      cases h : s.address with
      | none => simp [h]
      | some address => simp [h, location]

/-- Strings are no symbols: they change neither what an address is known by nor where a name leads. -/
theorem foldl_addString_kept (b : XrefBuilder) (strings : List ExtractedString) :
    (strings.foldl addString b).symbols = b.symbols ∧
      (strings.foldl addString b).index.names = b.index.names := by
  induction strings generalizing b with
  | nil => exact ⟨rfl, rfl⟩
  | cons s strings ih =>
      obtain ⟨hsymbols, hnames⟩ := ih (b.addString s)
      rw [List.foldl_cons, hsymbols, hnames, addString]
      split <;> exact ⟨rfl, rfl⟩

theorem seed_symbols (symbols : List Symbol) (strings : List ExtractedString) (a : UInt64) :
    (seed symbols strings).symbols[a]? = (namesake? symbols a).map known := by
  rw [seed, (foldl_addString_kept _ strings).1]
  exact ofSymbols_symbols symbols a

theorem seed_addressOf? (symbols : List Symbol) (strings : List ExtractedString) (n : String) :
    (seed symbols strings).index.addressOf? n =
      (symbols.find? fun s => isEligible s && isCalled n s).map Symbol.value := by
  rw [seed, XrefIndex.addressOf?, (foldl_addString_kept _ strings).2]
  exact ofSymbols_addressOf? symbols n

theorem seed_toList (symbols : List Symbol) (strings : List ExtractedString) :
    (seed symbols strings).index.toList =
      (symbols.filter fun s => isEligible s && s.isFunction).map definition ++
        strings.filterMap fun s => s.address.map (location · s) := by
  rw [seed, foldl_addString_toList]
  exact congrArg (· ++ _) (ofSymbols_toList symbols)

theorem filter_locations (strings : List ExtractedString) (a : UInt64) :
    ((strings.filterMap fun s => s.address.map (location · s)).filter fun r => r.target = a) =
      (strings.filter fun s => s.address = some a).map (location a) := by
  induction strings with
  | nil => rfl
  | cons s strings ih =>
      cases hs : s.address with
      | none => simpa [hs] using ih
      | some address =>
          by_cases ha : address = a
          · simpa [hs, ha, location] using ih
          · simpa [hs, ha, location] using ih

theorem seed_referencesTo (symbols : List Symbol) (strings : List ExtractedString) (a : UInt64) :
    (seed symbols strings).index.referencesTo a =
      (symbols.filter (isFunctionAt a)).map definition ++
        (strings.filter fun s => s.address = some a).map (location a) := by
  have hfunctions : (fun s => decide ((definition s).target = a) && (isEligible s && s.isFunction)) =
      isFunctionAt a := funext fun s => Bool.and_comm _ _
  rw [(seed_isFresh symbols strings).consistent.referencesTo_eq, seed_toList, List.filter_append,
    List.filter_map, List.filter_filter, filter_locations]
  exact congrArg (fun p => (symbols.filter p).map definition ++ _) hfunctions

theorem source_eq_none_of_mem_seed {symbols : List Symbol} {strings : List ExtractedString}
    {r : CrossReference} (h : r ∈ (seed symbols strings).index.toList) : r.source = none := by
  simp only [seed_toList, List.mem_append, List.mem_map, List.mem_filterMap,
    Option.map_eq_some_iff] at h
  rcases h with ⟨s, -, rfl⟩ | ⟨s, -, address, -, rfl⟩ <;> rfl

/-! ### The run of the builder -/

theorem step_kept (b : XrefBuilder) (s : Step) :
    (b.step s).symbols = b.symbols ∧ (b.step s).strings = b.strings := by
  cases s with
  | diagnostic d => exact ⟨rfl, rfl⟩
  | instruction i =>
      obtain ⟨added, hadded, -⟩ := b.addInstruction_eq i
      rw [step, hadded]
      exact ⟨rfl, rfl⟩

theorem isEdge_step {i : Instruction} {r : CrossReference} (b : XrefBuilder) (s : Step) :
    IsEdge (b.step s) i r ↔ IsEdge b i r := by
  simp only [isEdge_iff, mem_edgesTo, step_kept]

theorem step_addressOf? (b : XrefBuilder) (s : Step) (n : String) :
    (b.step s).index.addressOf? n = b.index.addressOf? n := by
  cases s with
  | diagnostic d => rfl
  | instruction i =>
      obtain ⟨added, hadded, -⟩ := b.addInstruction_eq i
      rw [step, hadded, XrefIndex.addressOf?_foldl_push]
      rfl

theorem run_addressOf? (b : XrefBuilder) (steps : List Step) (n : String) :
    (b.run steps).index.addressOf? n = b.index.addressOf? n := by
  induction steps generalizing b with
  | nil => rfl
  | cons s steps ih => exact (ih (b.step s)).trans (b.step_addressOf? s n)

theorem mem_step_toList {r : CrossReference} (b : XrefBuilder) (s : Step) :
    r ∈ (b.step s).index.toList ↔
      r ∈ b.index.toList ∨ ∃ i, s = .instruction i ∧ i.isBad = false ∧ IsEdge b i r := by
  cases s with
  | diagnostic d => simp [step, addDiagnostic, XrefIndex.toList]
  | instruction i =>
      obtain ⟨added, hadded, -, hmem⟩ := b.addInstruction_eq i
      rw [step, hadded, XrefIndex.toList_foldl_push, List.mem_append, hmem]
      simp [XrefIndex.toList]

/-- The edges of a run are those that its instructions have by what the builder knew before it. -/
theorem mem_run_toList {r : CrossReference} (b : XrefBuilder) (steps : List Step) :
    r ∈ (b.run steps).index.toList ↔
      r ∈ b.index.toList ∨ ∃ i, .instruction i ∈ steps ∧ i.isBad = false ∧ IsEdge b i r := by
  induction steps generalizing b with
  | nil => simp [run]
  | cons s steps ih =>
      have hrun : b.run (s :: steps) = (b.step s).run steps := rfl
      simp only [hrun, ih, mem_step_toList, isEdge_step, List.mem_cons]
      constructor
      · rintro ((h | ⟨i, rfl, h⟩) | ⟨i, hi, h⟩)
        · exact .inl h
        · exact .inr ⟨i, .inl rfl, h⟩
        · exact .inr ⟨i, .inr hi, h⟩
      · rintro (h | ⟨i, rfl | hi, h⟩)
        · exact .inl (.inl h)
        · exact .inl (.inr ⟨i, rfl, h⟩)
        · exact .inr ⟨i, hi, h⟩

/-- An edge that is not to a string is to what its target is known by. -/
theorem isEdge_symbol_iff {i : Instruction} {r : CrossReference} :
    IsEdge b i r ∧ r.target = a ∧ r.kind ≠ .stringPointer ↔
      Names i a ∧ ∃ k, b.symbols[a]? = some k ∧
        r = ⟨some i.address, a, symbolEdgeKind i.flow k.isFunction, k.label⟩ := by
  rw [isEdge_iff]
  constructor
  · rintro ⟨⟨v, hnames, hr⟩, htarget, hkind⟩
    rcases mem_edgesTo.1 hr with ⟨k, hk, rfl⟩ | ⟨content, -, rfl⟩
    · obtain rfl : v = a := htarget
      exact ⟨hnames, k, hk, rfl⟩
    · exact absurd rfl hkind
  · rintro ⟨hnames, k, hk, rfl⟩
    refine ⟨⟨a, hnames, mem_edgesTo.2 (.inl ⟨k, hk, rfl⟩)⟩, rfl, ?_⟩
    dsimp only
    exact symbolEdgeKind_ne_stringPointer i.flow k.isFunction

/-- What an index answers by its symbols and strings. An address has the annotations of its functions
and its strings, in order. Edges to it are labelled and classed by its namesake, which is its first
function or else its first object. A name leads to the first symbol that is called so. -/
theorem seed_lookups (symbols : List Symbol) (strings : List ExtractedString) (steps : List Step)
    (a : UInt64) (n : String) :
    let b := seed symbols strings
    let x := (b.run steps).finish
    b.finish.referencesTo a =
        (symbols.filter (isFunctionAt a)).map definition ++
          (strings.filter fun s => s.address = some a).map (location a) ∧
      (∀ r, r ∈ x.referencesTo a ∧ r.source.isSome ∧ r.kind ≠ .stringPointer ↔
        ∃ s i, namesake? symbols a = some s ∧ .instruction i ∈ steps ∧ i.isBad = false ∧
          Names i a ∧ r = ⟨some i.address, a, symbolEdgeKind i.flow s.isFunction, s.displayName⟩) ∧
      x.addressOf? n = (symbols.find? fun s => isEligible s && isCalled n s).map Symbol.value := by
  have hconsistent := (run_spec (seed_isFresh symbols strings).consistent steps).1
  refine ⟨seed_referencesTo symbols strings a, fun r => ?_,
    (run_addressOf? _ steps n).trans (seed_addressOf? symbols strings n)⟩
  rw [finish, hconsistent.referencesTo_eq, List.mem_filter, mem_run_toList, decide_eq_true_eq]
  constructor
  · rintro ⟨⟨hseed | ⟨i, hi, hbad, hedge⟩, htarget⟩, hsource, hkind⟩
    · -- What the builder starts from are annotations, which have no source.
      rw [source_eq_none_of_mem_seed hseed] at hsource
      cases hsource
    · obtain ⟨hnames, k, hk, hr⟩ := isEdge_symbol_iff.1 ⟨hedge, htarget, hkind⟩
      rw [seed_symbols] at hk
      obtain ⟨s, hs, rfl⟩ := Option.map_eq_some_iff.1 hk
      exact ⟨s, i, hs, hi, hbad, hnames, hr⟩
  · rintro ⟨s, i, hs, hi, hbad, hnames, rfl⟩
    have hk : (seed symbols strings).symbols[a]? = some (known s) := by
      rw [seed_symbols, hs, Option.map_some]
    obtain ⟨hedge, htarget, hkind⟩ := isEdge_symbol_iff.2 ⟨hnames, known s, hk, rfl⟩
    exact ⟨⟨.inr ⟨i, hi, hbad, hedge⟩, htarget⟩, rfl, hkind⟩

end XrefBuilder

end ElfAtlas
