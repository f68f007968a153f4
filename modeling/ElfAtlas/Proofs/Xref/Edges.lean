import ElfAtlas.Xref.Builder

/-!
The edges of an instruction. For each value that one of its operands names there is one edge to the
symbol there and one to the string there, however often and by however many operands it is named.
-/

namespace ElfAtlas

/-- What tells the edges of one instruction apart. -/
def CrossReference.key (r : CrossReference) : UInt64 × XrefKind := (r.target, r.kind)

namespace XrefIndex

@[simp] theorem toList_push (x : XrefIndex) (r : CrossReference) :
    (x.push r).toList = x.toList ++ [r] := by
  simp [push, toList]

theorem toList_foldl_push (x : XrefIndex) (rs : List CrossReference) :
    (rs.foldl push x).toList = x.toList ++ rs := by
  induction rs generalizing x with
  | nil => simp
  | cons r rs ih =>
      rw [List.foldl_cons, ih, toList_push, List.append_assoc, List.singleton_append]

end XrefIndex

namespace EdgePass

/-- A pass over `rs` has taken `added` of them into the index `x`: one for each key. -/
structure Records (x : XrefIndex) (rs added : List CrossReference) (pass : EdgePass) : Prop where
  index_eq : pass.index = added.foldl XrefIndex.push x
  mem_emitted : ∀ k, k ∈ pass.emitted ↔ k ∈ added.map CrossReference.key
  nodup : (added.map CrossReference.key).Nodup
  sublist : added.Sublist rs
  covers : ∀ r ∈ rs, r.key ∈ added.map CrossReference.key

theorem records_nil (x : XrefIndex) : Records x [] [] { index := x } where
  index_eq := rfl
  mem_emitted := by simp
  nodup := .nil
  sublist := .slnil
  covers := by simp

variable {x : XrefIndex} {rs added : List CrossReference} {pass : EdgePass} {r : CrossReference}

theorem add_of_mem (h : r.key ∈ pass.emitted) : pass.add r = pass :=
  if_pos (Std.HashSet.mem_iff_contains.1 h)

theorem add_of_not_mem (h : r.key ∉ pass.emitted) :
    pass.add r = ⟨pass.index.push r, pass.emitted.insert r.key⟩ :=
  if_neg fun hc => h (Std.HashSet.mem_iff_contains.2 hc)

/-- The set holds the keys of what was added, so a reference is added exactly when its key is new. -/
theorem Records.add (h : Records x rs added pass) (r : CrossReference) :
    ∃ added', Records x (rs ++ [r]) added' (pass.add r) := by
  by_cases hr : r.key ∈ pass.emitted
  · -- The reference is left out: one with its key has been added before.
    refine ⟨added, ?_⟩
    rw [add_of_mem hr]
    refine { h with sublist := h.sublist.trans (List.sublist_append_left rs [r]), covers := ?_ }
    intro s hs
    rcases List.mem_append.1 hs with hs | hs
    · exact h.covers s hs
    · rw [List.mem_singleton.1 hs]
      exact (h.mem_emitted _).1 hr
  · have hnew : r.key ∉ added.map CrossReference.key := fun hk => hr ((h.mem_emitted _).2 hk)
    refine ⟨added ++ [r], ?_⟩
    rw [add_of_not_mem hr]
    constructor
    · rw [List.foldl_append, ← h.index_eq]
      rfl
    · intro k
      rw [Std.HashSet.mem_insert, beq_iff_eq, h.mem_emitted, List.map_append, List.mem_append,
        List.map_singleton, List.mem_singleton, or_comm, eq_comm]
    · rw [List.map_append, List.map_singleton]
      refine List.nodup_append.2 ⟨h.nodup, List.pairwise_singleton _ _, ?_⟩
      rintro k hk _ hr rfl
      rw [List.mem_singleton.1 hr] at hk
      exact hnew hk
    · exact h.sublist.append (List.Sublist.refl _)
    · intro s hs
      rw [List.map_append, List.mem_append]
      rcases List.mem_append.1 hs with hs | hs
      · exact .inl (h.covers s hs)
      · exact .inr (List.mem_map_of_mem hs)

theorem Records.addAll (h : Records x rs added pass) (more : List CrossReference) :
    ∃ added', Records x (rs ++ more) added' (more.foldl EdgePass.add pass) := by
  induction more generalizing rs added pass with
  | nil => exact ⟨added, by rwa [List.append_nil]⟩
  | cons r more ih =>
      obtain ⟨added₁, h₁⟩ := h.add r
      obtain ⟨added₂, h₂⟩ := ih h₁
      refine ⟨added₂, ?_⟩
      rwa [List.append_assoc, List.singleton_append] at h₂

end EdgePass

namespace XrefBuilder

variable {b : XrefBuilder} {i : Instruction}

def Names (i : Instruction) (v : UInt64) : Prop := ∃ o ∈ i.operands, v ∈ operandValues o

/-- The edges that an instruction has by what its operands name and by its flow. -/
inductive IsEdge (b : XrefBuilder) (i : Instruction) : CrossReference → Prop where
  | call {v : UInt64} {k : KnownSymbol} :
      Names i v → b.symbols[v]? = some k → i.flow = .call →
      IsEdge b i ⟨some i.address, v, .call, k.label⟩
  | jump {v : UInt64} {k : KnownSymbol} :
      Names i v → b.symbols[v]? = some k → i.flow = .jump →
      IsEdge b i ⟨some i.address, v, .jump, k.label⟩
  | function {v : UInt64} {k : KnownSymbol} :
      Names i v → b.symbols[v]? = some k → i.flow = .other → k.isFunction = true →
      IsEdge b i ⟨some i.address, v, .symbolAddress, k.label⟩
  | object {v : UInt64} {k : KnownSymbol} :
      Names i v → b.symbols[v]? = some k → i.flow = .other → k.isFunction = false →
      IsEdge b i ⟨some i.address, v, .data, k.label⟩
  | string {v : UInt64} {content : String} :
      Names i v → b.strings[v]? = some content →
      IsEdge b i ⟨some i.address, v, .stringPointer, content⟩

theorem mem_edgesTo {v : UInt64} {r : CrossReference} :
    r ∈ b.edgesTo i v ↔
      (∃ k, b.symbols[v]? = some k ∧
        ⟨some i.address, v, symbolEdgeKind i.flow k.isFunction, k.label⟩ = r) ∨
      ∃ content, b.strings[v]? = some content ∧
        ⟨some i.address, v, .stringPointer, content⟩ = r := by
  simp only [edgesTo, List.mem_append, Option.mem_toList, Option.map_eq_some_iff]

theorem isEdge_iff {r : CrossReference} : IsEdge b i r ↔ ∃ v, Names i v ∧ r ∈ b.edgesTo i v := by
  constructor
  · intro h
    cases h with
    | call hnames hk hflow =>
        exact ⟨_, hnames, mem_edgesTo.2 (.inl ⟨_, hk, by rw [hflow, symbolEdgeKind]⟩)⟩
    | jump hnames hk hflow =>
        exact ⟨_, hnames, mem_edgesTo.2 (.inl ⟨_, hk, by rw [hflow, symbolEdgeKind]⟩)⟩
    | function hnames hk hflow hfunction =>
        exact ⟨_, hnames, mem_edgesTo.2 (.inl ⟨_, hk, by rw [hflow, hfunction]; rfl⟩)⟩
    | object hnames hk hflow hfunction =>
        exact ⟨_, hnames, mem_edgesTo.2 (.inl ⟨_, hk, by rw [hflow, hfunction]; rfl⟩)⟩
    | string hnames hcontent =>
        exact ⟨_, hnames, mem_edgesTo.2 (.inr ⟨_, hcontent, rfl⟩)⟩
  · rintro ⟨v, hnames, hr⟩
    rcases mem_edgesTo.1 hr with ⟨k, hk, rfl⟩ | ⟨content, hcontent, rfl⟩
    · cases hflow : i.flow with
      | call => exact .call hnames hk hflow
      | jump => exact .jump hnames hk hflow
      | other =>
          cases hfunction : k.isFunction with
          | true => exact .function hnames hk hflow hfunction
          | false => exact .object hnames hk hflow hfunction
    · exact .string hnames hcontent

theorem symbolEdgeKind_ne_stringPointer (flow : Flow) (isFunction : Bool) :
    symbolEdgeKind flow isFunction ≠ .stringPointer := by
  cases flow <;> cases isFunction <;> simp [symbolEdgeKind]

/-- The edges to symbols and those to strings differ in kind, so that a key tells what an edge is. -/
theorem IsEdge.eq_of_key_eq {r r' : CrossReference} (h : IsEdge b i r) (h' : IsEdge b i r')
    (hkey : r.key = r'.key) : r = r' := by
  obtain ⟨htarget, hkind⟩ : r.target = r'.target ∧ r.kind = r'.kind := Prod.mk.inj hkey
  obtain ⟨v, -, hr⟩ := isEdge_iff.1 h
  obtain ⟨v', -, hr'⟩ := isEdge_iff.1 h'
  rcases mem_edgesTo.1 hr with ⟨k, hk, rfl⟩ | ⟨content, hcontent, rfl⟩ <;>
    rcases mem_edgesTo.1 hr' with ⟨k', hk', rfl⟩ | ⟨content', hcontent', rfl⟩ <;>
    dsimp only at htarget hkind
  · rw [htarget, hk'] at hk
    rw [htarget, Option.some.inj hk]
  · exact absurd hkind (symbolEdgeKind_ne_stringPointer i.flow k.isFunction)
  · exact absurd hkind.symm (symbolEdgeKind_ne_stringPointer i.flow k'.isFunction)
  · rw [htarget, hcontent'] at hcontent
    rw [htarget, Option.some.inj hcontent]

/-- With no symbol and no string there is nothing to refer to, which is why the pass may be left out. -/
theorem not_isEdge_of_isEmpty {r : CrossReference} (hsymbols : b.symbols.isEmpty = true)
    (hstrings : b.strings.isEmpty = true) : ¬IsEdge b i r := by
  intro h
  obtain ⟨v, -, hr⟩ := isEdge_iff.1 h
  rcases mem_edgesTo.1 hr with ⟨k, hk, -⟩ | ⟨content, hcontent, -⟩
  · rw [Std.HashMap.getElem?_of_isEmpty hsymbols] at hk
    cases hk
  · rw [Std.HashMap.getElem?_of_isEmpty hstrings] at hcontent
    cases hcontent

def candidates (b : XrefBuilder) (i : Instruction) : List CrossReference :=
  i.operands.flatMap fun o => (operandValues o).flatMap (b.edgesTo i)

theorem mem_candidates {r : CrossReference} : r ∈ b.candidates i ↔ IsEdge b i r := by
  rw [isEdge_iff]
  simp only [candidates, List.mem_flatMap, Names]
  constructor
  · rintro ⟨o, ho, v, hv, hr⟩
    exact ⟨v, ⟨o, ho, hv⟩, hr⟩
  · rintro ⟨v, ⟨o, ho, hv⟩, hr⟩
    exact ⟨o, ho, v, hv, hr⟩

/-- What the nested passes over operands and values do is one pass over the candidates. -/
theorem addEdges_records (b : XrefBuilder) (i : Instruction) (x : XrefIndex) :
    ∃ added pass, EdgePass.Records x (b.candidates i) added pass ∧ b.addEdges i x = pass.index := by
  obtain ⟨added, h⟩ := (EdgePass.records_nil x).addAll (b.candidates i)
  exact ⟨added, _, h, by simp only [addEdges, candidates, List.foldl_flatMap]⟩

/-- Each edge is taken once. -/
theorem addEdges_eq (b : XrefBuilder) (i : Instruction) (x : XrefIndex) :
    ∃ added : List CrossReference, b.addEdges i x = added.foldl XrefIndex.push x ∧
      (added.map CrossReference.key).Nodup ∧ ∀ r, r ∈ added ↔ IsEdge b i r := by
  obtain ⟨added, pass, h, hpass⟩ := b.addEdges_records i x
  refine ⟨added, hpass.trans h.index_eq, h.nodup, fun r => ⟨fun hr => ?_, fun hr => ?_⟩⟩
  · exact mem_candidates.1 (h.sublist.subset hr)
  · obtain ⟨s, hs, hkey⟩ := List.mem_map.1 (h.covers r (mem_candidates.2 hr))
    have hedge : IsEdge b i s := mem_candidates.1 (h.sublist.subset hs)
    rw [← hedge.eq_of_key_eq hr hkey]
    exact hs

/-- An instruction is counted, and then its edges go behind what is there: none when its bytes are not
decoded. -/
theorem addInstruction_eq (b : XrefBuilder) (i : Instruction) :
    ∃ added : List CrossReference,
      b.addInstruction i =
        { b with
          index := added.foldl XrefIndex.push { b.index with scanned := b.index.scanned + 1 } } ∧
      (added.map CrossReference.key).Nodup ∧
      ∀ r, r ∈ added ↔ i.isBad = false ∧ IsEdge b i r := by
  cases hbad : i.isBad with
  | true => exact ⟨[], by simp [addInstruction, hbad], .nil, by simp⟩
  | false =>
      by_cases hnone : b.symbols.isEmpty = true ∧ b.strings.isEmpty = true
      · refine ⟨[], by simp [addInstruction, hnone], .nil, fun r => ?_⟩
        simp [not_isEdge_of_isEmpty hnone.1 hnone.2]
      · obtain ⟨added, hadded, hnodup, hmem⟩ :=
          b.addEdges_eq i { b.index with scanned := b.index.scanned + 1 }
        refine ⟨added, ?_, hnodup, fun r => by simp [hmem r]⟩
        have hguard : ¬(i.isBad || (b.symbols.isEmpty && b.strings.isEmpty)) = true := by
          simpa [hbad] using hnone
        simp only [addInstruction, if_neg hguard, hadded]

/-- What an instruction adds: nothing when its bytes are not decoded, else its edges, one for each value
and kind. -/
theorem addInstruction_toList (b : XrefBuilder) (i : Instruction) :
    ∃ added, (b.addInstruction i).finish.toList = b.finish.toList ++ added ∧
      (added.map fun r => (r.target, r.kind)).Nodup ∧
      ∀ r, r ∈ added ↔ i.isBad = false ∧ IsEdge b i r := by
  obtain ⟨added, hadded, hnodup, hmem⟩ := b.addInstruction_eq i
  refine ⟨added, ?_, hnodup, hmem⟩
  rw [hadded, finish, XrefIndex.toList_foldl_push]
  rfl

end XrefBuilder

end ElfAtlas
