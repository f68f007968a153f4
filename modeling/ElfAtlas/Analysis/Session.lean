import ElfAtlas.Analysis.CodeWalk
import ElfAtlas.Search
import ElfAtlas.Xref.Builder

/-!
Questions about code across a whole file: cross-references and search. A session keeps the state that
the openings of decoders share, and builds the index of cross-references once.
-/

namespace ElfAtlas

namespace Analysis

variable {σ δ : Type}

/-- The index over all code. A fault that ends the walk is noted in it; a walk that overflows leaves no
index. -/
def buildXrefs (e : Engine σ δ) (a : Analysis) (shared : σ) : Option XrefIndex × σ :=
  let seeded := XrefBuilder.seed a.symbols a.strings
  let note (b : XrefBuilder) (fault : Fault) := b.addDiagnostic ⟨.crossReferences, fault⟩
  match a.architecture with
  | .error fault => (some (note seeded fault).finish, shared)
  | .ok arch =>
    let (w, shared) := walkCode e a arch none shared
    let b := w.seen.foldl XrefBuilder.addInstruction seeded
    match w.halt with
    | none => (some b.finish, shared)
    | some (.fault fault) => (some (note b fault).finish, shared)
    | some .overflow => (none, shared)

/-- The matches in code. A fault only ends the walk; a walk that overflows gives no result. The bound is at
least one instruction in valid settings. Under a bound of zero, which only settings that were never
validated have, no instruction is looked at here, where the first one should be. -/
def searchCode (e : Engine σ δ) (a : Analysis) (n : Needle) (filter : SearchFilter) (shared : σ) :
    Option (List SearchMatch) × σ :=
  if filter.wantsCode then
    match a.architecture with
    | .error _ => (some [], shared)
    | .ok arch =>
      let (w, shared) := walkCode e a arch (some a.config.search.maxInstructions.toNat) shared
      if w.halt = some .overflow then (none, shared)
      else (some (w.seen.flatMap (SearchMatch.inInstruction n filter)), shared)
  else (some [], shared)

/-- All matches in order, or the first of them if the settings bound their number. -/
def search (e : Engine σ δ) (a : Analysis) (query : String) (filter : SearchFilter) (shared : σ) :
    Option (List SearchMatch) × σ :=
  match Needle.ofQuery? query with
  | none => (some [], shared)
  | some n =>
    let (code, shared) := searchCode e a n filter shared
    let listed := code.map fun code =>
      SearchMatch.sort (SearchMatch.inTables a.symbols a.strings n filter ++ code)
    match a.config.search.maxResults with
    | none => (listed, shared)
    | some most => (listed.map (·.take most.toNat), shared)

end Analysis

structure Session (σ δ : Type) where
  engine : Engine σ δ
  analysis : Analysis
  shared : σ
  index : Option XrefIndex := none

namespace Session

variable {σ δ : Type}

/-- The index of cross-references, built if there is none yet. -/
def xrefs (s : Session σ δ) : Option XrefIndex × Session σ δ :=
  match s.index with
  | some index => (some index, s)
  | none =>
    let (index, shared) := s.analysis.buildXrefs s.engine s.shared
    (index, { s with shared, index })

def search (s : Session σ δ) (query : String) (filter : SearchFilter) :
    Option (List SearchMatch) × Session σ δ :=
  let (found, shared) := s.analysis.search s.engine query filter s.shared
  (found, { s with shared })

end Session

end ElfAtlas
