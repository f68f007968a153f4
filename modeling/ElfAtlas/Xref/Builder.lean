import Std.Data.HashSet
import ElfAtlas.Code.Instruction
import ElfAtlas.Elf.Symbol
import ElfAtlas.Strings.Extract
import ElfAtlas.Xref.Index

/-!
Building the index: annotations for functions and strings first, then an edge for every operand of an
instruction that names one of them.
-/

namespace ElfAtlas

structure KnownSymbol where
  label : String
  isFunction : Bool
  deriving DecidableEq, Repr

structure XrefBuilder where
  index : XrefIndex := {}
  symbols : Std.HashMap UInt64 KnownSymbol := ∅
  strings : Std.HashMap UInt64 String := ∅

/-- An index in the middle of an instruction, with the values that have an edge, each with the kind of
that edge. -/
structure EdgePass where
  index : XrefIndex
  emitted : Std.HashSet (UInt64 × XrefKind) := ∅

/-- A second edge of one kind to one value is left out. -/
def EdgePass.add (pass : EdgePass) (r : CrossReference) : EdgePass :=
  if pass.emitted.contains (r.target, r.kind) then pass
  else
    { index := pass.index.push r
      emitted := pass.emitted.insert (r.target, r.kind) }

namespace XrefBuilder

/-- Only functions and data objects that are defined and named take part. -/
def isEligible (s : Symbol) : Bool :=
  s.isDefined && s.name ≠ "" && (s.isFunction || s.kind = .object)

/-- The first symbol of a name keeps it. -/
def addName (names : Std.HashMap String UInt64) (name : String) (value : UInt64) :
    Std.HashMap String UInt64 :=
  names.insertIfNew name value

/-- The first symbol at an address names it, but a function takes the place of an object. -/
def addKnown (known : Std.HashMap UInt64 KnownSymbol) (s : Symbol) :
    Std.HashMap UInt64 KnownSymbol :=
  match known[s.value]? with
  | none => known.insert s.value ⟨s.displayName, s.isFunction⟩
  | some k =>
    if s.isFunction && !k.isFunction then known.insert s.value ⟨s.displayName, true⟩ else known

def addSymbol (b : XrefBuilder) (s : Symbol) : XrefBuilder :=
  if isEligible s then
    let names := addName b.index.names s.name s.value
    let names :=
      match s.demangled with
      | some readable => addName names readable s.value
      | none => names
    let index := { b.index with names }
    { b with
      symbols := addKnown b.symbols s
      index :=
        if s.isFunction then
          index.push
            { source := none, target := s.value, kind := .symbolDefinition, label := s.displayName }
        else index }
  else b

def addString (b : XrefBuilder) (s : ExtractedString) : XrefBuilder :=
  match s.address with
  | none => b
  | some address =>
    { b with
      strings := b.strings.insertIfNew address s.content
      index :=
        b.index.push
          { source := none, target := address, kind := .stringLocation, label := s.content } }

/-- A builder that knows these symbols and strings. -/
def seed (symbols : List Symbol) (strings : List ExtractedString) : XrefBuilder :=
  strings.foldl addString (symbols.foldl addSymbol {})

/-- The digits of the hexadecimal literals in a text, from left to right, each as long as it goes. -/
def hexLiterals : List Char → List (List Char)
  | [] => []
  | c :: rest =>
    let digits := (rest.drop 1).takeWhile Hex.isDigit
    if c = '0' ∧ (rest.head? = some 'x' ∨ rest.head? = some 'X') ∧ digits ≠ [] then
      digits :: hexLiterals ((rest.drop 1).dropWhile Hex.isDigit)
    else hexLiterals rest
termination_by cs => cs.length
decreasing_by
  · have := (List.dropWhile_sublist (l := rest.drop 1) Hex.isDigit).length_le
    simp only [List.length_drop] at this
    simp only [List.length_cons]
    omega
  · simp

/-- The addresses that an operand may refer to: its target, its immediate, and the literals of its text
that fit in a word. None is listed twice. -/
def operandValues (o : Operand) : List UInt64 :=
  let literals := (hexLiterals o.text.toList).filterMap fun digits =>
    ((Hex.ofDigits? digits).filter (· < UInt64.size)).map UInt64.ofNat
  (o.target.toList ++ (o.immediate.map Int64.toUInt64).toList ++ literals).eraseDups

def symbolEdgeKind (flow : Flow) (isFunction : Bool) : XrefKind :=
  match flow with
  | .call => .call
  | .jump => .jump
  | .other => if isFunction then .symbolAddress else .data

/-- The edges from an instruction to one value: to the symbol there, then to the string there. -/
def edgesTo (b : XrefBuilder) (i : Instruction) (value : UInt64) : List CrossReference :=
  let symbolEdge := b.symbols[value]?.map fun k =>
    { source := some i.address, target := value, kind := symbolEdgeKind i.flow k.isFunction,
      label := k.label : CrossReference }
  let stringEdge := b.strings[value]?.map fun content =>
    { source := some i.address, target := value, kind := .stringPointer, label := content :
      CrossReference }
  symbolEdge.toList ++ stringEdge.toList

/-- Takes the edges of an instruction into an index: operand by operand, and value by value. -/
def addEdges (b : XrefBuilder) (i : Instruction) (index : XrefIndex) : XrefIndex :=
  let pass := i.operands.foldl
    (fun pass o =>
      (operandValues o).foldl (fun pass v => (b.edgesTo i v).foldl EdgePass.add pass) pass)
    { index := index }
  pass.index

/-- Undecoded bytes are counted, but refer to nothing. -/
def addInstruction (b : XrefBuilder) (i : Instruction) : XrefBuilder :=
  let index := { b.index with scanned := b.index.scanned + 1 }
  if i.isBad || (b.symbols.isEmpty && b.strings.isEmpty) then { b with index }
  else { b with index := b.addEdges i index }

def addDiagnostic (b : XrefBuilder) (d : Diagnostic) : XrefBuilder :=
  { b with index := { b.index with diagnostics := b.index.diagnostics ++ [d] } }

def finish (b : XrefBuilder) : XrefIndex := b.index

end XrefBuilder

end ElfAtlas
