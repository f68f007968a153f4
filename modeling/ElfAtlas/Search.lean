import ElfAtlas.Code.Instruction
import ElfAtlas.Elf.Symbol
import ElfAtlas.Strings.Extract
import ElfAtlas.Text.Lowercase

/-!
Search for a piece of text in symbols, strings and instructions, whatever its case.
-/

namespace ElfAtlas

inductive MatchCategory where
  | symbol
  | string
  | instruction
  | operand
  deriving DecidableEq, Repr

/-- Matches are listed by category in this order. -/
def MatchCategory.rank : MatchCategory → Nat
  | symbol => 0
  | string => 1
  | instruction => 2
  | operand => 3

inductive SearchFilter where
  | instructions
  | operands
  | strings
  | symbols
  | all
  deriving DecidableEq, Repr

namespace SearchFilter

def wants : SearchFilter → MatchCategory → Bool
  | all, _ => true
  | instructions, c => c = .instruction
  | operands, c => c = .operand
  | strings, c => c = .string
  | symbols, c => c = .symbol

def wantsCode (f : SearchFilter) : Bool := f.wants .instruction || f.wants .operand

end SearchFilter

structure SearchMatch where
  category : MatchCategory
  address : Option UInt64
  offset : Option UInt64
  text : String
  context : String
  deriving DecidableEq, Repr

/-- A query without the blanks around it, in lower case. -/
structure Needle where
  chars : List Char
  deriving DecidableEq, Repr

namespace Needle

/-- An empty query has no needle. -/
def ofQuery? (query : String) : Option Needle :=
  let trimmed := Blank.trim query.toList
  if trimmed.isEmpty then none else some ⟨LetterCase.lower trimmed⟩

def text (n : Needle) : String := String.ofList n.chars

/-- The piece stands somewhere in the text. -/
def occurs (piece : List Char) : List Char → Bool
  | [] => piece.isEmpty
  | c :: rest => piece.isPrefixOf (c :: rest) || occurs piece rest

def isIn (n : Needle) (text : String) : Bool := occurs n.chars (LetterCase.lower text.toList)

end Needle

namespace SearchMatch

def ofSymbol (s : Symbol) : SearchMatch :=
  { category := .symbol, address := some s.value, offset := none, text := s.name,
    context := s.displayName }

def ofString (s : ExtractedString) : SearchMatch :=
  { category := .string, address := s.address, offset := some s.offset, text := s.content,
    context := s.sectionName.getD "" }

/-- Named symbols whose plain or readable name matches. -/
def inSymbols (symbols : List Symbol) (n : Needle) : List SearchMatch :=
  (symbols.filter fun s => s.name ≠ "" && (n.isIn s.name || s.demangled.any n.isIn)).map ofSymbol

def inStrings (strings : List ExtractedString) (n : Needle) : List SearchMatch :=
  (strings.filter fun s => n.isIn s.content).map ofString

/-- The mnemonic and the operand text of an instruction match each by itself. -/
def inInstruction (n : Needle) (filter : SearchFilter) (i : Instruction) : List SearchMatch :=
  let found (category : MatchCategory) (text : String) : List SearchMatch :=
    if filter.wants category && n.isIn text then
      [{ category, address := some i.address, offset := none, text, context := i.text }]
    else []
  if i.isBad then [] else found .instruction i.mnemonic ++ found .operand i.operandText

def inTables (symbols : List Symbol) (strings : List ExtractedString) (n : Needle)
    (filter : SearchFilter) : List SearchMatch :=
  (if filter.wants .symbol then inSymbols symbols n else [])
    ++ if filter.wants .string then inStrings strings n else []

/-- An absent value comes before every other. -/
def optionKey (o : Option UInt64) : Nat :=
  match o with
  | none => 0
  | some n => n.toNat + 1

/-- Category, address and file position, in the order in which they count. -/
def key (m : SearchMatch) : List Nat := [m.category.rank, optionKey m.address, optionKey m.offset]

/-- The first place where keys of one length differ decides. -/
def keyLe : List Nat → List Nat → Bool
  | m :: ms, n :: ns => m < n || (m = n && keyLe ms ns)
  | _, _ => true

def le (a b : SearchMatch) : Bool := keyLe a.key b.key

/-- Sorted; matches that tie keep their order. -/
def sort (found : List SearchMatch) : List SearchMatch := found.mergeSort le

end SearchMatch

end ElfAtlas
