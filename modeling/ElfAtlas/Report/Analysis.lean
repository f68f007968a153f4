import ElfAtlas.Analysis.Session
import ElfAtlas.Report.Fault
import ElfAtlas.Report.File

/-!
Results as JSON: instructions, a whole analysis, the index of cross-references, and the matches of a search.
-/

namespace ElfAtlas

def OperandKind.toJson : OperandKind → Json
  | register => .string "Register"
  | immediate => .string "Immediate"
  | memory => .string "Memory"
  | other => .string "Other"

def Operand.toJson (o : Operand) : Json :=
  .object
    [("kind", o.kind.toJson), ("text", .string o.text), ("register", .option .string o.register),
      ("immediate", .option (.int ·.toInt) o.immediate),
      ("displacement", .option (.int ·.toInt) o.displacement), ("base", .option .string o.base),
      ("index", .option .string o.index), ("target", .option (.nat ·.toNat) o.target)]

def Instruction.toJson (i : Instruction) : Json :=
  .object
    [("address", .nat i.address.toNat), ("bytes", .list (.nat ·.toNat) i.bytes),
      ("mnemonic", .string i.mnemonic), ("op_str", .string i.operandText),
      ("operands", .list Operand.toJson i.operands)]

def ExtractedString.toJson (s : ExtractedString) : Json :=
  .object
    [("content", .string s.content), ("offset", .nat s.offset.toNat),
      ("section", .option .string s.sectionName), ("address", .option (.nat ·.toNat) s.address)]

def Analysis.toJson (a : Analysis) : Json :=
  .object
    [("header", a.header.toJson), ("program_headers", .list Segment.toJson a.segments),
      ("sections", a.sections.toJson), ("symbols", .list Symbol.toJson a.symbols),
      ("relocations", .list Relocation.toJson a.relocations),
      ("dynamic", .option DynamicInfo.toJson a.dynamic),
      ("strings", .list ExtractedString.toJson a.strings), ("sha256", .string a.sha256),
      ("diagnostics", .list Diagnostic.toJson a.diagnostics)]

def XrefKind.toJson : XrefKind → Json
  | symbolDefinition => .string "SymbolDefinition"
  | stringLocation => .string "StringLocation"
  | call => .string "Call"
  | jump => .string "Jump"
  | stringPointer => .string "StringPointer"
  | symbolAddress => .string "SymbolAddress"
  | data => .string "Data"

def CrossReference.toJson (r : CrossReference) : Json :=
  .object
    [("from", .option (.nat ·.toNat) r.source), ("to", .nat r.target.toNat),
      ("kind", r.kind.toJson), ("label", .string r.label)]

def XrefIndex.toJson (x : XrefIndex) : Json :=
  .object
    [("refs", .list CrossReference.toJson x.toList),
      ("diagnostics", .list Diagnostic.toJson x.diagnostics),
      ("instructions_scanned", .nat x.scanned)]

def MatchCategory.toJson : MatchCategory → Json
  | symbol => .string "Symbol"
  | string => .string "String"
  | instruction => .string "Instruction"
  | operand => .string "Operand"

def SearchMatch.toJson (m : SearchMatch) : Json :=
  .object
    [("category", m.category.toJson), ("address", .option (.nat ·.toNat) m.address),
      ("offset", .option (.nat ·.toNat) m.offset), ("text", .string m.text),
      ("context", .string m.context)]

namespace SearchFilter

def names : List (String × SearchFilter) :=
  [("Instructions", instructions), ("Operands", operands), ("Strings", strings),
    ("Symbols", symbols), ("All", all)]

def ofJson? (j : Json) : Option SearchFilter := j.unnamed? names

end SearchFilter

end ElfAtlas
