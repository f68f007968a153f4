import ElfAtlas.Config
import ElfAtlas.Elf.Dynamic
import ElfAtlas.Elf.Relocation
import ElfAtlas.Elf.Segment
import ElfAtlas.Elf.Symbol
import ElfAtlas.Strings.Extract

/-!
One run over an image: the header, then the tables, then the digest. A bad setting, a cancelled run or
a bad header ends the run; every other fault becomes a diagnostic beside the results.
-/

namespace ElfAtlas

/-! Cooperative cancellation. A source hands out tokens; all copies of a token watch the same source, and
a source once cancelled stays so. -/

/-- Names the source that it watches. -/
structure CancelToken where
  source : Nat
  deriving DecidableEq, Repr

/-- One flag for each source, in the order in which they were made. -/
structure CancelSources where
  cancelled : Array Bool := #[]

namespace CancelSources

def make (s : CancelSources) : CancelToken × CancelSources :=
  (⟨s.cancelled.size⟩, ⟨s.cancelled.push false⟩)

def cancel (s : CancelSources) (t : CancelToken) : CancelSources :=
  ⟨s.cancelled.setIfInBounds t.source true⟩

def isCancelled (s : CancelSources) (t : CancelToken) : Bool :=
  s.cancelled.getD t.source false

def check (s : CancelSources) (t : CancelToken) : Except Fault Unit :=
  if s.isCancelled t then .error .cancelled else .ok ()

end CancelSources

/-! Work that outlasts its limit is given up, and the fault names the limit in whole seconds. -/

structure TimeLimit where
  millis : Nat
  warns : Bool := true
  operation : String
  deriving DecidableEq, Repr

namespace TimeLimit

def ofSeconds (seconds : Nat) (operation : String) : TimeLimit :=
  { millis := 1000 * seconds, operation }

def fast (operation : String) : TimeLimit := ofSeconds 10 operation

def standard (operation : String) : TimeLimit := ofSeconds 300 operation

/-- The outcome of work that takes `duration` milliseconds. -/
def bound {α : Type} (limit : TimeLimit) (duration : Nat) (outcome : Except Fault α) :
    Except Fault α :=
  if duration ≤ limit.millis then outcome else .error (.timedOut (limit.millis / 1000))

end TimeLimit

/-- What a run takes from other libraries. -/
structure Libraries extends Demanglers where
  /-- The SHA-256 digest of a byte string. -/
  sha256 : List UInt8 → List UInt8

/-- The digest as hex digits. -/
def Libraries.digest (l : Libraries) (data : List UInt8) : String := Hex.ofBytes (l.sha256 data)

structure Analysis where
  image : Array UInt8
  header : FileHeader
  segments : List Segment
  sections : SectionTable
  symbols : List Symbol
  relocations : List Relocation
  dynamic : Option DynamicInfo
  strings : List ExtractedString
  sha256 : String
  diagnostics : List Diagnostic
  config : Config

namespace Analysis

def diagnose (stage : Stage) (faults : List Fault) : List Diagnostic := faults.map (⟨stage, ·⟩)

/-- The strings that the settings ask for. A section that is not there has none, and the bound on
results holds for the whole image only. -/
def scopedStrings (c : StringsConfig) (image : Array UInt8) (t : SectionTable) (cancelled : Bool) :
    Except Fault (List ExtractedString) :=
  match c.scope with
  | .wholeImage =>
    ExtractedString.ofData image.toList 0 c.minLength.toNat (c.maxResults.map (·.toNat)) t cancelled
  | .ofSection name =>
    match t.byName? name with
    | some s => ExtractedString.ofSection image s c.minLength.toNat none t cancelled
    | none => .ok []

/-- Only cancellation ends the run here. -/
def stringStage (c : StringsConfig) (image : Array UInt8) (t : SectionTable) (cancelled : Bool) :
    Except Fault (List ExtractedString × List Fault) :=
  match scopedStrings c image t cancelled with
  | .ok strings => .ok (strings, [])
  | .error .cancelled => .error .cancelled
  | .error fault => .ok ([], [fault])

def run (l : Libraries) (c : Config) (cancelled : Bool) (image : Array UInt8) :
    Except Fault Analysis := do
  c.validate
  if cancelled then throw .cancelled
  let header ← FileHeader.parse image
  let r := header.reader image
  let counts := TableCounts.resolve r header
  let (segments, segmentFaults) := Segment.table r header counts.segments
  let (sections, sectionFaults) := SectionTable.parse r header counts
  let (symbols, symbolFaults) := Symbol.extract l.toDemanglers c.demangle r header sections
  let (relocations, relocationFaults) := Relocation.extract r header sections symbols
  let (dynamic, dynamicFaults) := DynamicInfo.parse r header sections
  let (strings, stringFaults) ← stringStage c.strings image sections cancelled
  return {
    image
    header
    segments
    sections
    symbols
    relocations
    dynamic
    strings
    sha256 := l.digest image.toList
    diagnostics :=
      diagnose .programHeaders segmentFaults ++ diagnose .sectionHeaders sectionFaults
        ++ diagnose .symbols symbolFaults ++ diagnose .relocations relocationFaults
        ++ diagnose .dynamic dynamicFaults ++ diagnose .strings stringFaults
    config := c }

/-- The architecture of the settings, else that of the machine the file is for. -/
def architecture (a : Analysis) : Except Fault Architecture :=
  match a.config.disasm.architecture with
  | some arch => .ok arch
  | none => Architecture.ofMachine a.header.machine

def imports (a : Analysis) : List Symbol := Symbol.imports a.symbols

def exports (a : Analysis) : List Symbol := Symbol.exports a.symbols

/-- The bytes of a named section, if there is one and they can be read. -/
def sectionData? (a : Analysis) (name : String) : Option (List UInt8) := do
  let s ← a.sections.byName? name
  (SectionTable.data (a.header.reader a.image) s).toOption

/-- All strings of a named section; a section that is not there has none. -/
def stringsIn (a : Analysis) (name : String) : Except Fault (List ExtractedString) :=
  match a.sections.byName? name with
  | none => .ok []
  | some s =>
    ExtractedString.ofSection a.image s a.config.strings.minLength.toNat none a.sections false

end Analysis

end ElfAtlas
