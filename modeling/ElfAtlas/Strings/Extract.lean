import ElfAtlas.Strings.Attribution
import ElfAtlas.Strings.Runs

/-!
Strings of an image or of one section, each with the section that owns it and the address it is loaded
at. Extraction asks for cancellation before every step, and a step passes a bounded number of bytes.
-/

namespace ElfAtlas

structure ExtractedString where
  content : String
  offset : UInt64
  sectionName : Option String
  address : Option UInt64
  deriving DecidableEq, Repr

namespace ExtractedString

/-- How many bytes without a run are passed between two checks for cancellation. -/
def pollBytes : Nat := 1 <<< 20

def ofRun (index : SectionIndex) (base : UInt64) (run : Run) : ExtractedString :=
  let offset := base + UInt64.ofNat run.offset
  let owner := index.owner? offset.toNat
  { content := Utf8.decode run.bytes
    offset
    sectionName := owner.map (·.name)
    address := owner.bind (·.addressOf? offset) }

/-- Goes on with a scan; `kept` strings are found and their contents `seen`. -/
def gather (index : SectionIndex) (base : UInt64) (cap : Option Nat) (cancelled : Bool) (s : Runs)
    (kept : Nat) (seen : Std.HashSet (List UInt8)) : Except Fault (List ExtractedString) :=
  if cancelled then .error .cancelled
  else
    match _h : s.next (some (s.pos + pollBytes)) with
    | (none, s') => if _hd : s'.isDone then .ok [] else gather index base cap cancelled s' kept seen
    | (some run, s') =>
      if cap.any (· ≤ kept) then .ok []
      else if seen.contains run.bytes then gather index base cap cancelled s' kept seen
      else
        (gather index base cap cancelled s' (kept + 1) (seen.insert run.bytes)).map
          (ofRun index base run :: ·)
termination_by s.rest.length
decreasing_by
  all_goals
    have := s.next_cases (some (s.pos + pollBytes))
    simp_all

/-- The strings of `data`, whose first byte is at file position `base`. -/
def ofData (data : List UInt8) (base : UInt64) (minLength : Nat) (cap : Option Nat)
    (t : SectionTable) (cancelled : Bool) : Except Fault (List ExtractedString) :=
  gather (.ofTable t) base cap cancelled (.ofData data minLength) 0 ∅

/-- The strings of one section; a section without file data has none. -/
def ofSection (image : Array UInt8) (s : Section) (minLength : Nat) (cap : Option Nat)
    (t : SectionTable) (cancelled : Bool) : Except Fault (List ExtractedString) := do
  if s.hasFileData then
    let data ← Reader.slice ⟨image, .little⟩ s.offset.toNat s.size.toNat
    ofData data s.offset minLength cap t cancelled
  else return []

end ExtractedString

end ElfAtlas
