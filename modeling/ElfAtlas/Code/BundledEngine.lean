import ElfAtlas.Code.Capstone
import ElfAtlas.Code.Iced

/-!
The engine that comes with the library. It is built on two disassemblers.
-/

namespace ElfAtlas

structure Disassemblers where
  iced : Iced
  capstone : Capstone

namespace BundledEngine

/-- What decodes an architecture, for display. -/
def backendName : Architecture → String
  | .x86 | .x86_64 => "iced-x86"
  | .arm64 | .arm32 => "capstone"

/-- A report that the decoder for Arm has no result for counts as undecodable here. -/
def decoder (l : Disassemblers) (arch : Architecture) (order : ByteOrder) :
    Except Fault PureDecoder :=
  match arch with
  | .x86 | .x86_64 =>
    match IcedDecoder.new? l.iced arch with
    | some d => .ok d.decode
    | none => .error (.unsupportedArchitecture arch.label)
  | .arm64 | .arm32 =>
    (CapstoneDecoder.new l.capstone arch order).map fun d code address => (d.decode? code address).join

def supports (_ : Architecture) : Bool := true

/-- Opens as many decoders as are asked for. -/
def engine (l : Disassemblers) : Engine OpenBudget PureDecoder where
  name := "engines"
  supports := supports
  start arch order budget := (decoder l arch order, budget)
  decode d code address := (d code address, d)

end BundledEngine

end ElfAtlas
