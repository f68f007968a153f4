import ElfAtlas.ByteOrder
import ElfAtlas.Code.Architecture
import ElfAtlas.Code.Instruction

/-!
The boundary to instruction decoders. An engine opens a decoder for each stream; a decoder may keep a
state `δ` of its own, and all openings share the state `σ`.
-/

namespace ElfAtlas

structure Engine (σ δ : Type) where
  name : String
  supports : Architecture → Bool
  /-- A decoder for one stream, or the reason why there is none. -/
  start : Architecture → ByteOrder → σ → Except Fault δ × σ
  /-- The instruction at the front of the code, which lies at the address. -/
  decode : δ → List UInt8 → UInt64 → Option Instruction × δ

/-- A decoder without a state. -/
abbrev PureDecoder := List UInt8 → UInt64 → Option Instruction

/-- How many more decoders an engine opens; absent when there is no bound. -/
abbrev OpenBudget := Option Nat

namespace Engine

def unsupported (arch : Architecture) : Fault := .unsupportedArchitecture arch.label

/-- Opens the same stateless decoder every time, as often as the budget allows. Every attempt uses the
budget up, also one for an architecture that is not served. -/
def ofDecoder (name : String) (supports : Architecture → Bool)
    (decoder : Architecture → ByteOrder → PureDecoder) : Engine OpenBudget PureDecoder where
  name := name
  supports := supports
  start arch order budget :=
    match budget with
    | some 0 => (.error (unsupported arch), budget)
    | _ =>
      (if supports arch then .ok (decoder arch order) else .error (unsupported arch),
        budget.map (· - 1))
  decode d code address := (d code address, d)

end Engine

end ElfAtlas
