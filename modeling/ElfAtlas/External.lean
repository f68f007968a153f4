import ElfAtlas.Analysis.Basic
import ElfAtlas.Code.Arm.A32
import ElfAtlas.Code.Arm.A64
import ElfAtlas.Code.BundledEngine
import ElfAtlas.Code.X86.Decode
import ElfAtlas.Digest
import ElfAtlas.Mangled.Itanium
import ElfAtlas.Mangled.Rust

/-!
What runs in place of other libraries: the demanglers, the digest and the disassemblers. No definition
of the analysis refers to them.
-/

namespace ElfAtlas.External

def libraries : Libraries where
  rust? := Mangled.RustName.demangle?
  itanium? := Mangled.Itanium.demangle?
  sha256 := Digest.sha256

def iced : Iced := fun bits => X86.report? (if bits = 32 then .bits32 else .bits64)

def capstone : Capstone
  | .arm64, order => .ok (Arm.A64.handle order)
  | .arm32, order => .ok (Arm.A32.handle order)
  | .x86, _ | .x86_64, _ => .error "Invalid/unsupported architecture"

def disassemblers : Disassemblers := { iced, capstone }

end ElfAtlas.External
