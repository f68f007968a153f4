import ElfAtlas.Mangled.Hashed
import ElfAtlas.Mangled.Tagged

/-!
Mangled names of both schemes for Rust, with what may stand around them: the mark of a copy of a function,
and a suffix behind a dot.
-/

namespace ElfAtlas.Mangled

def copyMark : List Char := ".llvm.".toList

def isCopyTag (c : Char) : Bool := c.isDigit || ('A' ≤ c && c ≤ 'F') || c = '@'

/-- The name without the mark of a copy made for another module. Only the first mark counts. -/
def withoutCopyMark (cs : List Char) : List Char :=
  match cs with
  | [] => []
  | c :: rest =>
    if copyMark.isPrefixOf cs then if (cs.drop copyMark.length).all isCopyTag then [] else cs
    else c :: withoutCopyMark rest

def isSuffixChar (c : Char) : Bool := 0x20 < c.toNat && c.toNat < 0x7f

/-- What may follow a name. -/
def isSuffix (cs : List Char) : Bool :=
  cs.isEmpty || (cs.head? = some '.' && cs.all isSuffixChar)

/-- A name of either scheme for Rust. -/
inductive RustName where
  | hashed (elements : List (List Char))
  | tagged (text : Array Char)

namespace RustName

/-- What follows a name has to be its suffix. A name of the older scheme is not tried as one of the
newer. -/
def ofText? (text : List Char) : Option (RustName × List Char) := do
  let text := withoutCopyMark text
  let (name, suffix) ←
    match Hashed.split? text with
    | some (elements, suffix) => some (hashed elements, suffix)
    | none => (Tagged.split? text).map fun (body, suffix) => (tagged body, suffix)
  if isSuffix suffix then some (name, suffix) else none

def render : RustName → String
  | hashed elements => Hashed.render elements
  | tagged text => Tagged.render text

/-- The readable form, if the name is one to its end. -/
def demangle? (name : String) : Option String :=
  (ofText? name.toList).map fun (name, suffix) => name.render ++ String.ofList suffix

end RustName

end ElfAtlas.Mangled
