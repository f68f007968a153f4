/-!
Readable forms of mangled names. Two demanglers know the schemes of mangling; which of them is asked, and
about what part of a name, is decided here. A version behind an at sign does not belong to the name.
-/

namespace ElfAtlas

inductive NameFlavor where
  | rust
  | itanium
  | unknown
  deriving DecidableEq, Repr

/-- The demanglers for names without a version. -/
structure Demanglers where
  /-- The readable form of a Rust name, without its hash; absent for any other name. -/
  rust? : String → Option String
  /-- The readable form of a name of the Itanium scheme, if it can be read and written. -/
  itanium? : String → Option String

namespace Mangled

/-- The name in front of its version. An at sign at the very start begins no version. -/
def withoutVersion (name : List Char) : List Char :=
  if name.head? = some '@' then name else name.takeWhile (· ≠ '@')

/-- What stands behind one of the prefixes; the first that fits counts. -/
def afterFirst? (prefixes : List String) (cs : List Char) : Option (List Char) :=
  (prefixes.find? fun p => p.toList.isPrefixOf cs).map fun p => cs.drop p.length

def isAscii (c : Char) : Bool := c.toNat < 0x80

/-- The number that decimal digits write. -/
def decimal (digits : List Char) : Nat := digits.foldl (fun n c => 10 * n + (c.toNat - 48)) 0

/-- The characters of an identifier. -/
def isNameChar (c : Char) : Bool := c.isAlphanum || c = '_' || c = '.' || c = '$'

/-- The shape of the names of C++ and of other languages with that scheme. -/
def looksItanium (name : List Char) : Bool :=
  match afterFirst? ["_Z", "__Z"] name with
  | some rest => !rest.isEmpty && rest.all isNameChar
  | none => false

end Mangled

namespace Demanglers

/-- The flavour tells the shape of a name; there may be no readable form. -/
def flavor (d : Demanglers) (name : String) : NameFlavor :=
  let text := Mangled.withoutVersion name.toList
  if (d.rust? (String.ofList text)).isSome then .rust
  else if Mangled.looksItanium text then .itanium
  else .unknown

/-- A name of Rust is not tried as one of the other scheme. -/
def demangle? (d : Demanglers) (name : String) : Option (String × NameFlavor) :=
  let text := Mangled.withoutVersion name.toList
  match d.rust? (String.ofList text) with
  | some readable => some (readable, .rust)
  | none =>
    if Mangled.looksItanium text then (d.itanium? (String.ofList text)).map (·, .itanium) else none

def readable? (d : Demanglers) (name : String) : Option String := (d.demangle? name).map (·.1)

end Demanglers

end ElfAtlas
