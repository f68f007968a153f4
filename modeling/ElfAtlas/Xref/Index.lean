import Std.Data.HashMap
import ElfAtlas.Fault

/-!
Cross-references in one arena, with maps from addresses to places in the arena, so that a look-up in
either direction does not go through all of them.
-/

namespace ElfAtlas

inductive XrefKind where
  | symbolDefinition
  | stringLocation
  | call
  | jump
  | stringPointer
  | symbolAddress
  | data
  deriving DecidableEq, Hashable, Repr

/-- Annotations of symbols and strings have no source. -/
structure CrossReference where
  source : Option UInt64
  target : UInt64
  kind : XrefKind
  label : String
  deriving DecidableEq, Repr

/-- For an address, the places in the arena of the references on that side, in order. -/
abbrev PlaceMap := Std.HashMap UInt64 (Array Nat)

def PlaceMap.add (m : PlaceMap) (address : UInt64) (place : Nat) : PlaceMap :=
  m.insert address ((m.getD address #[]).push place)

structure XrefIndex where
  refs : Array CrossReference := #[]
  byTarget : PlaceMap := ∅
  bySource : PlaceMap := ∅
  names : Std.HashMap String UInt64 := ∅
  diagnostics : List Diagnostic := []
  scanned : Nat := 0

namespace XrefIndex

def toList (x : XrefIndex) : List CrossReference := x.refs.toList

def size (x : XrefIndex) : Nat := x.refs.size

def isEmpty (x : XrefIndex) : Bool := x.refs.isEmpty

def atPlaces (x : XrefIndex) (m : PlaceMap) (address : UInt64) : List CrossReference :=
  (m.getD address #[]).toList.filterMap (x.refs[·]?)

/-- Everything that points at an address. -/
def referencesTo (x : XrefIndex) (address : UInt64) : List CrossReference :=
  x.atPlaces x.byTarget address

/-- Everything that the instruction at an address points to. -/
def referencesFrom (x : XrefIndex) (address : UInt64) : List CrossReference :=
  x.atPlaces x.bySource address

/-- The address of a symbol, by its plain or its readable name. -/
def addressOf? (x : XrefIndex) (name : String) : Option UInt64 := x.names[name]?

def push (x : XrefIndex) (r : CrossReference) : XrefIndex :=
  { x with
    refs := x.refs.push r
    byTarget := x.byTarget.add r.target x.refs.size
    bySource :=
      match r.source with
      | some source => x.bySource.add source x.refs.size
      | none => x.bySource }

end XrefIndex

end ElfAtlas
