import ElfAtlas.Mangled
import ElfAtlas.Mangled.Itanium.Basic

/-!
The terminals of the Itanium scheme, and the table of parts that later parts of a name refer to.
-/

namespace ElfAtlas.Mangled.Itanium

/-- What is left of a name, and the parts so far in the order in which they were completed. The flag
tells that the type of a conversion operator is being read. -/
structure Source where
  rest : List Char
  parts : Array Part
  inConversion : Bool

inductive Trouble where
  | mismatch
  | tooDeep
  deriving DecidableEq, Repr

abbrev Reader := EStateM Trouble Source

namespace Reader

def rest : Reader (List Char) := return (← get).rest

def setRest (cs : List Char) : Reader Unit := modify fun s => { s with rest := cs }

/-- Tries an alternative. If it does not fit, nothing of the name is taken, though the table keeps the
parts that it completed. Too deep a nesting is never made up for. -/
def attempt {α : Type} (r : Reader α) : Reader (Option α) := do
  let start ← rest
  try return some (← r)
  catch
    | .mismatch => setRest start; return none
    | .tooDeep => throw .tooDeep

/-- Takes a piece of text if it is there. -/
def eat (text : String) : Reader Bool := do
  let cs ← rest
  if text.toList.isPrefixOf cs then setRest (cs.drop text.length); return true
  else return false

def expect (text : String) : Reader Unit := do
  if !(← eat text) then throw .mismatch

def peek : Reader (Option Char) := return (← rest).head?

/-- Takes the longest run of digits, which is not empty and has no needless zero in front, and reads it
as a number that a signed word can hold. -/
def numeral (isDigit : Char → Bool) (value : List Char → Nat) : Reader Nat := do
  let cs ← rest
  let digits := cs.takeWhile isDigit
  if digits.isEmpty || (digits.head? = some '0' && 1 < digits.length) then throw .mismatch
  if 1 <<< 63 ≤ value digits then throw .mismatch
  setRest (cs.drop digits.length)
  return value digits

def natural : Reader Nat := numeral Char.isDigit decimal

/-- The letter `n` is the minus sign. -/
def integer : Reader Int := do
  if ← eat "n" then return -(← natural) else return ← natural

def isDigit36 (c : Char) : Bool := c.isDigit || c.isUpper

def decimal36 (cs : List Char) : Nat :=
  cs.foldl (fun n c => 36 * n + (if c.isDigit then c.toNat - 48 else c.toNat - 55)) 0

def sequenceId : Reader Nat := numeral isDigit36 decimal36

/-- The code of a table's entry at the front. -/
def entry {α : Type} (table : List (String × α)) : Reader α := do
  let cs ← rest
  match table.find? fun e => e.1.toList.isPrefixOf cs with
  | some (code, value) => setRest (cs.drop code.length); return value
  | none => throw .mismatch

/-- Keeps a part for later references. -/
def keep (p : Part) : Reader Part := do
  modify fun s => { s with parts := s.parts.push p }
  return p

def repeated {α : Type} (item : Reader α) : Nat → List α → Reader (List α)
  | 0, done => return done.reverse
  | left + 1, done => do
    match ← attempt item with
    | some a => repeated item left (a :: done)
    | none => return done.reverse

/-- As many items as there are; each takes a character at least. -/
def zeroOrMore {α : Type} (item : Reader α) : Reader (List α) := do
  repeated item (← rest).length []

def oneOrMore {α : Type} (item : Reader α) : Reader (List α) := do
  let first ← item
  return first :: (← zeroOrMore item)

/-- A closed list of levels bounds the nesting: what stands at the last level has no parts. -/
def level (left : Nat) : Reader Unit := if left = 0 then throw .tooDeep else return

/-- An identifier behind its length takes two levels. -/
def sourceName (left : Nat) : Reader (List Char) := do
  level left
  let count ← natural
  let cs ← rest
  if count = 0 ∨ cs.length < count then throw .mismatch
  level (left - 1)
  if !(cs.take count).all isNameChar then throw .mismatch
  setRest (cs.drop count)
  return cs.take count

/-- Tells entities of one name apart; it is not shown. -/
def discriminator (left : Nat) : Reader Nat := do
  level left
  expect "_"
  if ← eat "_" then
    let n ← natural
    if n < 10 then throw .mismatch
    expect "_"
    return n
  else
    match ← rest with
    | c :: cs =>
      if c.isDigit then setRest cs; return c.toNat - 48 else throw .mismatch
    | [] => throw .mismatch

/-- The number before an underscore, counted from one; the first is not written. -/
def ordinal (second : Nat) : Reader Nat := do
  let n ← attempt natural
  expect "_"
  return n.elim 1 (· + second)

def qualifiers (left : Nat) : Reader Qualifiers := do
  level left
  let isRestrict ← eat "r"
  let isVolatile ← eat "V"
  let isConst ← eat "K"
  return { isRestrict, isVolatile, isConst }

def refKind (left : Nat) : Reader RefKind := do
  level left
  if ← eat "R" then return .lvalue
  expect "O"
  return .rvalue

def coded {α : Type} (table : List (String × α)) (left : Nat) : Reader α := do
  level left
  entry table

def templateParam (left : Nat) : Reader Nat := do
  level left
  expect "T"
  let n ← attempt natural
  expect "_"
  return n.elim 0 (· + 1)

/-- A reference to an earlier part or an abbreviation. -/
def substitution (left : Nat) : Reader Part := do
  level left
  match ← attempt (coded WellKnown.codes (left - 1)) with
  | some c => return .wellKnown c
  | none =>
    expect "S"
    let index := (← attempt sequenceId).elim 0 (· + 1)
    match (← get).parts[index]? with
    | some p => expect "_"; return p
    | none => throw .mismatch

/-- How far a thunk moves the object, in words for display. -/
def callOffset (left : Nat) : Reader String := do
  level left
  if ← eat "h" then
    level (left - 1)
    let n ← integer
    expect "_"
    return "\x7boffset(" ++ toString n ++ ")\x7d"
  else
    expect "v"
    level (left - 1)
    let n ← integer
    expect "_"
    let m ← integer
    expect "_"
    return "\x7bvirtual offset(" ++ toString n ++ ", " ++ toString m ++ ")\x7d"

end Reader

end ElfAtlas.Mangled.Itanium
