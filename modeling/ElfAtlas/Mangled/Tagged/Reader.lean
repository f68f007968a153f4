import ElfAtlas.Mangled
import ElfAtlas.Mangled.Punycode
import ElfAtlas.Text.Hex

/-!
The terminals of the newer scheme for Rust names: numbers, identifiers and references to what stands
earlier in the name.
-/

namespace ElfAtlas.Mangled.Tagged

/-- A place in a name, and how deeply nested it is. -/
structure Cursor where
  name : Array Char
  position : Nat
  depth : Nat

inductive Trouble where
  | invalid
  | tooDeep
  deriving DecidableEq, Repr

namespace Trouble

/-- Stands in the readable form where reading stopped. -/
def text : Trouble → String
  | invalid => "\x7binvalid syntax\x7d"
  | tooDeep => "\x7brecursion limit reached\x7d"

end Trouble

abbrev Reader := StateT Cursor (Except Trouble)

namespace Reader

def maxDepth : Nat := 500

def deeper : Reader Unit := do
  let c ← get
  if maxDepth ≤ c.depth then throw .tooDeep
  set { c with depth := c.depth + 1 }

def remaining : Reader (List Char) := do
  let c ← get
  return (c.name.extract c.position c.name.size).toList

def advance (n : Nat) : Reader Unit := modify fun c => { c with position := c.position + n }

def next : Reader Char := do
  let c ← get
  match c.name[c.position]? with
  | some tag => advance 1; return tag
  | none => throw .invalid

def eat (tag : Char) : Reader Bool := do
  let c ← get
  if c.name[c.position]? = some tag then advance 1; return true
  else return false

/-- Takes the characters of a kind and the underscore that has to follow. -/
def closed (kind : Char → Bool) : Reader (List Char) := do
  let rest ← remaining
  let text := rest.takeWhile kind
  if rest[text.length]? = some '_' then advance (text.length + 1); return text
  else throw .invalid

def isNibble (c : Char) : Bool := Hex.isDigit c && !c.isUpper

def nibbles : Reader (List Char) := closed isNibble

def word (n : Nat) : Reader Nat := if n < UInt64.size then return n else throw .invalid

def digit62? (c : Char) : Option Nat :=
  if c.isDigit then some (c.toNat - 48)
  else if c.isLower then some (c.toNat - 87)
  else if c.isUpper then some (c.toNat - 29)
  else none

/-- No digits write zero, and `n` is written as `n - 1` otherwise. -/
def integer62 : Reader Nat := do
  match ← closed fun c => (digit62? c).isSome with
  | [] => return 0
  | digits => word (digits.foldl (fun n c => 62 * n + (digit62? c).getD 0) 0 + 1)

/-- Zero if the tag is not there. -/
def integer62After (tag : Char) : Reader Nat := do
  if ← eat tag then word ((← integer62) + 1) else return 0

def disambiguator : Reader Nat := integer62After 's'

/-- A namespace with a meaning of its own has an upper-case letter. -/
def scope : Reader (Option Char) := do
  let c ← next
  if c.isUpper then return some c
  else if c.isLower then return none
  else throw .invalid

/-- What a reference behind its tag stands for. It lies before the tag and is one deeper. -/
def target : Reader Cursor := do
  let start := (← get).position - 1
  let n ← integer62
  if start ≤ n then throw .invalid
  let c ← get
  if maxDepth ≤ c.depth then throw .tooDeep
  return { c with position := n, depth := c.depth + 1 }

/-- Text outside ASCII has insertion digits. -/
structure Ident where
  plain : List Char
  insertions : List Char

namespace Ident

def isEmpty (i : Ident) : Bool := i.plain.isEmpty && i.insertions.isEmpty

def maxLength : Nat := 128

/-- The digits are shown if they cannot be used. -/
def text (i : Ident) : String :=
  if i.insertions.isEmpty then String.ofList i.plain
  else
    match Punycode.decode? maxLength i.plain i.insertions with
    | some cs => String.ofList cs
    | none =>
      "punycode\x7b" ++ (if i.plain.isEmpty then "" else String.ofList i.plain ++ "-")
        ++ String.ofList i.insertions ++ "\x7d"

/-- The last underscore separates the plain characters from the insertions. -/
def ofEncoded (cs : List Char) : Ident :=
  let insertions := (cs.reverse.takeWhile (· ≠ '_')).reverse
  ⟨cs.take (cs.length - insertions.length - 1), insertions⟩

end Ident

/-- A length starts with zero only if it is zero. -/
def length : Reader Nat := do
  let rest ← remaining
  let digits := if rest.head? = some '0' then ['0'] else rest.takeWhile Char.isDigit
  if digits.isEmpty then throw .invalid
  advance digits.length
  return decimal digits

def ident : Reader Ident := do
  let encoded ← eat 'u'
  let n ← length
  let _ ← eat '_'
  let rest ← remaining
  if rest.length < n then throw .invalid
  advance n
  if encoded then
    let i := Ident.ofEncoded (rest.take n)
    if i.insertions.isEmpty then throw .invalid
    return i
  else return ⟨rest.take n, []⟩

end Reader

end ElfAtlas.Mangled.Tagged
