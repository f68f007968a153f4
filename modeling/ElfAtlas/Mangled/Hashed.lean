import ElfAtlas.Mangled
import ElfAtlas.Text.Hex

/-!
Rust names of the older scheme: a list of path elements, each behind its length, of which the last one
is a hash. What no identifier may hold is written between dollar signs.
-/

namespace ElfAtlas.Mangled

namespace Hashed

/-- The elements up to the closing `E`, and what follows it. -/
def elements? (cs : List Char) : Option (List (List Char) × List Char) :=
  match cs with
  | [] => none
  | 'E' :: rest => some ([], rest)
  | c :: rest =>
    if c.isDigit then
      let count := decimal (c :: rest.takeWhile Char.isDigit)
      let text := rest.dropWhile Char.isDigit
      if UInt64.size ≤ count ∨ text.length ≤ count then none
      else (elements? (text.drop count)).map fun (es, after) => (text.take count :: es, after)
    else none
termination_by cs.length
decreasing_by
  have := (List.dropWhile_sublist (l := rest) Char.isDigit).length_le
  simp only [List.length_drop, List.length_cons]
  omega

def isHash : List Char → Bool
  | 'h' :: digits => digits.all Hex.isDigit
  | _ => false

def isControl (c : Char) : Bool := c.toNat < 0x20 || (0x7f ≤ c.toNat && c.toNat < 0xa0)

def named : List (String × Char) :=
  [("SP", '@'), ("BP", '*'), ("RF", '&'), ("LT", '<'), ("GT", '>'), ("LP", '('), ("RP", ')'),
    ("C", ',')]

/-- The character that the text between two dollar signs stands for. -/
def escaped? (name : List Char) : Option Char :=
  match named.lookup (String.ofList name) with
  | some c => some c
  | none =>
    match name with
    | 'u' :: c :: digits =>
      if (c :: digits).all fun c => Hex.isDigit c && !c.isUpper then do
        let n ← Hex.ofDigits? (c :: digits)
        if n.isValidChar ∧ !isControl (Char.ofNat n) then some (Char.ofNat n) else none
      else none
    | _ => none

/-- Two dots separate paths. From the first escape that stands for nothing on the text stays as it is. -/
def unescape (cs : List Char) : List Char :=
  match cs with
  | [] => []
  | '.' :: '.' :: rest => ':' :: ':' :: unescape rest
  | '$' :: rest =>
    if rest.contains '$' then
      match escaped? (rest.takeWhile (· ≠ '$')) with
      | some c => c :: unescape ((rest.dropWhile (· ≠ '$')).drop 1)
      | none => cs
    else cs
  | c :: rest => c :: unescape rest
termination_by cs.length
decreasing_by
  all_goals simp only [List.length_cons, List.length_drop]
  · omega
  · have := (List.dropWhile_sublist (l := rest) (· ≠ '$')).length_le
    omega
  · omega

/-- An underscore keeps an escape from being the first character. -/
def readable : List Char → List Char
  | '_' :: '$' :: rest => unescape ('$' :: rest)
  | cs => unescape cs

def withoutHash (es : List (List Char)) : List (List Char) :=
  match es.getLast? with
  | some e => if isHash e then es.dropLast else es
  | none => es

/-- The elements of a name and what follows it. -/
def split? (name : List Char) : Option (List (List Char) × List Char) := do
  let body ← afterFirst? ["_ZN", "ZN", "__ZN"] name
  if body.all isAscii then elements? body else none

def render (es : List (List Char)) : String :=
  String.ofList ([':', ':'].intercalate ((withoutHash es).map readable))

end Hashed

end ElfAtlas.Mangled
