/-!
JSON values. Numbers keep the literal that was read, so none loses a digit; objects keep the order of
their members and may repeat a key.
-/

namespace ElfAtlas

inductive Json where
  | null
  | bool (b : Bool)
  | number (literal : String)
  | string (s : String)
  /-- A string, or an object with a key, that has an unpaired surrogate and so is no text. It may stand
  only where its value is not used. -/
  | unreadable
  | array (items : List Json)
  | object (members : List (String × Json))
  deriving Inhabited, Repr

namespace Json

def nat (n : Nat) : Json := .number (toString n)

def int (i : Int) : Json := .number (toString i)

def option {α : Type} (f : α → Json) : Option α → Json
  | none => .null
  | some a => f a

def list {α : Type} (f : α → Json) (items : List α) : Json := .array (items.map f)

/-- A value that carries the name of its kind. -/
def tagged (tag : String) (payload : Json) : Json := .object [(tag, payload)]

/-- The tag and the payload of a tagged value; a tag alone may stand for itself with a null payload. -/
def tag? : Json → Option (String × Json)
  | string s => some (s, null)
  | object [(tag, payload)] => some (tag, payload)
  | _ => none

/-- The first member with this key. -/
def get? : Json → String → Option Json
  | object members, key => members.lookup key
  | _, _ => none

def string? : Json → Option String
  | string s => some s
  | _ => none

def bool? : Json → Option Bool
  | bool b => some b
  | _ => none

def array? : Json → Option (List Json)
  | array items => some items
  | _ => none

def digitsValue (cs : List Char) : Nat := cs.foldl (fun n c => 10 * n + (c.toNat - 48)) 0

/-- The value of a literal made of digits only. -/
def nat? : Json → Option Nat
  | number literal =>
    if literal.toList.all Char.isDigit then some (digitsValue literal.toList) else none
  | _ => none

/-- The value of a literal made of digits, perhaps after a minus sign; `-0` is not an integer. -/
def int? : Json → Option Int
  | number literal =>
    match literal.toList with
    | '-' :: cs =>
      if cs.all Char.isDigit ∧ digitsValue cs ≠ 0 then some (-(digitsValue cs : Int)) else none
    | cs => if cs.all Char.isDigit then some (digitsValue cs : Int) else none
  | _ => none

/-- A natural number of at most `width` bits. -/
def word? (width : Nat) (j : Json) : Option Nat := j.nat?.filter (· < 1 <<< width)

/-! Records: an object with the fields as members, or an array with the fields in order. Unknown members
are ignored, a known one must not be repeated, and fields may be left out. -/

def isRepeated (members : List (String × Json)) (name : String) : Bool :=
  1 < (members.filter (·.1 = name)).length

/-- The members or items by the name of their field. -/
def fields? (names : List String) : Json → Option (List (String × Json))
  | object members => if names.any (isRepeated members) then none else some members
  | array items => if names.length < items.length then none else some (names.zip items)
  | _ => none

/-- The value of a field, or the default if the field is left out. -/
def field {α : Type} (fields : List (String × Json)) (name : String) (read : Json → Option α)
    (default : α) : Option α :=
  match fields.lookup name with
  | none => some default
  | some j => read j

/-- A value or null. -/
def nullable {α : Type} (read : Json → Option α) : Json → Option (Option α)
  | null => some none
  | j => (read j).map some

def word64? (j : Json) : Option UInt64 := (j.word? 64).map UInt64.ofNat

end Json

end ElfAtlas
