import ElfAtlas.Mangled.Tagged.Writer
import ElfAtlas.Text.Quoted

/-!
The grammar of the newer scheme for Rust names: paths, types and constants.
-/

namespace ElfAtlas.Mangled.Tagged

open Writer

def basicTypes : List (Char × String) :=
  [('a', "i8"), ('b', "bool"), ('c', "char"), ('d', "f64"), ('e', "str"), ('f', "f32"), ('h', "u8"),
    ('i', "isize"), ('j', "usize"), ('l', "i32"), ('m', "u32"), ('n', "i128"), ('o', "u128"),
    ('s', "i16"), ('t', "u16"), ('u', "()"), ('v', "..."), ('x', "i64"), ('y', "u64"), ('z', "!"),
    ('p', "_")]

/-- A number of at most 64 bits. -/
def word? (nibbles : List Char) : Option Nat :=
  if (nibbles.dropWhile (· = '0')).length ≤ 16 then Hex.ofDigits? nibbles else none

/-- Larger numbers stay hexadecimal. -/
def number : Writer Unit :=
  reading Reader.nibbles () fun ds =>
    match word? ds with
    | some n => write (toString n)
    | none => write ("0x" ++ String.ofList ds)

def boolean : Writer Unit :=
  reading Reader.nibbles () fun ds =>
    match word? ds with
    | some 0 => write "false"
    | some 1 => write "true"
    | _ => fail .invalid

/-- The quote of the other kind is not escaped. -/
def escape (mark c : Char) : List Char :=
  if c = mark then ['\\', c]
  else if c = '"' ∨ c = '\'' then [c]
  else Quoted.escape c

def quote (mark : Char) (cs : List Char) : String :=
  String.ofList (mark :: cs.flatMap (escape mark) ++ [mark])

def character : Writer Unit :=
  reading Reader.nibbles () fun ds =>
    match (word? ds).bind Punycode.char? with
    | some c => write (quote '\'' [c])
    | none => fail .invalid

def textOf? (nibbles : List Char) : Option String := do
  let bytes ← Hex.toBytes? nibbles
  String.fromUTF8? ⟨bytes.toArray⟩

def literal : Writer Unit :=
  reading Reader.nibbles () fun ds =>
    match textOf? ds with
    | some s => write (quote '"' s.toList)
    | none => fail .invalid

/-- Anything but a literal stands in braces where a type could stand. -/
def braced (inValue : Bool) (part : Writer Unit) : Writer Unit := do
  if !inValue then write "\x7b"
  part
  if !inValue then write "\x7d"

def kindName (c : Char) : String :=
  if c = 'C' then "closure" else if c = 'S' then "shim" else String.singleton c

/-- The last part of a path, in a namespace with a meaning of its own or without one. -/
def ending (space : Option Char) (number : Nat) (name : Reader.Ident) : Writer Unit :=
  match space with
  | some c => do
    write ("::\x7b" ++ kindName c)
    if !name.isEmpty then write (":" ++ name.text)
    write ("#" ++ toString number ++ "\x7d")
  | none => if name.isEmpty then return else write ("::" ++ name.text)

/-- A hyphen of a calling convention is mangled as an underscore. -/
def conventionName (cs : List Char) : String :=
  String.ofList (cs.map fun c => if c = '_' then '-' else c)

/-- The type of functions behind its binder, with the way to write types. -/
def signature (type : Writer Unit) : Writer Unit := do
  let isUnsafe ← eat 'U'
  let rest (convention : Option String) : Writer Unit := do
    if isUnsafe then write "unsafe "
    match convention with
    | some c => write ("extern \"" ++ c ++ "\" ")
    | none => pure ()
    write "fn("
    listed ", " type
    write ")"
    if ← eat 'u' then return
    write " -> "
    type
  if ← eat 'K' then
    if ← eat 'C' then rest (some "C")
    else
      reading Reader.ident () fun name =>
        if name.plain.isEmpty || !name.insertions.isEmpty then fail .invalid
        else rest (some (conventionName name.plain))
  else rest none

/-- The bindings of a trait's types, inside its generic arguments if these are still open. -/
def bindings (value type : Writer Unit) (isOpen : Bool) : Nat → Writer Unit
  | 0 => return
  | left + 1 => do
    if ← eat 'p' then
      write (if isOpen then ", " else "<")
      reading Reader.ident () fun name => do
        write (name.text ++ " = ")
        if ← eat 'K' then value else type
        bindings value type true left
    else if isOpen then write ">"

/-- A field with its name. -/
def field (value : Writer Unit) : Writer Unit :=
  reading Reader.disambiguator () fun _ =>
    reading Reader.ident () fun name => do
      write (name.text ++ ": ")
      value

/-- What the name of a structure's constant is followed by. -/
def fields (value : Writer Unit) (closing : Writer Unit) : Writer Unit :=
  reading Reader.next () fun tag =>
    match tag with
    | 'U' => closing
    | 'T' => do
      write "("
      listed ", " value
      write ")"
      closing
    | 'S' => do
      write " \x7b "
      listed ", " (field value)
      write " \x7d"
      closing
    | _ => fail .invalid

mutual

/-- A path; inside a value its generic arguments follow two colons. The first argument bounds the
nesting of all productions. -/
def path (inValue : Bool) : Nat → Writer Unit
  | 0 => fail .tooDeep
  | n + 1 =>
    reading Reader.deeper () fun _ => reading Reader.next () fun tag => do
      match tag with
      | 'C' =>
        reading Reader.disambiguator () fun _ => reading Reader.ident () fun name => write name.text
      | 'N' =>
        reading Reader.scope () fun space => do
          path inValue n
          if (← get).failed then write "::"
          reading Reader.disambiguator () fun number =>
            reading Reader.ident () fun name => ending space number name
      | 'M' =>
        reading Reader.disambiguator () fun _ => do
          passing (path false n)
          write "<"
          type n
          write ">"
      | 'X' =>
        reading Reader.disambiguator () fun _ => do
          passing (path false n)
          write "<"
          type n
          write " as "
          path false n
          write ">"
      | 'Y' =>
        write "<"
        type n
        write " as "
        path false n
        write ">"
      | 'I' =>
        path inValue n
        write (if inValue then "::<" else "<")
        listed ", " (genericArgument n)
        write ">"
      | 'B' => following () (path inValue n)
      | _ => fail .invalid
      shallower

def genericArgument : Nat → Writer Unit
  | 0 => fail .tooDeep
  | n + 1 => do
    if ← eat 'L' then reading Reader.integer62 () lifetime
    else if ← eat 'K' then constant false n
    else type n

def type : Nat → Writer Unit
  | 0 => fail .tooDeep
  | n + 1 =>
    reading Reader.next () fun tag =>
      match basicTypes.lookup tag with
      | some s => write s
      | none =>
        reading Reader.deeper () fun _ => do
          match tag with
          | 'R' | 'Q' =>
            write "&"
            let target : Writer Unit := do
              if tag = 'Q' then write "mut "
              type n
            if ← eat 'L' then
              reading Reader.integer62 () fun index => do
                if index ≠ 0 then
                  lifetime index
                  write " "
                target
            else target
          | 'P' =>
            write "*const "
            type n
          | 'O' =>
            write "*mut "
            type n
          | 'A' =>
            write "["
            type n
            write "; "
            constant true n
            write "]"
          | 'S' =>
            write "["
            type n
            write "]"
          | 'T' => tuple (type n)
          | 'F' => underBinder (signature (type n))
          | 'D' =>
            write "dyn "
            underBinder (listed " + " (dynTrait n))
            if ← eat 'L' then
              reading Reader.integer62 () fun index => do
                if index ≠ 0 then
                  write " + "
                  lifetime index
            else fail .invalid
          | 'B' => following () (type n)
          | 'W' =>
            type n
            write " is "
            pattern n
          | _ =>
            -- the tag is the path's
            modify fun d => { d with cursor := { d.cursor with position := d.cursor.position - 1 } }
            path false n
          shallower

/-- The path of a trait, and whether its generic arguments are still open. -/
def traitPath : Nat → Writer Bool
  | 0 => do
    fail .tooDeep
    return false
  | n + 1 => do
    if ← eat 'B' then following false (traitPath n)
    else if ← eat 'I' then
      path false n
      write "<"
      listed ", " (genericArgument n)
      return true
    else
      path false n
      return false

def dynTrait : Nat → Writer Unit
  | 0 => fail .tooDeep
  | n + 1 => do
    let isOpen ← traitPath n
    bindings (constant false n) (type n) isOpen ((← get).cursor.name.size + 1)

def pattern : Nat → Writer Unit
  | 0 => fail .tooDeep
  | n + 1 =>
    reading Reader.next () fun tag =>
      match tag with
      | 'R' => do
        constant false n
        write "..="
        constant false n
      | 'O' =>
        reading Reader.deeper () fun _ => do
          listed " | " (pattern n)
          shallower
      | _ => fail .invalid

def constant (inValue : Bool) : Nat → Writer Unit
  | 0 => fail .tooDeep
  | n + 1 =>
    reading Reader.next () fun tag => reading Reader.deeper () fun _ => do
      match tag with
      | 'p' => write "_"
      | 'h' | 't' | 'm' | 'y' | 'o' | 'j' => number
      | 'a' | 's' | 'l' | 'x' | 'n' | 'i' =>
        if ← eat 'n' then write "-"
        number
      | 'b' => boolean
      | 'c' => character
      | 'e' => braced inValue do
        write "*"
        literal
      | 'R' =>
        if ← eat 'e' then literal
        else braced inValue do
          write "&"
          constant true n
      | 'Q' => braced inValue do
        write "&mut "
        constant true n
      | 'A' => braced inValue do
        write "["
        listed ", " (constant true n)
        write "]"
      | 'T' => braced inValue (tuple (constant true n))
      | 'V' =>
        if !inValue then write "\x7b"
        path true n
        fields (constant true n) (if inValue then return else write "\x7d")
      | 'B' => following () (constant inValue n)
      | _ => fail .invalid
      shallower

end

end ElfAtlas.Mangled.Tagged
