import ElfAtlas.Mangled.Itanium.Sheet

/-!
The readable form of names of the Itanium scheme. References to template arguments are looked up in the
scopes around them; a name with a reference to nothing has no readable form.
-/

namespace ElfAtlas.Mangled.Itanium

inductive Frame where
  | leaf (leaf : Leaf)
  /-- The arguments of a template, and the index and list of the argument that is being written. -/
  | args (args : Args) (current : Option (Nat × Nat))

abbrev Scope := List Frame

namespace Scope

def leaf? : Scope → Option Leaf
  | [] => none
  | .leaf l :: _ => some l
  | .args _ _ :: outer => leaf? outer

def push (s : Scope) (args : Args) : Scope := .args args none :: s

/-- Marks the argument that is being written. -/
def mark (s : Scope) (index id : Nat) : Scope :=
  match s with
  | .args a _ :: outer => .args a (some (index, id)) :: outer
  | s => s

/-- The argument of the innermost template that has so many. An argument does not refer to itself, nor
to one behind it. -/
def arg? (index : Nat) : Scope → Option Arg
  | [] => none
  | .leaf _ :: outer => arg? index outer
  | .args (.mk id list) current :: outer =>
    match list[index]? with
    | some a =>
      match current with
      | some (index', id') => if id' = id ∧ index' ≤ index then none else some a
      | none => some a
    | none => arg? index outer

end Scope

namespace Printer

/-- Literals of these types have a suffix instead of the type. -/
def literalSuffixes : List (String × String) :=
  [("int", ""), ("unsigned int", "u"), ("long", "l"), ("unsigned long", "ul"), ("long long", "ll"),
    ("unsigned long long", "ull")]

/-- The letter `n` is the minus sign. -/
def signed : List Char → String
  | 'n' :: digits => "-" ++ String.ofList digits
  | digits => String.ofList digits

/-- The literal if its text does not name the type. -/
def plainLiteral? (type : Part) (value : List Char) : Option String :=
  match type with
  | .builtin "bool" =>
    if value = ['0'] then some "false" else if value = ['1'] then some "true" else none
  | .builtin "std::nullptr_t" => some "nullptr"
  | .builtin t => (literalSuffixes.lookup t).map (signed value ++ ·)
  | _ => none

mutual

/-- The number of levels bounds the nesting. -/
def encoding (scope : Scope) (e : Encoding) : Nat → Printer Unit
  | 0 => failure
  | left + 1 => apart do
    match e with
    | .function n types =>
      let scope := n.leaf?.elim scope (.leaf · :: scope)
      match n.args?, types with
      | some args, result :: params =>
        let scope := scope.push args
        if n.lacksResult then
          within (.params types) (name scope n left) (wrapper scope (.params types) left)
        else
          part scope result left
          write " "
          within (.params params) (name scope n left) (wrapper scope (.params params) left)
      | _, _ => within (.params types) (name scope n left) (wrapper scope (.params types) left)
    | .data n => name (n.leaf?.elim scope (.leaf · :: scope)) n left
    | .onType before after t =>
      write before
      part scope t left
      write after
    | .onName before n =>
      write before
      name scope n left
    | .onEncoding before after e =>
      write before
      encoding scope e left
      write after
    | .construction t base =>
      write "construction vtable for "
      part scope t left
      write "-in-"
      part scope base left

def name (scope : Scope) (n : Name) : Nat → Printer Unit
  | 0 => failure
  | left + 1 => do
    match n with
    | .nested quals kind outer n =>
      part scope (.member outer n) left
      if let some w ← takeInner then wrapper scope w left
      qualifiers quals
      refKind kind
    | .nestedInstance quals kind template =>
      part scope template left
      if let some w ← takeInner then wrapper scope w left
      qualifiers quals
      refKind kind
    | .unscoped inStd n => part scope (.entity inStd n) left
    | .unscopedInstance template args => part scope (.instantiated template args) left
    | .inside function entity =>
      encoding scope function left
      write "::"
      match entity with
      | some n => name scope n left
      | none => write "string literal"

def part (scope : Scope) (p : Part) : Nat → Printer Unit
  | 0 => failure
  | left + 1 => do
    let around (w : Wrapper) (t : Part) : Printer Unit :=
      within w (part scope t left) (wrapper scope w left)
    match p with
    | .wellKnown c => write c.text
    | .builtin text => write text
    | .vendorBuiltin n => identifier n
    | .entity inStd n =>
      if inStd then write "std::"
      unqualified scope n left
    | .member outer n =>
      part scope outer left
      if let .tag _ := n then pure () else write "::"
      unqualified scope n left
    | .instantiated template args =>
      part (scope.push args) template left
      arguments scope args left
    | .dataMember outer n =>
      part scope outer left
      write "::"
      identifier n
    | .parameter index =>
      if (← get).inClosure then write ("auto:" ++ toString (index + 1))
      else
        match scope.arg? index with
        | some a => argument scope a left
        | none => failure
    | .applied template args =>
      part scope template left
      arguments scope args left
    | .named keyword n =>
      write keyword
      name scope n left
    | .pointer t => around .pointer t
    | .reference kind t => around (.reference kind) t
    | .qualified quals t => around (.qualified quals) t
    | .function quals kind result params =>
      within (.function quals kind)
        (within (.params params) (part scope result left) do
          ensureSpace
          wrapper scope (.params params) left)
        (wrapper scope (.function quals kind) left)
    | .array n t => around (.array n) t
    | .vector n t => around (.vector n) t
    | .memberPointer outer t => around (.memberPointer outer) t
    | .complex t =>
      part scope t left
      write " complex"
    | .imaginary t =>
      part scope t left
      write " imaginary"
    | .vendorQualified n args t =>
      part scope t left
      write " "
      identifier n
      if let some args := args then arguments scope args left
    | .expansion t =>
      part scope t left
      if !(← get).inPack then write "..."

def wrapper (scope : Scope) (w : Wrapper) : Nat → Printer Unit
  | 0 => failure
  | left + 1 => do
    match w with
    | .pointer => write "*"
    | .reference kind => reference kind
    | .qualified quals => qualifiers quals
    | .function quals kind =>
      qualifiers quals
      refKind kind
    | .params types => params (part scope · left) (wrapper scope · left) types
    | .array n => dimension (wrapper scope · left) n
    | .vector n => write (" __vector(" ++ toString n ++ ")")
    | .memberPointer outer =>
      if (← get).last ≠ some '(' then ensureSpace
      part scope outer left
      write "::*"

def unqualified (scope : Scope) (u : Unqualified) : Nat → Printer Unit
  | 0 => failure
  | left + 1 => do
    match u with
    | .source n =>
      -- the text of an identifier lies two levels deeper
      if left < 2 then failure else identifier n
    | .operator text => write ("operator" ++ text)
    | .conversion t =>
      write "operator "
      part scope t left
    | .literal n =>
      write "operator\"\" "
      identifier n
    | .vendorOperator arity n =>
      write "operator"
      identifier n
      write (" " ++ toString arity)
    | .constructor inherited => leaf (inherited.elim scope.leaf? Part.leaf?) left
    | .destructor =>
      write "~"
      leaf scope.leaf? left
    | .tag n =>
      write "[abi:"
      identifier n
      write "]"
    | .closure types number => apart do
      write "\x7blambda("
      modify fun p => { p with inClosure := true }
      listed (part scope · left) types
      modify fun p => { p with inClosure := false }
      write (")#" ++ toString number ++ "\x7d")
    | .unnamed number => write ("\x7bunnamed type#" ++ toString number ++ "\x7d")

def leaf (l : Option Leaf) : Nat → Printer Unit
  | 0 => failure
  | left + 1 =>
    match l with
    | some (.name n) => unqualified [] n left
    | some (.text s) => write s
    | none => failure

def arguments (scope : Scope) (args : Args) : Nat → Printer Unit
  | 0 => failure
  | left + 1 => apart do
    let .mk id list := args
    if (← get).last = some '<' then write " "
    write "<"
    listed (fun e => argument (scope.mark e.2 id) e.1 left) list.zipIdx
    if (← get).last = some '>' then write " "
    write ">"

def argument (scope : Scope) (a : Arg) : Nat → Printer Unit
  | 0 => failure
  | left + 1 => do
    match a with
    | .type t => part scope t left
    | .literal t value =>
      match plainLiteral? t value with
      | some s => write s
      | none =>
        write "("
        part scope t left
        write (")" ++ signed value)
    | .external e => encoding scope e left
    | .pack list =>
      modify fun p => { p with inPack := true }
      listed (argument scope · left) list

end

end Printer

end ElfAtlas.Mangled.Itanium
