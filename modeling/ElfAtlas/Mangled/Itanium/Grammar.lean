import ElfAtlas.Mangled.Itanium.Reader

/-!
The grammar of the Itanium scheme. Each nonterminal takes a level of the nesting that is left; of the
alternatives of one the first that fits counts, in the order in which they stand.
-/

namespace ElfAtlas.Mangled.Itanium.Grammar

open Reader

def abiTag (left : Nat) : Reader (List Char) := do
  level left
  expect "B"
  sourceName (left - 1)

def localSource (left : Nat) : Reader (List Char) := do
  let name ← sourceName left
  let _ ← attempt (discriminator left)
  return name

/-- Goes from scope to scope as long as there is one inside the last. -/
def scopes (step : Option Part → Reader (Option Part)) : Nat → Option Part → Reader Part
  | 0, _ => throw .mismatch
  | left + 1, current => do
    match ← step current, current with
    | some p, _ => scopes step left (some p)
    | none, some p => return p
    | none, none => throw .mismatch

/-- What a special name is about. -/
inductive About where
  | type (before after : String)
  | name (before : String)
  | encoding (before after : String)
  | thunk
  | covariant
  | construction
  | temporary

def abouts : List (String × About) :=
  [("TV", .type "\x7bvtable(" ")\x7d"), ("TT", .type "\x7bvtt(" ")\x7d"),
    ("TI", .type "typeinfo for " ""), ("TS", .type "typeinfo name for " ""),
    ("TF", .type "typeinfo fn for " ""), ("TH", .name "TLS init function for "),
    ("TW", .name "TLS wrapper function for "), ("GV", .name "guard variable for "),
    ("GTt", .encoding "transaction clone for " ""),
    ("GTn", .encoding "non-transaction clone for " ""), ("Tc", .covariant), ("TC", .construction),
    ("GR", .temporary), ("T", .thunk)]

mutual

def encoding : Nat → Reader Encoding
  | 0 => throw .tooDeep
  | left + 1 => do
    match ← attempt (name left) with
    | some n =>
      match ← attempt (bareFunction left) with
      | some types => return .function n types
      | none => return .data n
    | none => special left

def name : Nat → Reader Name
  | 0 => throw .tooDeep
  | left + 1 => do
    match ← attempt (nested left) with
    | some n => return n
    | none =>
      match ← attempt (unscoped left) with
      | some (inStd, n) =>
        if (← peek) = some 'I' then
          let template ← keep (.entity inStd n)
          return .unscopedInstance template (← arguments left)
        else return .unscoped inStd n
      | none =>
        match ← attempt (unscopedTemplate left) with
        | some template => return .unscopedInstance template (← arguments left)
        | none => inside left

def nested : Nat → Reader Name
  | 0 => throw .tooDeep
  | left + 1 => do
    expect "N"
    let quals ← qualifiers left
    let kind ← attempt (refKind left)
    let scope ← scoping left
    expect "E"
    match scope with
    | .member scope n => return .nested quals kind scope n
    | .instantiated _ _ => return .nestedInstance quals kind scope
    | _ => throw .mismatch

def unscoped : Nat → Reader (Bool × Unqualified)
  | 0 => throw .tooDeep
  | left + 1 => do
    let inStd ← eat "St"
    return (inStd, ← unqualified left)

def unscopedTemplate : Nat → Reader Part
  | 0 => throw .tooDeep
  | left + 1 => do
    match ← attempt (unscoped left) with
    | some (inStd, n) => keep (.entity inStd n)
    | none => substitution left

def inside : Nat → Reader Name
  | 0 => throw .tooDeep
  | left + 1 => do
    expect "Z"
    let function ← encoding left
    expect "E"
    if ← eat "s" then
      let _ ← attempt (discriminator left)
      return .inside function none
    else if ← eat "d" then
      let _ ← attempt integer
      expect "_"
      return .inside function (some (← name left))
    else
      let n ← name left
      let _ ← attempt (discriminator left)
      return .inside function (some n)

/-- The scopes of a nested name, one inside the other. Every scope is kept for later references, except
the last one, which is the name itself. -/
def scoping : Nat → Reader Part
  | 0 => throw .tooDeep
  | left + 1 => do
    scopes (scope · left) ((← rest).length + 1) none

def scope (current : Option Part) : Nat → Reader (Option Part)
  | 0 => throw .tooDeep
  | left + 1 => do
    let keepScope (p : Part) : Reader (Option Part) := do
      if (← peek) = some 'E' then return some p else return some (← keep p)
    let under (n : Unqualified) : Part := current.elim (.entity false n) (.member · n)
    match ← peek with
    | none | some 'E' => return none
    | some 'S' => return some (← substitution left)
    | some 'T' => keepScope (.parameter (← templateParam left))
    | some 'I' =>
      match current with
      | some template => keepScope (.instantiated template (← arguments left))
      | none => throw .mismatch
    | some c =>
      match current with
      | some p =>
        if c.isDigit then
          let n ← sourceName left
          if ← eat "M" then keepScope (.dataMember p n)
          else keepScope (.member p (.source n))
        else keepScope (under (← unqualified left))
      | none => keepScope (under (← unqualified left))

def unqualified : Nat → Reader Unqualified
  | 0 => throw .tooDeep
  | left + 1 => do
    if let some o ← attempt (operator left) then return o
    if let some c ← attempt (structor left) then return c
    if ← eat "L" then return .source (← localSource left)
    if let some n ← attempt (sourceName left) then return .source n
    if let some t ← attempt (abiTag left) then return .tag t
    if let some c ← attempt (closure left) then return c
    level left
    expect "Ut"
    return .unnamed (← ordinal 1)

def operator : Nat → Reader Unqualified
  | 0 => throw .tooDeep
  | left + 1 => do
    if let some o ← attempt (coded operators left) then return .operator o
    if ← eat "cv" then
      let before := (← get).inConversion
      modify fun s => { s with inConversion := true }
      try
        let t ← type left
        modify fun s => { s with inConversion := before }
        return .conversion t
      catch e =>
        modify fun s => { s with inConversion := before }
        throw e
    if ← eat "li" then return .literal (← sourceName left)
    expect "v"
    match ← rest with
    | c :: cs =>
      if c.isDigit then
        setRest cs
        return .vendorOperator (c.toNat - 48) (← sourceName left)
      else throw .mismatch
    | [] => throw .mismatch

def structor : Nat → Reader Unqualified
  | 0 => throw .tooDeep
  | left + 1 => do
    if ← eat "C" then
      let inheriting ← eat "I"
      let _ ← entry [("1", ()), ("2", ()), ("3", ()), ("4", ())]
      if inheriting then return .constructor (some (← type left))
      else return .constructor none
    else
      expect "D"
      let _ ← entry [("0", ()), ("1", ()), ("2", ()), ("4", ())]
      return .destructor

def closure : Nat → Reader Unqualified
  | 0 => throw .tooDeep
  | left + 1 => do
    expect "Ul"
    let params ← signature left
    expect "E"
    return .closure params (← ordinal 2)

def signature : Nat → Reader (List Part)
  | 0 => throw .tooDeep
  | left + 1 => do
    if ← eat "v" then return []
    else oneOrMore (type left)

def special : Nat → Reader Encoding
  | 0 => throw .tooDeep
  | left + 1 => do
    match ← entry abouts with
    | .type before after => return .onType before after (← type left)
    | .name before => return .onName before (← name left)
    | .encoding before after => return .onEncoding before after (← encoding left)
    | .thunk =>
      let offset ← callOffset left
      return .onEncoding ("\x7bvirtual override thunk(" ++ offset ++ ", ") ")\x7d" (← encoding left)
    | .covariant =>
      let this ← callOffset left
      let result ← callOffset left
      return .onEncoding ("\x7bvirtual override thunk(" ++ this ++ ", " ++ result ++ ", ") ")\x7d"
        (← encoding left)
    | .construction =>
      let t ← type left
      let _ ← natural
      expect "_"
      return .construction t (← type left)
    | .temporary =>
      let n ← name left
      let index := (← attempt sequenceId).elim 0 (· + 1)
      expect "_"
      return .onName ("reference temporary #" ++ toString index ++ " for ") n

def bareFunction : Nat → Reader (List Part)
  | 0 => throw .tooDeep
  | left + 1 => oneOrMore (type left)

def type : Nat → Reader Part
  | 0 => throw .tooDeep
  | left + 1 => do
    if let some t ← attempt (builtin left) then return t
    if let some t ← attempt (classEnum left) then return ← keep t
    let start ← rest
    if let some p ← attempt (substitution left) then
      if (← peek) ≠ some 'I' then return p
      setRest start
    if let some t ← attempt (function left) then return ← keep t
    if let some t ← attempt (array left) then return ← keep t
    if let some t ← attempt (vector left) then return ← keep t
    if let some t ← attempt (memberPointer left) then return ← keep t
    if let some index ← attempt (templateParam left) then
      if (← peek) ≠ some 'I' then return ← keep (.parameter index)
      if (← get).inConversion then
        -- arguments that no others follow belong to the conversion itself
        let behind ← rest
        if let some _ ← attempt (arguments left) then
          if (← peek) ≠ some 'I' then
            setRest behind
            return ← keep (.parameter index)
      setRest start
    if let some template ← attempt (templateTemplate left) then
      return ← keep (.applied template (← arguments left))
    if let some q ← attempt (qualifiers left) then
      if q ≠ .plain then return ← keep (.qualified q (← type left))
    if ← eat "P" then return ← keep (.pointer (← type left))
    if ← eat "R" then return ← keep (.reference .lvalue (← type left))
    if ← eat "O" then return ← keep (.reference .rvalue (← type left))
    if ← eat "C" then return ← keep (.complex (← type left))
    if ← eat "G" then return ← keep (.imaginary (← type left))
    if ← eat "U" then
      let n ← sourceName left
      let args ← attempt (arguments left)
      return ← keep (.vendorQualified n args (← type left))
    expect "Dp"
    keep (.expansion (← type left))

def builtin : Nat → Reader Part
  | 0 => throw .tooDeep
  | left + 1 => do
    if let some text ← attempt (coded builtins left) then return .builtin text
    expect "u"
    return .vendorBuiltin (← sourceName left)

def classEnum : Nat → Reader Part
  | 0 => throw .tooDeep
  | left + 1 => do
    if let some n ← attempt (name left) then return .named "" n
    expect "T"
    let keyword ← entry [("s", "class "), ("u", "union "), ("e", "enum ")]
    return .named keyword (← name left)

def function : Nat → Reader Part
  | 0 => throw .tooDeep
  | left + 1 => do
    let quals ← qualifiers left
    let _ ← eat "Dx"
    expect "F"
    let _ ← eat "Y"
    let types ← bareFunction left
    let kind ← attempt (refKind left)
    expect "E"
    match types with
    | result :: params => return .function quals kind result params
    | [] => throw .mismatch

def array : Nat → Reader Part
  | 0 => throw .tooDeep
  | left + 1 => do
    expect "A"
    let dimension ← attempt natural
    expect "_"
    return .array dimension (← type left)

def vector : Nat → Reader Part
  | 0 => throw .tooDeep
  | left + 1 => do
    expect "Dv"
    let dimension ← natural
    expect "_"
    return .vector dimension (← type left)

def memberPointer : Nat → Reader Part
  | 0 => throw .tooDeep
  | left + 1 => do
    expect "M"
    let scope ← type left
    return .memberPointer scope (← type left)

def templateTemplate : Nat → Reader Part
  | 0 => throw .tooDeep
  | left + 1 => do
    match ← attempt (substitution left) with
    | some p => return p
    | none => keep (.parameter (← templateParam left))

def arguments : Nat → Reader Args
  | 0 => throw .tooDeep
  | left + 1 => do
    let id := (← rest).length
    expect "I"
    let list ← oneOrMore (argument left)
    expect "E"
    return .mk id list

def argument : Nat → Reader Arg
  | 0 => throw .tooDeep
  | left + 1 => do
    if let some a ← attempt (literal left) then return a
    if let some t ← attempt (type left) then return .type t
    if !(← eat "J") then expect "I"
    let list ← zeroOrMore (argument left)
    expect "E"
    return .pack list

def literal : Nat → Reader Arg
  | 0 => throw .tooDeep
  | left + 1 => do
    expect "L"
    match ← attempt (type left) with
    | some t =>
      let cs ← rest
      let value := cs.takeWhile (· ≠ 'E')
      setRest (cs.drop value.length)
      expect "E"
      return .literal t value
    | none =>
      match left with
      | 0 => throw .tooDeep
      | left + 1 =>
        if !(← eat "_Z") then expect "__Z"
        let e ← encoding left
        expect "E"
        return .external e

end

end ElfAtlas.Mangled.Itanium.Grammar
