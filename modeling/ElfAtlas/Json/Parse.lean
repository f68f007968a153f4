import ElfAtlas.Json.Token

/-!
Reading JSON text: one value, with nothing but blanks around it.
-/

namespace ElfAtlas.Json

/-- An object whose keys are all text. -/
def ofMembers (members : List (Option String × Json)) : Json :=
  match members.mapM fun m => m.1.map (·, m.2) with
  | some members => .object members
  | none => .unreadable

mutual

/-- The value at the front of the tokens. The first argument bounds the depth of the descent. -/
def value? : Nat → List Token → Option (Json × List Token)
  | _, .null :: rest => some (.null, rest)
  | _, .bool b :: rest => some (.bool b, rest)
  | _, .number literal :: rest => some (.number literal, rest)
  | _, .text (some s) :: rest => some (.string s, rest)
  | _, .text none :: rest => some (.unreadable, rest)
  | _, .openBracket :: .closeBracket :: rest => some (.array [], rest)
  | fuel + 1, .openBracket :: rest => (items? fuel rest).map fun (items, rest) => (.array items, rest)
  | _, .openBrace :: .closeBrace :: rest => some (.object [], rest)
  | fuel + 1, .openBrace :: rest =>
    (members? fuel rest).map fun (members, rest) => (ofMembers members, rest)
  | _, _ => none

/-- One or more values and the closing bracket. -/
def items? : Nat → List Token → Option (List Json × List Token)
  | 0, _ => none
  | fuel + 1, ts => do
    let (item, rest) ← value? fuel ts
    match rest with
    | .comma :: rest =>
      let (more, rest) ← items? fuel rest
      return (item :: more, rest)
    | .closeBracket :: rest => return ([item], rest)
    | _ => none

/-- One or more members and the closing brace. -/
def members? : Nat → List Token → Option (List (Option String × Json) × List Token)
  | 0, _ => none
  | fuel + 1, .text key :: .colon :: ts => do
    let (item, rest) ← value? fuel ts
    match rest with
    | .comma :: rest =>
      let (more, rest) ← members? fuel rest
      return ((key, item) :: more, rest)
    | .closeBrace :: rest => return ([(key, item)], rest)
    | _ => none
  | _, _ => none

end

/-- Every descent passes a token, so twice the number of tokens is deep enough. -/
def parse? (text : String) : Option Json := do
  let ts ← tokens text.toList
  match value? (2 * ts.length) ts with
  | some (j, []) => some j
  | _ => none

end ElfAtlas.Json
