import ElfAtlas.Json.Basic
import ElfAtlas.Text.Hex

/-!
The tokens of JSON text. A text splits into tokens in one way; spaces, tabs and line ends between them
are dropped.
-/

namespace ElfAtlas.Json

inductive Token where
  | openBrace
  | closeBrace
  | openBracket
  | closeBracket
  | comma
  | colon
  | null
  | bool (b : Bool)
  | number (literal : String)
  /-- Absent content stands for an unpaired surrogate. -/
  | text (content : Option String)
  deriving DecidableEq, Repr

def isBlank (c : Char) : Bool := c = ' ' || c = '\n' || c = '\t' || c = '\r'

def isNumberChar (c : Char) : Bool :=
  c.isDigit || c = '-' || c = '+' || c = '.' || c = 'e' || c = 'E'

/-- At least one digit, and nothing else. -/
def isDigits (cs : List Char) : Bool := !cs.isEmpty && cs.all Char.isDigit

def isExponent : List Char → Bool
  | [] => true
  | e :: '+' :: cs => (e = 'e' || e = 'E') && isDigits cs
  | e :: '-' :: cs => (e = 'e' || e = 'E') && isDigits cs
  | e :: cs => (e = 'e' || e = 'E') && isDigits cs

def isFraction : List Char → Bool
  | '.' :: cs => isDigits (cs.takeWhile Char.isDigit) && isExponent (cs.dropWhile Char.isDigit)
  | cs => isExponent cs

def isUnsigned : List Char → Bool
  | '0' :: cs => isFraction cs
  | cs => isDigits (cs.takeWhile Char.isDigit) && isFraction (cs.dropWhile Char.isDigit)

/-- The grammar of number literals: no leading zero or plus, digits on both sides of the point. -/
def isNumber : List Char → Bool
  | '-' :: cs => isUnsigned cs
  | cs => isUnsigned cs

/-- What stands before the closing quote, escapes still in place, and what follows it. -/
def textBody : List Char → Option (List Char × List Char)
  | [] => none
  | '"' :: rest => some ([], rest)
  | '\\' :: c :: rest => (textBody rest).map fun (body, rest) => ('\\' :: c :: body, rest)
  | c :: rest =>
    if c.toNat < 0x20 then none else (textBody rest).map fun (body, rest) => (c :: body, rest)

theorem length_textBody {cs body rest : List Char} (h : textBody cs = some (body, rest)) :
    rest.length < cs.length := by
  fun_induction textBody cs generalizing body rest with
  | case1 => simp at h
  | case2 rest' => simp_all
  | case3 c rest' ih =>
    simp only [Option.map_eq_some_iff, Prod.mk.injEq, Prod.exists] at h
    obtain ⟨b, r, hb, _, rfl⟩ := h
    have := ih hb
    simp only [List.length_cons]
    omega
  | case4 => simp at h
  | case5 c rest' _ _ _ ih =>
    simp only [Option.map_eq_some_iff, Prod.mk.injEq, Prod.exists] at h
    obtain ⟨b, r, hb, _, rfl⟩ := h
    have := ih hb
    simp only [List.length_cons]
    omega

/-- The character that a one-letter escape stands for. -/
def escaped? : Char → Option Char
  | '"' => some '"'
  | '\\' => some '\\'
  | '/' => some '/'
  | 'b' => some '\x08'
  | 'f' => some '\x0c'
  | 'n' => some '\n'
  | 'r' => some '\r'
  | 't' => some '\t'
  | _ => none

def unit? (a b c d : Char) : Option Nat := Hex.ofDigits? [a, b, c, d]

def isHighSurrogate (n : Nat) : Bool := 0xD800 ≤ n && n < 0xDC00

def isLowSurrogate (n : Nat) : Bool := 0xDC00 ≤ n && n < 0xE000

/-- One element of a string body: a character, or nothing for an unpaired surrogate. -/
def unescape : List Char → Option (List (Option Char))
  | [] => some []
  | '\\' :: 'u' :: a :: b :: c :: d :: rest => do
    let n ← unit? a b c d
    let more ← unescape rest
    if isHighSurrogate n then
      match rest with
      | '\\' :: 'u' :: e :: f :: g :: h :: _ =>
        match unit? e f g h with
        | some m =>
          if isLowSurrogate m then
            return some (Char.ofNat (0x10000 + 0x400 * (n - 0xD800) + (m - 0xDC00))) :: more.drop 1
          else return none :: more
        | none => return none :: more
      | _ => return none :: more
    else if isLowSurrogate n then return none :: more
    else return some (Char.ofNat n) :: more
  | '\\' :: c :: rest => do
    let e ← escaped? c
    let more ← unescape rest
    return some e :: more
  | c :: rest => do
    let more ← unescape rest
    return some c :: more

/-- The content of a string body, absent when a surrogate is unpaired; `none` for a bad escape. -/
def content? (body : List Char) : Option (Option String) :=
  (unescape body).map fun parts =>
    if parts.all Option.isSome then some (String.ofList (parts.filterMap id)) else none

/-- The tokens of a text, or `none` if it is not made of tokens. -/
def tokens : List Char → Option (List Token)
  | [] => some []
  | '\x7b' :: rest => (tokens rest).map (.openBrace :: ·)
  | '\x7d' :: rest => (tokens rest).map (.closeBrace :: ·)
  | '[' :: rest => (tokens rest).map (.openBracket :: ·)
  | ']' :: rest => (tokens rest).map (.closeBracket :: ·)
  | ',' :: rest => (tokens rest).map (.comma :: ·)
  | ':' :: rest => (tokens rest).map (.colon :: ·)
  | 'n' :: 'u' :: 'l' :: 'l' :: rest => (tokens rest).map (.null :: ·)
  | 't' :: 'r' :: 'u' :: 'e' :: rest => (tokens rest).map (.bool true :: ·)
  | 'f' :: 'a' :: 'l' :: 's' :: 'e' :: rest => (tokens rest).map (.bool false :: ·)
  | '"' :: rest =>
    match _h : textBody rest with
    | some (body, rest') =>
      match content? body with
      | some content => (tokens rest').map (.text content :: ·)
      | none => none
    | none => none
  | c :: rest =>
    if isBlank c then tokens rest
    else
      let literal := c :: rest.takeWhile isNumberChar
      if isNumber literal then
        (tokens (rest.dropWhile isNumberChar)).map (.number (String.ofList literal) :: ·)
      else none
termination_by cs => cs.length
decreasing_by
  all_goals simp only [List.length_cons]
  all_goals try omega
  · have := length_textBody _h
    omega
  · have := (List.dropWhile_sublist (l := rest) isNumberChar).length_le
    omega

end ElfAtlas.Json
