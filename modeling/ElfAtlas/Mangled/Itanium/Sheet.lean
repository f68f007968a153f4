import ElfAtlas.Mangled.Itanium.Basic

/-!
Writing declarations. What stands around a declared thing, such as the star of a pointer, is held back
until the place for it comes.
-/

namespace ElfAtlas.Mangled.Itanium

/-- What is written around or behind what it applies to. -/
inductive Wrapper where
  | pointer
  | reference (kind : RefKind)
  | qualified (qualifiers : Qualifiers)
  | function (qualifiers : Qualifiers) (kind : Option RefKind)
  | params (types : List Part)
  | array (dimension : Option Nat)
  | vector (dimension : Nat)
  | memberPointer (scope : Part)

namespace Wrapper

def isArray : Wrapper → Bool
  | array _ => true
  | _ => false

def isQualified : Wrapper → Bool
  | qualified _ => true
  | _ => false

def isFunction : Wrapper → Bool
  | function _ _ => true
  | _ => false

def isReference : Wrapper → Bool
  | reference _ => true
  | _ => false

def isRvalue : Wrapper → Bool
  | reference .rvalue => true
  | _ => false

/-- Whether a function or array inside needs parentheses, and a space before them in any case. -/
def parentheses? : Wrapper → Option Bool
  | memberPointer _ | qualified _ => some true
  | pointer | reference _ => some false
  | _ => none

end Wrapper

/-- The text so far, and what is held back, innermost first; each held wrapper has its own number. -/
structure Sheet where
  text : String := ""
  last : Option Char := none
  held : List (Nat × Wrapper) := []
  fresh : Nat := 0
  inClosure : Bool := false
  inPack : Bool := false

abbrev Printer := StateT Sheet Option

namespace Printer

def write (s : String) : Printer Unit :=
  modify fun p => { p with text := p.text ++ s, last := s.toList.getLast? <|> p.last }

def ensureSpace : Printer Unit := do
  if (← get).last ≠ some ' ' then write " "

/-- An unnamed namespace has a name that is not shown. -/
def identifier (cs : List Char) : Printer Unit :=
  match cs.drop 8 with
  | c :: 'N' :: _ =>
    if "_GLOBAL_".toList.isPrefixOf cs && ['_', '.', '$'].contains c then
      write "(anonymous namespace)"
    else write (String.ofList cs)
  | _ => write (String.ofList cs)

def hold (w : Wrapper) : Printer Nat :=
  modifyGet fun p => (p.fresh, { p with held := (p.fresh, w) :: p.held, fresh := p.fresh + 1 })

/-- Takes a wrapper back if it is still the innermost one that is held. -/
def takeBack (id : Nat) : Printer Bool := do
  match (← get).held with
  | (id', _) :: held =>
    if id' = id then
      modify fun p => { p with held }
      return true
    else return false
  | [] => return false

def takeInner : Printer (Option Wrapper) := do
  match (← get).held with
  | (_, w) :: held =>
    modify fun p => { p with held }
    return some w
  | [] => return none

/-- Writes a part inside a wrapper. The part may find the place for the wrapper by itself. -/
def within (w : Wrapper) (part finish : Printer Unit) : Printer Unit := do
  let id ← hold w
  part
  if ← takeBack id then finish

/-- Writes a part on which nothing that is held back has a bearing. -/
def apart (part : Printer Unit) : Printer Unit := do
  let held := (← get).held
  modify fun p => { p with held := [] }
  part
  modify fun p => { p with held }

def release (wrapper : Wrapper → Printer Unit) : Nat → Printer Unit
  | 0 => return
  | left + 1 => do
    match ← takeInner with
    | some w =>
      wrapper w
      release wrapper left
    | none => return

/-- Writes all that is held back, innermost first. -/
def releaseAll (wrapper : Wrapper → Printer Unit) : Printer Unit := do
  release wrapper (← get).held.length

/-- Writes all that stands in front of parameters. The qualifiers of a function do not. -/
def releasePrefixes (wrapper : Wrapper → Printer Unit) : Printer Unit := do
  let (suffixes, prefixes) := (← get).held.partition fun e => e.2.isFunction
  modify fun p => { p with held := prefixes }
  releaseAll wrapper
  modify fun p => { p with held := suffixes }

def listed {α : Type} (item : α → Printer Unit) : List α → Printer Unit
  | [] => return
  | [a] => item a
  | a :: rest => do
    item a
    write ", "
    listed item rest

def qualifiers (q : Qualifiers) : Printer Unit := do
  if q.isConst then
    ensureSpace
    write "const"
  if q.isVolatile then
    ensureSpace
    write "volatile"
  if q.isRestrict then
    ensureSpace
    write "restrict"

def refKind : Option RefKind → Printer Unit
  | some k => do
    ensureSpace
    write k.text
  | none => return

/-- References to references are one reference, to an lvalue if any of them is. -/
def reference : RefKind → Printer Unit
  | .lvalue => do
    modify fun p => { p with held := p.held.dropWhile fun e => e.2.isReference }
    write "&"
  | .rvalue => do
    modify fun p => { p with held := p.held.dropWhile fun e => e.2.isRvalue }
    if (← get).held.head?.any fun e => e.2.isReference then return else write "&&"

/-- Parameters, between what stands in front of them and the qualifiers. Parentheses keep a pointer to a
function from being read as the result. -/
def params (type : Part → Printer Unit) (wrapper : Wrapper → Printer Unit) (types : List Part) :
    Printer Unit := do
  match (← get).held.findSome? fun e => e.2.parentheses? with
  | some spaced =>
    let last := (← get).last
    if spaced || !(last = some '(' || last = some '*') then ensureSpace
    write "("
    releasePrefixes wrapper
    write ")"
  | none => releasePrefixes wrapper
  write "("
  match types with
  | [t] => if t.isVoid then pure () else type t
  | _ => listed type types
  write ")"
  releaseAll wrapper

/-- An array's dimension, behind what is held back. -/
def dimension (wrapper : Wrapper → Printer Unit) (n : Option Nat) : Printer Unit := do
  match ← takeInner with
  | some w =>
    if w.isArray then wrapper w
    else
      ensureSpace
      if w.isQualified then
        wrapper w
        ensureSpace
        write "("
      else
        write "("
        wrapper w
      releaseAll wrapper
      write ")"
      ensureSpace
  | none => ensureSpace
  write ("[" ++ n.elim "" toString ++ "]")

end Printer

end ElfAtlas.Mangled.Itanium
