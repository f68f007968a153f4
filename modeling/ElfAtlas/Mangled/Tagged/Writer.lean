import ElfAtlas.Mangled.Tagged.Reader

/-!
Writing the readable form while reading the name. Where reading fails the text says so, and what is
still to be written around that place is written without the name.
-/

namespace ElfAtlas.Mangled.Tagged

/-- What is written so far. Nothing is written of the parts that are only passed over, and there is
room for a number of bytes only. -/
structure Draft where
  cursor : Cursor
  failed : Bool := false
  printing : Bool
  lifetimes : Nat := 0
  text : String := ""
  room : Nat

inductive Full where
  | full

abbrev Writer := EStateM Full Draft

namespace Writer

def write (s : String) : Writer Unit := do
  if (← get).printing then
    if (← get).room < s.utf8ByteSize then throw .full
    modify fun d => { d with text := d.text ++ s, room := d.room - s.utf8ByteSize }

def fail (t : Trouble) : Writer Unit := do
  write t.text
  modify fun d => { d with failed := true }

/-- Goes on with what is read. What cannot be read is left; its value is then the given one. -/
def reading {α β : Type} (r : Reader α) (otherwise : β) (k : α → Writer β) : Writer β := do
  if (← get).failed then
    write "?"
    return otherwise
  match r.run (← get).cursor with
  | .ok (a, cursor) =>
    modify fun d => { d with cursor }
    k a
  | .error t =>
    fail t
    return otherwise

/-- Takes a tag if it is there. -/
def eat (tag : Char) : Writer Bool := do
  let d ← get
  if d.failed then return false
  if d.cursor.name[d.cursor.position]? = some tag then
    modify fun d => { d with cursor := { d.cursor with position := d.cursor.position + 1 } }
    return true
  else return false

def shallower : Writer Unit :=
  modify fun d =>
    if d.failed then d else { d with cursor := { d.cursor with depth := d.cursor.depth - 1 } }

/-- Reads a part without writing it. -/
def passing (part : Writer Unit) : Writer Unit := do
  let printing := (← get).printing
  modify fun d => { d with printing := false }
  part
  modify fun d => { d with printing }

/-- Writes what a reference stands for and comes back; whatever is wrong there does no harm here. -/
def following {β : Type} (otherwise : β) (part : Writer β) : Writer β :=
  reading Reader.target otherwise fun target => do
    if !(← get).printing then return otherwise
    let cursor := (← get).cursor
    modify fun d => { d with cursor := target }
    let b ← part
    modify fun d => { d with cursor, failed := false }
    return b

def elements (separator : String) (element : Writer Unit) : Nat → Nat → Writer Nat
  | 0, count => return count
  | left + 1, count => do
    if (← get).failed then return count
    if ← eat 'E' then return count
    if 0 < count then write separator
    element
    elements separator element left (count + 1)

/-- Writes elements up to the closing `E` and counts them. Each takes a character at least. -/
def list (separator : String) (element : Writer Unit) : Writer Nat := do
  elements separator element ((← get).cursor.name.size + 1) 0

def listed (separator : String) (element : Writer Unit) : Writer Unit := do
  let _ ← list separator element

/-- One element is followed by a comma. -/
def tuple (element : Writer Unit) : Writer Unit := do
  write "("
  let count ← list ", " element
  if count = 1 then write ","
  write ")"

def letter (n : Nat) : String :=
  if n < 26 then String.singleton (Char.ofNat (97 + n)) else "_" ++ toString n

/-- Binders count lifetimes from the inside; zero is a lifetime without a name. -/
def lifetime (index : Nat) : Writer Unit := do
  let d ← get
  if d.printing then
    write "'"
    if index = 0 then write "_"
    else if index ≤ d.lifetimes then write (letter (d.lifetimes - index))
    else fail .invalid

def lifetimeNames (separator : String) : Nat → Writer Unit
  | 0 => return
  | n + 1 => do
    write separator
    modify fun d => { d with lifetimes := d.lifetimes + 1 }
    lifetime 1
    lifetimeNames ", " n

/-- Names the lifetimes of a binder, if there is one, for the part that follows. -/
def underBinder (part : Writer Unit) : Writer Unit :=
  reading (Reader.integer62After 'G') () fun count => do
    if (← get).printing then
      if 0 < count then
        write "for<"
        lifetimeNames "" count
        write "> "
      part
      modify fun d => { d with lifetimes := d.lifetimes - count }
    else part

end Writer

end ElfAtlas.Mangled.Tagged
