/-!
What names of the Itanium scheme are made of: entities with their scopes, types, and template
arguments. References to earlier parts of a name are resolved, so that they hold the part itself.
-/

namespace ElfAtlas.Mangled.Itanium

/-- Components of the standard library with abbreviations of their own. -/
inductive WellKnown where
  | std
  | allocator
  | basicString
  | string
  | istream
  | ostream
  | iostream
  deriving DecidableEq, Repr

namespace WellKnown

def codes : List (String × WellKnown) :=
  [("St", std), ("Sa", allocator), ("Sb", basicString), ("Ss", string), ("Si", istream),
    ("So", ostream), ("Sd", iostream)]

def text : WellKnown → String
  | std => "std"
  | allocator => "std::allocator"
  | basicString => "std::basic_string"
  | string => "std::string"
  | istream => "std::basic_istream<char, std::char_traits<char> >"
  | ostream => "std::ostream"
  | iostream => "std::basic_iostream<char, std::char_traits<char> >"

/-- What the constructors are called. -/
def leaf? : WellKnown → Option String
  | std => none
  | allocator => some "allocator"
  | basicString => some "basic_string"
  | string => some "string"
  | istream => some "basic_istream"
  | ostream => some "ostream"
  | iostream => some "basic_iostream"

end WellKnown

structure Qualifiers where
  isRestrict : Bool
  isVolatile : Bool
  isConst : Bool
  deriving DecidableEq, Repr

inductive RefKind where
  | lvalue
  | rvalue
  deriving DecidableEq, Repr

namespace RefKind

def text : RefKind → String
  | lvalue => "&"
  | rvalue => "&&"

end RefKind

def builtins : List (String × String) :=
  [("v", "void"), ("w", "wchar_t"), ("b", "bool"), ("c", "char"), ("a", "signed char"),
    ("h", "unsigned char"), ("s", "short"), ("t", "unsigned short"), ("i", "int"),
    ("j", "unsigned int"), ("l", "long"), ("m", "unsigned long"), ("x", "long long"),
    ("y", "unsigned long long"), ("n", "__int128"), ("o", "unsigned __int128"), ("f", "float"),
    ("d", "double"), ("e", "long double"), ("g", "__float128"), ("z", "..."), ("Dd", "decimal64"),
    ("De", "decimal128"), ("Df", "decimal32"), ("Dh", "half"), ("Di", "char32_t"),
    ("Ds", "char16_t"), ("Du", "char8_t"), ("Da", "auto"), ("Dc", "decltype(auto)"),
    ("Dn", "std::nullptr_t")]

def operators : List (String × String) :=
  [("nw", " new"), ("na", " new[]"), ("dl", " delete"), ("da", " delete[]"), ("ps", "+"),
    ("ng", "-"), ("ad", "&"), ("de", "*"), ("co", "~"), ("pl", "+"), ("mi", "-"), ("ml", "*"),
    ("dv", "/"), ("rm", "%"), ("an", "&"), ("or", "|"), ("eo", "^"), ("aS", "="), ("pL", "+="),
    ("mI", "-="), ("mL", "*="), ("dV", "/="), ("rM", "%="), ("aN", "&="), ("oR", "|="),
    ("eO", "^="), ("ls", "<<"), ("rs", ">>"), ("lS", "<<="), ("rS", ">>="), ("eq", "=="),
    ("ne", "!="), ("lt", "<"), ("gt", ">"), ("le", "<="), ("ge", ">="), ("nt", "!"), ("aa", "&&"),
    ("oo", "||"), ("pp", "++"), ("mm", "--"), ("cm", ","), ("pm", "->*"), ("pt", "->"),
    ("cl", "()"), ("ix", "[]"), ("qu", "?"), ("ss", "<=>")]

mutual

/-- A type, a scope or the name of a template: whatever a name can refer back to. -/
inductive Part where
  | wellKnown (component : WellKnown)
  | builtin (text : String)
  | vendorBuiltin (name : List Char)
  | entity (inStd : Bool) (name : Unqualified)
  | member (scope : Part) (name : Unqualified)
  | instantiated (template : Part) (args : Args)
  | dataMember (scope : Part) (name : List Char)
  | parameter (index : Nat)
  | applied (template : Part) (args : Args)
  | named (keyword : String) (name : Name)
  | pointer (target : Part)
  | reference (kind : RefKind) (target : Part)
  | qualified (qualifiers : Qualifiers) (type : Part)
  | function (qualifiers : Qualifiers) (kind : Option RefKind) (result : Part) (params : List Part)
  | array (dimension : Option Nat) (element : Part)
  | vector (dimension : Nat) (element : Part)
  | memberPointer (scope : Part) (type : Part)
  | complex (type : Part)
  | imaginary (type : Part)
  | vendorQualified (name : List Char) (args : Option Args) (type : Part)
  | expansion (pattern : Part)

/-- The last part of a name. -/
inductive Unqualified where
  | source (name : List Char)
  | operator (text : String)
  | conversion (type : Part)
  | literal (name : List Char)
  | vendorOperator (arity : Nat) (name : List Char)
  | constructor (inherited : Option Part)
  | destructor
  | tag (name : List Char)
  | closure (params : List Part) (number : Nat)
  | unnamed (number : Nat)

/-- Template arguments, told apart by what is left of the name where they start. -/
inductive Args where
  | mk (id : Nat) (list : List Arg)

inductive Arg where
  | type (type : Part)
  | literal (type : Part) (value : List Char)
  | external (encoding : Encoding)
  | pack (list : List Arg)

inductive Name where
  | nested (qualifiers : Qualifiers) (kind : Option RefKind) (scope : Part) (name : Unqualified)
  | nestedInstance (qualifiers : Qualifiers) (kind : Option RefKind) (scope : Part)
  | unscoped (inStd : Bool) (name : Unqualified)
  | unscopedInstance (template : Part) (args : Args)
  | inside (function : Encoding) (entity : Option Name)

/-- An entity with its type as far as the name tells it. -/
inductive Encoding where
  | function (name : Name) (types : List Part)
  | data (name : Name)
  | onType (before after : String) (type : Part)
  | onName (before : String) (name : Name)
  | onEncoding (before after : String) (encoding : Encoding)
  | construction (type base : Part)

end

namespace Qualifiers

def plain : Qualifiers := ⟨false, false, false⟩

end Qualifiers

/-- What a constructor is called after: the innermost name that is none itself. -/
inductive Leaf where
  | name (name : Unqualified)
  | text (text : String)

namespace Unqualified

def leaf? (u : Unqualified) : Option Leaf :=
  match u with
  | source _ | closure _ _ | unnamed _ => some (.name u)
  | _ => none

/-- Such functions have no return type. -/
def lacksResult : Unqualified → Bool
  | constructor _ | destructor | conversion _ => true
  | _ => false

end Unqualified

mutual

def Part.leaf? : Part → Option Leaf
  | .wellKnown c => c.leaf?.map .text
  | .entity _ name => name.leaf?
  | .member scope name => name.leaf? <|> Part.leaf? scope
  | .instantiated template _ => Part.leaf? template
  | .dataMember _ name => some (.name (.source name))
  | .named _ name => Name.leaf? name
  | _ => none

def Name.leaf? : Name → Option Leaf
  | .nested _ _ scope name => name.leaf? <|> Part.leaf? scope
  | .nestedInstance _ _ scope => Part.leaf? scope
  | .unscoped _ name => name.leaf?
  | .unscopedInstance template _ => Part.leaf? template
  | .inside _ (some name) => Name.leaf? name
  | .inside _ none => none

end

namespace Part

def lacksResult : Part → Bool
  | member _ name | entity _ name => name.lacksResult
  | instantiated template _ => lacksResult template
  | _ => false

def isVoid : Part → Bool
  | builtin text => text = "void"
  | _ => false

end Part

namespace Name

/-- The arguments of a template's instance. -/
def args? : Name → Option Args
  | nestedInstance _ _ (.instantiated _ args) => some args
  | unscopedInstance _ args => some args
  | inside _ (some name) => args? name
  | _ => none

def lacksResult : Name → Bool
  | nested _ _ _ name | unscoped _ name => name.lacksResult
  | nestedInstance _ _ scope => scope.lacksResult
  | _ => false

end Name

end ElfAtlas.Mangled.Itanium
