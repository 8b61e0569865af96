import VisualBasic.Token.Basic

/-!
Names: a single word, a word behind a dot, and the words that name the global namespace or the
current object.
-/

set_option autoImplicit false

namespace VisualBasic

/-- A single name.  An empty text stands for a name that is missing from the source. -/
structure SimpleName where
  text : String
  typeCharacter : Option TypeCharacter
  escaped : Bool
  span : Span
deriving DecidableEq, Inhabited

namespace SimpleName

def missing (location : Location) : SimpleName := ⟨"", none, false, .point location⟩

/-- The name that an identifier or keyword token spells. -/
def ofToken (t : Token) : SimpleName :=
  match t.name? with
  | some name => ⟨name.text, name.typeCharacter, name.escaped, t.span⟩
  | none => missing t.span.start

def isMissing (n : SimpleName) : Bool := n.text.isEmpty

/-- Names are the same when they differ in the case of ASCII letters only. -/
def isSpelled (n : SimpleName) (text : String) : Bool :=
  n.text.toList.map Char.toLower == text.toList.map Char.toLower

end SimpleName

/-- The words for the object whose code is running, seen as its own, its class or its base. -/
inductive InstanceKind where
  | me
  | myBase
  | myClass
deriving DecidableEq, Inhabited

namespace InstanceKind

def spelling : InstanceKind → String
  | me => "Me"
  | myBase => "MyBase"
  | myClass => "MyClass"

def ofKind? : TokenKind → Option InstanceKind
  | .word .kwMe => some me
  | .word .kwMyBase => some myBase
  | .word .kwMyClass => some myClass
  | _ => none

end InstanceKind

/-- A name with the names that qualify it. -/
inductive Name where
  | simple (name : SimpleName)
  | qualified (qualifier : Name) (dot : Location) (name : SimpleName) (span : Span)
  | globalNamespace (span : Span)
  | special (kind : InstanceKind) (span : Span)
deriving DecidableEq, Inhabited

namespace Name

def span : Name → Span
  | simple n => n.span
  | qualified _ _ _ s => s
  | globalNamespace s => s
  | special _ s => s

def last? : Name → Option SimpleName
  | simple n => some n
  | qualified _ _ n _ => some n
  | globalNamespace _ | special _ _ => none

/-- Some part of the name is missing. -/
def isIncomplete : Name → Bool
  | simple n => n.isMissing
  | qualified q _ n _ => n.isMissing || q.isIncomplete
  | globalNamespace _ | special _ _ => false

def render : Name → String
  | simple n => n.text
  | qualified q _ n _ => q.render ++ "." ++ n.text
  | globalNamespace _ => "Global"
  | special k _ => k.spelling

end Name

/-- The target of a jump: a name or a line number. -/
inductive Label where
  | name (name : SimpleName)
  | lineNumber (value : Int) (span : Span)
deriving DecidableEq, Inhabited

def Label.span : Label → Span
  | .name n => n.span
  | .lineNumber _ s => s

end VisualBasic
