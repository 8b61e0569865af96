import VisualBasic.Syntax.Operator
import VisualBasic.Syntax.Name

/-!
Expressions, type names and initializers.  They refer to each other: an expression can name a type,
an array type can have bounds, and an array can be created with the values of its elements.
-/

set_option autoImplicit false

namespace VisualBasic

/-- Items with the commas between them. -/
structure CommaList (α : Type) where
  items : List α
  separators : List Location
  span : Span
deriving Inhabited

namespace CommaList

variable {α : Type}

def empty (location : Location) : CommaList α := ⟨[], [], .point location⟩

def single (item : α) (span : Span) : CommaList α := ⟨[item], [], span⟩

def isEmpty (l : CommaList α) : Bool := l.items.isEmpty

end CommaList

inductive IntrinsicType where
  | boolean
  | sByte
  | byte
  | short
  | uShort
  | integer
  | uInteger
  | long
  | uLong
  | decimal
  | single
  | double
  | date
  | char
  | string
  | object
deriving DecidableEq, Inhabited

namespace IntrinsicType

def ofKind? : TokenKind → Option IntrinsicType
  | .word .kwBoolean => some boolean
  | .word .kwSByte => some sByte
  | .word .kwByte => some byte
  | .word .kwShort => some short
  | .word .kwUShort => some uShort
  | .word .kwInteger => some integer
  | .word .kwUInteger => some uInteger
  | .word .kwLong => some long
  | .word .kwULong => some uLong
  | .word .kwDecimal => some decimal
  | .word .kwSingle => some single
  | .word .kwDouble => some double
  | .word .kwDate => some date
  | .word .kwChar => some char
  | .word .kwString => some string
  | .word .kwObject => some object
  | _ => none

/-- The type that a conversion keyword converts to. -/
def ofCastKind? : TokenKind → Option IntrinsicType
  | .word .kwCBool => some boolean
  | .word .kwCSByte => some sByte
  | .word .kwCByte => some byte
  | .word .kwCShort => some short
  | .word .kwCUShort => some uShort
  | .word .kwCInt => some integer
  | .word .kwCUInt => some uInteger
  | .word .kwCLng => some long
  | .word .kwCULng => some uLong
  | .word .kwCDec => some decimal
  | .word .kwCSng => some single
  | .word .kwCDbl => some double
  | .word .kwCDate => some date
  | .word .kwCChar => some char
  | .word .kwCStr => some string
  | .word .kwCObj => some object
  | _ => none

def spelling : IntrinsicType → String
  | boolean => "Boolean"
  | sByte => "SByte"
  | byte => "Byte"
  | short => "Short"
  | uShort => "UShort"
  | integer => "Integer"
  | uInteger => "UInteger"
  | long => "Long"
  | uLong => "ULong"
  | decimal => "Decimal"
  | single => "Single"
  | double => "Double"
  | date => "Date"
  | char => "Char"
  | string => "String"
  | object => "Object"

end IntrinsicType

/-- The value of a literal expression. -/
inductive Constant where
  | boolean (value : Bool)
  | literal (value : Literal)
deriving DecidableEq, Inhabited

/-- The constant that a token denotes. -/
def Constant.ofToken? (t : Token) : Option Constant :=
  match t.lexeme with
  | .literal l => some (.literal l)
  | .keyword .kwTrue _ => some (.boolean true)
  | .keyword .kwFalse _ => some (.boolean false)
  | _ => none

inductive CastKind where
  | cType
  | directCast
  | tryCast
deriving DecidableEq, Inhabited

-- The parts below are stated for any expressions `ε`, types `τ` and initializers `ι`, which are
-- defined together after them.

structure TypeArgumentList (τ : Type) where
  openParen : Location
  ofKeyword : Location
  arguments : CommaList τ
  closeParen : Option Location
  span : Span
deriving Inhabited

structure ArrayBound (ε : Type) where
  lower : Option ε
  toKeyword : Option Location
  upper : ε
  span : Span
deriving Inhabited

/-- The extents of an array, or only its number of dimensions. -/
structure ArrayBounds (ε : Type) where
  openParen : Location
  rank : Nat
  bounds : CommaList (ArrayBound ε)
  closeParen : Option Location
  span : Span
deriving Inhabited

def ArrayBounds.isRankOnly {ε : Type} (b : ArrayBounds ε) : Bool := b.bounds.isEmpty

/-- An argument of a call, which may be named or left out. -/
structure Argument (ε : Type) where
  name : Option SimpleName
  colonEquals : Option Location
  value : Option ε
  span : Span
deriving Inhabited

namespace Argument

variable {ε : Type}

def isNamed (a : Argument ε) : Bool := a.name.isSome

def isOmitted (a : Argument ε) : Bool := a.value.isNone

end Argument

/-- Arguments with their parentheses, which a call statement can leave out. -/
structure ArgumentList (ε : Type) where
  openParen : Option Location
  arguments : CommaList (Argument ε)
  closeParen : Option Location
  span : Span
deriving Inhabited

/-- The elements of an array between braces. -/
structure AggregateInitializer (ι : Type) where
  openBrace : Location
  elements : CommaList ι
  closeBrace : Option Location
  span : Span
deriving Inhabited

mutual

inductive Expression where
  | literal (value : Constant) (span : Span)
  | simpleName (name : SimpleName) (typeArguments : Option (TypeArgumentList TypeName))
      (span : Span)
  | qualified (qualifier : Option Expression) (dot : Location) (name : SimpleName)
      (typeArguments : Option (TypeArgumentList TypeName)) (span : Span)
  | dictionaryLookup (qualifier : Option Expression) (bang : Location) (name : SimpleName)
      (span : Span)
  | callOrIndex (target : Expression) (arguments : ArgumentList Expression) (span : Span)
  | currentInstance (kind : InstanceKind) (span : Span)
  | globalNamespace (span : Span)
  | nothing (span : Span)
  | parenthesized (operand : Expression) (closeParen : Option Location) (span : Span)
  | unary (op : UnaryOperator) (operand : Expression) (span : Span)
  | binary (left : Expression) (op : BinaryOperator) (opSpan : Span) (right : Expression)
      (span : Span)
  | typeOf (operand : Expression) (isKeyword : Option Location) (type : TypeName) (span : Span)
  | getType (type : TypeName) (closeParen : Option Location) (span : Span)
  | cast (kind : CastKind) (operand : Expression) (comma : Option Location) (type : TypeName)
      (closeParen : Option Location) (span : Span)
  | intrinsicCast (target : IntrinsicType) (operand : Expression) (closeParen : Option Location)
      (span : Span)
  | newObject (type : TypeName) (arguments : Option (ArgumentList Expression)) (span : Span)
  | newArray (type : TypeName) (elements : AggregateInitializer Initializer) (span : Span)
  | addressOf (operand : Expression) (span : Span)
  | bad (span : Span)

inductive TypeName where
  | intrinsic (type : IntrinsicType) (span : Span)
  | named (name : Name) (span : Span)
  | constructed (name : Name) (arguments : TypeArgumentList TypeName) (span : Span)
  | array (element : TypeName) (rank : Nat) (bounds : Option (ArrayBounds Expression))
      (span : Span)
  | bad (span : Span)

/-- The value of a variable or array element: an expression, or the elements of an array. -/
inductive Initializer where
  | expression (value : Expression)
  | aggregate (elements : AggregateInitializer Initializer)

end

instance : Inhabited Expression := ⟨.bad default⟩
instance : Inhabited TypeName := ⟨.bad default⟩
instance : Inhabited Initializer := ⟨.expression default⟩

abbrev Arguments := ArgumentList Expression
abbrev TypeArguments := TypeArgumentList TypeName
abbrev Aggregate := AggregateInitializer Initializer

namespace Expression

def span : Expression → Span
  | literal _ s | simpleName _ _ s | qualified _ _ _ _ s | dictionaryLookup _ _ _ s
  | callOrIndex _ _ s | currentInstance _ s | globalNamespace s | nothing s
  | parenthesized _ _ s | unary _ _ s | binary _ _ _ _ s | typeOf _ _ _ s | getType _ _ s
  | cast _ _ _ _ _ s | intrinsicCast _ _ _ s | newObject _ _ s | newArray _ _ s | addressOf _ s
  | bad s => s

def isBad : Expression → Bool
  | bad _ => true
  | _ => false

end Expression

namespace TypeName

def span : TypeName → Span
  | intrinsic _ s | named _ s | constructed _ _ s | array _ _ _ s | bad s => s

def isBad : TypeName → Bool
  | bad _ => true
  | _ => false

mutual

/-- The type as it would be written, without bounds. -/
def render : TypeName → String
  | intrinsic t _ => t.spelling
  | named n _ => n.render
  | constructed n ⟨_, _, ⟨types, _, _⟩, _, _⟩ _ => n.render ++ "(Of " ++ renderAll types ++ ")"
  | array e rank _ _ => e.render ++ "(" ++ String.ofList (List.replicate (rank - 1) ',') ++ ")"
  | bad _ => "<bad type>"

def renderAll : List TypeName → String
  | [] => ""
  | [t] => t.render
  | t :: rest => t.render ++ ", " ++ renderAll rest

end

end TypeName

def Initializer.span : Initializer → Span
  | .expression e => e.span
  | .aggregate a => a.span

end VisualBasic
