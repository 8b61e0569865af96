import VisualBasic.Diagnostic
import VisualBasic.Literal.Basic
import VisualBasic.Token.Keyword
import VisualBasic.Token.Punctuator

/-!
Tokens.  A lexeme says what was read, a token also where.  The kind of a token is all that the
grammar looks at in most places.
-/

set_option autoImplicit false

namespace VisualBasic

/-- A name as it was written.  `word` is the keyword that an identifier spells where the context
makes it one: a contextual word, or a reserved word with a type character behind it. -/
structure Identifier where
  text : String
  typeCharacter : Option TypeCharacter
  escaped : Bool
  word : Option Keyword
deriving DecidableEq, Inhabited

inductive Lexeme where
  | fault (fault : LexicalFault)
  | endOfStream
  | lineTerminator
  | comment (text : String) (isRem : Bool)
  | identifier (name : Identifier)
  | keyword (keyword : Keyword) (text : String)
  | literal (value : Literal)
  | punctuator (mark : Punctuator)
deriving DecidableEq, Inhabited

inductive TokenKind where
  | lexicalError
  | endOfStream
  | lineTerminator
  | comment
  | identifier
  | integerLiteral
  | unsignedIntegerLiteral
  | floatingPointLiteral
  | decimalLiteral
  | characterLiteral
  | stringLiteral
  | dateLiteral
  | word (keyword : Keyword)
  | mark (punctuator : Punctuator)
deriving DecidableEq, Inhabited

namespace TokenKind

def spelling : TokenKind → String
  | lexicalError => "<error>"
  | endOfStream => "<end of stream>"
  | lineTerminator => "<line terminator>"
  | comment => "<comment>"
  | identifier => "<identifier>"
  | integerLiteral | unsignedIntegerLiteral => "<integer>"
  | floatingPointLiteral => "<floating point>"
  | decimalLiteral => "<decimal>"
  | characterLiteral => "<character>"
  | stringLiteral => "<string>"
  | dateLiteral => "<date>"
  | word k => k.spelling
  | mark p => p.spelling

def isKeyword : TokenKind → Bool
  | word _ => true
  | _ => false

/-- A statement ends before such a token. -/
def endsStatement : TokenKind → Bool
  | mark .colon | lineTerminator | endOfStream | comment => true
  | _ => false

/-- A line ends before such a token. -/
def endsLine : TokenKind → Bool
  | lineTerminator | endOfStream | comment => true
  | _ => false

end TokenKind

def Literal.tokenKind : Literal → TokenKind
  | .integer (.signed _) _ _ => .integerLiteral
  | .integer (.unsigned _) _ _ => .unsignedIntegerLiteral
  | .floatingPoint _ _ => .floatingPointLiteral
  | .decimal _ _ => .decimalLiteral
  | .character _ => .characterLiteral
  | .string _ => .stringLiteral
  | .date _ => .dateLiteral

def Lexeme.kind : Lexeme → TokenKind
  | .fault _ => .lexicalError
  | .endOfStream => .endOfStream
  | .lineTerminator => .lineTerminator
  | .comment _ _ => .comment
  | .identifier _ => .identifier
  | .keyword k _ => .word k
  | .literal l => l.tokenKind
  | .punctuator p => .mark p

structure Token where
  lexeme : Lexeme
  span : Span
deriving DecidableEq, Inhabited

namespace Token

def kind (t : Token) : TokenKind := t.lexeme.kind

/-- The name that an identifier or keyword token spells. -/
def name? (t : Token) : Option Identifier :=
  match t.lexeme with
  | .identifier name => some name
  | .keyword k text => some ⟨text, none, false, some k⟩
  | _ => none

/-- The kind with contextual keywords told apart from other identifiers. -/
def contextualKind (t : Token) : TokenKind :=
  match t.lexeme with
  | .identifier name => name.word.elim .identifier .word
  | _ => t.kind

/-- The token is an identifier that spells the given contextual keyword. -/
def isContextual (t : Token) (k : Keyword) : Bool :=
  t.kind == .identifier && t.contextualKind == .word k

def typeCharacter (t : Token) : Option TypeCharacter :=
  match t.lexeme with
  | .identifier name => name.typeCharacter
  | .literal (.integer _ _ suffix) => suffix
  | .literal (.floatingPoint _ suffix) => suffix
  | .literal (.decimal _ suffix) => suffix
  | _ => none

def fault? (t : Token) : Option LexicalFault :=
  match t.lexeme with
  | .fault f => some f
  | _ => none

/-- Tokens are told apart by what was read and by the indices of their spans. -/
def sameAs (a b : Token) : Bool := decide (a.lexeme = b.lexeme) && a.span.sameIndices b.span

end Token

end VisualBasic
