/-!
Punctuation marks and operator signs, each with its spelling.
-/

set_option autoImplicit false

namespace VisualBasic

inductive Punctuator where
  | leftParenthesis
  | rightParenthesis
  | leftCurlyBrace
  | rightCurlyBrace
  | exclamation
  | pound
  | comma
  | period
  | colon
  | colonEquals
  | ampersand
  | ampersandEquals
  | star
  | starEquals
  | plus
  | plusEquals
  | minus
  | minusEquals
  | forwardSlash
  | forwardSlashEquals
  | backwardSlash
  | backwardSlashEquals
  | caret
  | caretEquals
  | lessThan
  | lessThanEquals
  | notEquals
  | lessThanLessThan
  | lessThanLessThanEquals
  | equals
  | greaterThan
  | greaterThanEquals
  | greaterThanGreaterThan
  | greaterThanGreaterThanEquals
  | questionMark
deriving DecidableEq, Inhabited

namespace Punctuator

def spelling : Punctuator → String
  | leftParenthesis => "("
  | rightParenthesis => ")"
  | leftCurlyBrace => "\x7b"
  | rightCurlyBrace => "\x7d"
  | exclamation => "!"
  | pound => "#"
  | comma => ","
  | period => "."
  | colon => ":"
  | colonEquals => ":="
  | ampersand => "&"
  | ampersandEquals => "&="
  | star => "*"
  | starEquals => "*="
  | plus => "+"
  | plusEquals => "+="
  | minus => "-"
  | minusEquals => "-="
  | forwardSlash => "/"
  | forwardSlashEquals => "/="
  | backwardSlash => "\\"
  | backwardSlashEquals => "\\="
  | caret => "^"
  | caretEquals => "^="
  | lessThan => "<"
  | lessThanEquals => "<="
  | notEquals => "<>"
  | lessThanLessThan => "<<"
  | lessThanLessThanEquals => "<<="
  | equals => "="
  | greaterThan => ">"
  | greaterThanEquals => ">="
  | greaterThanGreaterThan => ">>"
  | greaterThanGreaterThanEquals => ">>="
  | questionMark => "?"

-- Longer punctuators stand first, so that the first match is the longest.
def all : List Punctuator := [
  lessThanLessThanEquals, greaterThanGreaterThanEquals, colonEquals, ampersandEquals, starEquals,
  plusEquals, minusEquals, forwardSlashEquals, backwardSlashEquals, caretEquals, lessThanEquals,
  notEquals, lessThanLessThan, greaterThanEquals, greaterThanGreaterThan, leftParenthesis,
  rightParenthesis, leftCurlyBrace, rightCurlyBrace, exclamation, pound, comma, period, colon,
  ampersand, star, plus, minus, forwardSlash, backwardSlash, caret, lessThan, equals, greaterThan,
  questionMark]

/-- The longest punctuator that half-width text starts with. -/
def ofText? (cs : List Char) : Option Punctuator :=
  all.find? fun p => p.spelling.toList.isPrefixOf cs

end Punctuator

end VisualBasic
