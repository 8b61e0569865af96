import VisualBasic.Token.Basic

/-!
Operators, how tightly they bind and which tokens write them.  All binary operators of one level
group to the left.
-/

set_option autoImplicit false

namespace VisualBasic

/-- The levels of binding, the loosest first; `lowest` is looser than every operator. -/
inductive Precedence where
  | lowest
  | xor
  | or
  | and
  | not
  | relational
  | shift
  | concatenate
  | additive
  | modulus
  | integralDivide
  | multiplicative
  | negate
  | power
deriving DecidableEq, Inhabited

namespace Precedence

def level : Precedence → Nat
  | lowest => 0
  | xor => 1
  | or => 2
  | and => 3
  | not => 4
  | relational => 5
  | shift => 6
  | concatenate => 7
  | additive => 8
  | modulus => 9
  | integralDivide => 10
  | multiplicative => 11
  | negate => 12
  | power => 13

instance : LE Precedence := ⟨fun a b => a.level ≤ b.level⟩
instance : LT Precedence := ⟨fun a b => a.level < b.level⟩

instance (a b : Precedence) : Decidable (a ≤ b) := inferInstanceAs (Decidable (a.level ≤ b.level))
instance (a b : Precedence) : Decidable (a < b) := inferInstanceAs (Decidable (a.level < b.level))

end Precedence

inductive UnaryOperator where
  | negate
  | unaryPlus
  | complement
deriving DecidableEq, Inhabited

namespace UnaryOperator

def ofKind? : TokenKind → Option UnaryOperator
  | .mark .minus => some negate
  | .mark .plus => some unaryPlus
  | .word .kwNot => some complement
  | _ => none

/-- An operand takes in the binary operators that bind tighter than this. -/
def operandPrecedence : UnaryOperator → Precedence
  | negate | unaryPlus => .negate
  | complement => .not

def spelling : UnaryOperator → String
  | negate => "-"
  | unaryPlus => "+"
  | complement => "Not"

end UnaryOperator

inductive BinaryOperator where
  | plus
  | minus
  | multiply
  | divide
  | integralDivide
  | modulus
  | power
  | concatenate
  | shiftLeft
  | shiftRight
  | equals
  | notEquals
  | lessThan
  | lessThanEquals
  | greaterThan
  | greaterThanEquals
  | isSame
  | isNotSame
  | like
  | conjunction
  | andAlso
  | disjunction
  | orElse
  | exclusiveOr
deriving DecidableEq, Inhabited

namespace BinaryOperator

def ofKind? : TokenKind → Option BinaryOperator
  | .mark .plus => some plus
  | .mark .minus => some minus
  | .mark .star => some multiply
  | .mark .forwardSlash => some divide
  | .mark .backwardSlash => some integralDivide
  | .word .kwMod => some modulus
  | .mark .caret => some power
  | .mark .ampersand => some concatenate
  | .mark .lessThanLessThan => some shiftLeft
  | .mark .greaterThanGreaterThan => some shiftRight
  | .mark .equals => some equals
  | .mark .notEquals => some notEquals
  | .mark .lessThan => some lessThan
  | .mark .lessThanEquals => some lessThanEquals
  | .mark .greaterThan => some greaterThan
  | .mark .greaterThanEquals => some greaterThanEquals
  | .word .kwIs => some isSame
  | .word .kwIsNot => some isNotSame
  | .word .kwLike => some like
  | .word .kwAnd => some conjunction
  | .word .kwAndAlso => some andAlso
  | .word .kwOr => some disjunction
  | .word .kwOrElse => some orElse
  | .word .kwXor => some exclusiveOr
  | _ => none

def precedence : BinaryOperator → Precedence
  | power => .power
  | multiply | divide => .multiplicative
  | integralDivide => .integralDivide
  | modulus => .modulus
  | plus | minus => .additive
  | concatenate => .concatenate
  | shiftLeft | shiftRight => .shift
  | equals | notEquals | lessThan | lessThanEquals | greaterThan | greaterThanEquals
  | isSame | isNotSame | like => .relational
  | conjunction | andAlso => .and
  | disjunction | orElse => .or
  | exclusiveOr => .xor

def isRelational (op : BinaryOperator) : Bool := op.precedence == .relational

/-- The relational operators that compare two values by order or equality. -/
def isComparison : BinaryOperator → Bool
  | equals | notEquals | lessThan | lessThanEquals | greaterThan | greaterThanEquals => true
  | _ => false

def spelling : BinaryOperator → String
  | plus => "+"
  | minus => "-"
  | multiply => "*"
  | divide => "/"
  | integralDivide => "\\"
  | modulus => "Mod"
  | power => "^"
  | concatenate => "&"
  | shiftLeft => "<<"
  | shiftRight => ">>"
  | equals => "="
  | notEquals => "<>"
  | lessThan => "<"
  | lessThanEquals => "<="
  | greaterThan => ">"
  | greaterThanEquals => ">="
  | isSame => "Is"
  | isNotSame => "IsNot"
  | like => "Like"
  | conjunction => "And"
  | andAlso => "AndAlso"
  | disjunction => "Or"
  | orElse => "OrElse"
  | exclusiveOr => "Xor"

end BinaryOperator

/-- The operators that an assignment can carry out on its target. -/
inductive CompoundOperator where
  | plus
  | minus
  | multiply
  | divide
  | integralDivide
  | power
  | concatenate
  | shiftLeft
  | shiftRight
deriving DecidableEq, Inhabited

namespace CompoundOperator

def ofKind? : TokenKind → Option CompoundOperator
  | .mark .plusEquals => some plus
  | .mark .minusEquals => some minus
  | .mark .starEquals => some multiply
  | .mark .forwardSlashEquals => some divide
  | .mark .backwardSlashEquals => some integralDivide
  | .mark .caretEquals => some power
  | .mark .ampersandEquals => some concatenate
  | .mark .lessThanLessThanEquals => some shiftLeft
  | .mark .greaterThanGreaterThanEquals => some shiftRight
  | _ => none

def binary : CompoundOperator → BinaryOperator
  | plus => .plus
  | minus => .minus
  | multiply => .multiply
  | divide => .divide
  | integralDivide => .integralDivide
  | power => .power
  | concatenate => .concatenate
  | shiftLeft => .shiftLeft
  | shiftRight => .shiftRight

def spelling (op : CompoundOperator) : String := op.binary.spelling ++ "="

end CompoundOperator

/-- The operators that a type can define. -/
inductive OverloadableOperator where
  | unary (op : UnaryOperator)
  | binary (op : BinaryOperator)
  | isTrue
  | isFalse
  | conversion
deriving DecidableEq, Inhabited

namespace OverloadableOperator

/-- The operator that a token names.  A sign counts as binary; its parameters tell. -/
def ofToken? (kind contextual : TokenKind) : Option OverloadableOperator :=
  match kind with
  | .word .kwNot => some (unary .complement)
  | .word .kwCType => some conversion
  | .word .kwAndAlso | .word .kwOrElse | .word .kwIs | .word .kwIsNot => none
  | .identifier =>
    match contextual with
    | .word .kwIsTrue => some isTrue
    | .word .kwIsFalse => some isFalse
    | _ => none
  | other => (BinaryOperator.ofKind? other).map binary

def spelling : OverloadableOperator → String
  | unary op => op.spelling
  | binary op => op.spelling
  | isTrue => "IsTrue"
  | isFalse => "IsFalse"
  | conversion => "CType"

end OverloadableOperator

end VisualBasic
