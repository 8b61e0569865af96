import VisualBasic.Token.Basic

/-!
The words in front of declarations and parameters that modify them.
-/

set_option autoImplicit false

namespace VisualBasic

inductive Modifier where
  | modPublic
  | modPrivate
  | modProtected
  | modFriend
  | modStatic
  | modShared
  | modShadows
  | modOverloads
  | modMustInherit
  | modNotInheritable
  | modOverrides
  | modNotOverridable
  | modOverridable
  | modMustOverride
  | modReadOnly
  | modWriteOnly
  | modDim
  | modConst
  | modDefault
  | modWithEvents
  | modWidening
  | modNarrowing
  | modPartial
deriving DecidableEq, Inhabited

namespace Modifier

def ofKind? : TokenKind → Option Modifier
  | .word .kwPublic => some modPublic
  | .word .kwPrivate => some modPrivate
  | .word .kwProtected => some modProtected
  | .word .kwFriend => some modFriend
  | .word .kwStatic => some modStatic
  | .word .kwShared => some modShared
  | .word .kwShadows => some modShadows
  | .word .kwOverloads => some modOverloads
  | .word .kwMustInherit => some modMustInherit
  | .word .kwNotInheritable => some modNotInheritable
  | .word .kwOverrides => some modOverrides
  | .word .kwNotOverridable => some modNotOverridable
  | .word .kwOverridable => some modOverridable
  | .word .kwMustOverride => some modMustOverride
  | .word .kwReadOnly => some modReadOnly
  | .word .kwWriteOnly => some modWriteOnly
  | .word .kwDim => some modDim
  | .word .kwConst => some modConst
  | .word .kwDefault => some modDefault
  | .word .kwWithEvents => some modWithEvents
  | .word .kwWidening => some modWidening
  | .word .kwNarrowing => some modNarrowing
  | .word .kwPartial => some modPartial
  | _ => none

/-- The place of a modifier in a set of flags. -/
def bit : Modifier → Nat
  | modPublic => 0
  | modPrivate => 1
  | modProtected => 2
  | modFriend => 3
  | modStatic => 4
  | modShared => 5
  | modShadows => 6
  | modOverloads => 7
  | modMustInherit => 8
  | modNotInheritable => 9
  | modOverrides => 10
  | modNotOverridable => 11
  | modOverridable => 12
  | modMustOverride => 13
  | modReadOnly => 14
  | modWriteOnly => 15
  | modDim => 16
  | modConst => 17
  | modDefault => 18
  | modWithEvents => 19
  | modWidening => 20
  | modNarrowing => 21
  | modPartial => 22

def flag (m : Modifier) : Nat := Nat.pow 2 m.bit

/-- The modifiers that say who can use a member. -/
def access : List Modifier := [modPublic, modPrivate, modProtected, modFriend]

/-- The modifiers that declare local variables. -/
def locals : List Modifier := [modDim, modConst, modStatic]

end Modifier

/-- A word with the place where it stands. -/
structure Placed (α : Type) where
  value : α
  span : Span
deriving DecidableEq, Inhabited

structure ModifierList where
  modifiers : List (Placed Modifier)
  span : Span
deriving DecidableEq, Inhabited

namespace ModifierList

def empty (location : Location) : ModifierList := ⟨[], .point location⟩

def isEmpty (l : ModifierList) : Bool := l.modifiers.isEmpty

def contains (l : ModifierList) (m : Modifier) : Bool := l.modifiers.any fun p => p.value == m

/-- All modifiers of the list as one set of flags. -/
def flags (l : ModifierList) : Nat := l.modifiers.foldl (fun set p => set ||| p.value.flag) 0

end ModifierList

inductive ParameterModifier where
  | byVal
  | byRef
  | optional
  | paramArray
deriving DecidableEq, Inhabited

namespace ParameterModifier

def ofKind? : TokenKind → Option ParameterModifier
  | .word .kwByVal => some byVal
  | .word .kwByRef => some byRef
  | .word .kwOptional => some optional
  | .word .kwParamArray => some paramArray
  | _ => none

def bit : ParameterModifier → Nat
  | byVal => 0
  | byRef => 1
  | optional => 2
  | paramArray => 3

def flag (m : ParameterModifier) : Nat := Nat.pow 2 m.bit

/-- Pairs that no parameter can have together. -/
def conflicts : List (ParameterModifier × ParameterModifier) :=
  [(byVal, byRef), (optional, paramArray), (paramArray, byRef)]

end ParameterModifier

end VisualBasic
