import VisualBasic.Text.Width
import VisualBasic.Version

/-!
The words of the language.  A reserved word is always a keyword; a contextual one is an identifier
that certain constructs read as a keyword.  Words are recognised whatever their case and width.
-/

set_option autoImplicit false

namespace VisualBasic

inductive Keyword where
  | kwAddHandler
  | kwAddressOf
  | kwAlias
  | kwAnd
  | kwAndAlso
  | kwAs
  | kwBoolean
  | kwByRef
  | kwByte
  | kwByVal
  | kwCall
  | kwCase
  | kwCatch
  | kwCBool
  | kwCByte
  | kwCChar
  | kwCDate
  | kwCDbl
  | kwCDec
  | kwChar
  | kwCInt
  | kwClass
  | kwCLng
  | kwCObj
  | kwConst
  | kwContinue
  | kwCSByte
  | kwCShort
  | kwCSng
  | kwCStr
  | kwCType
  | kwCUInt
  | kwCULng
  | kwCUShort
  | kwDate
  | kwDecimal
  | kwDeclare
  | kwDefault
  | kwDelegate
  | kwDim
  | kwDirectCast
  | kwDo
  | kwDouble
  | kwEach
  | kwElse
  | kwElseIf
  | kwEnd
  | kwEnum
  | kwErase
  | kwError
  | kwEvent
  | kwExit
  | kwFalse
  | kwFinally
  | kwFor
  | kwFriend
  | kwFunction
  | kwGet
  | kwGetType
  | kwGlobal
  | kwGoSub
  | kwGoTo
  | kwHandles
  | kwIf
  | kwImplements
  | kwImports
  | kwIn
  | kwInherits
  | kwInteger
  | kwInterface
  | kwIs
  | kwIsNot
  | kwLet
  | kwLib
  | kwLike
  | kwLong
  | kwLoop
  | kwMe
  | kwMod
  | kwModule
  | kwMustInherit
  | kwMustOverride
  | kwMyBase
  | kwMyClass
  | kwNamespace
  | kwNarrowing
  | kwNew
  | kwNext
  | kwNot
  | kwNothing
  | kwNotInheritable
  | kwNotOverridable
  | kwObject
  | kwOf
  | kwOn
  | kwOperator
  | kwOption
  | kwOptional
  | kwOr
  | kwOrElse
  | kwOverloads
  | kwOverridable
  | kwOverrides
  | kwParamArray
  | kwPartial
  | kwPrivate
  | kwProperty
  | kwProtected
  | kwPublic
  | kwRaiseEvent
  | kwReadOnly
  | kwReDim
  | kwRem
  | kwRemoveHandler
  | kwResume
  | kwReturn
  | kwSByte
  | kwSelect
  | kwSet
  | kwShadows
  | kwShared
  | kwShort
  | kwSingle
  | kwStatic
  | kwStep
  | kwStop
  | kwString
  | kwStructure
  | kwSub
  | kwSyncLock
  | kwThen
  | kwThrow
  | kwTo
  | kwTrue
  | kwTry
  | kwTryCast
  | kwTypeOf
  | kwUInteger
  | kwULong
  | kwUShort
  | kwUsing
  | kwWend
  | kwWhen
  | kwWhile
  | kwWidening
  | kwWith
  | kwWithEvents
  | kwWriteOnly
  | kwXor
  | kwAnsi
  | kwAssembly
  | kwAuto
  | kwBinary
  | kwCompare
  | kwCustom
  | kwExplicit
  | kwExternalChecksum
  | kwExternalSource
  | kwIsFalse
  | kwIsTrue
  | kwMid
  | kwOff
  | kwPreserve
  | kwRegion
  | kwStrict
  | kwText
  | kwUnicode
  | kwUntil
deriving DecidableEq, Inhabited

namespace Keyword

def all : List Keyword := [
  kwAddHandler, kwAddressOf, kwAlias, kwAnd, kwAndAlso, kwAs, kwBoolean, kwByRef, kwByte, kwByVal,
  kwCall, kwCase, kwCatch, kwCBool, kwCByte, kwCChar, kwCDate, kwCDbl, kwCDec, kwChar, kwCInt,
  kwClass, kwCLng, kwCObj, kwConst, kwContinue, kwCSByte, kwCShort, kwCSng, kwCStr, kwCType,
  kwCUInt, kwCULng, kwCUShort, kwDate, kwDecimal, kwDeclare, kwDefault, kwDelegate, kwDim,
  kwDirectCast, kwDo, kwDouble, kwEach, kwElse, kwElseIf, kwEnd, kwEnum, kwErase, kwError,
  kwEvent, kwExit, kwFalse, kwFinally, kwFor, kwFriend, kwFunction, kwGet, kwGetType, kwGlobal,
  kwGoSub, kwGoTo, kwHandles, kwIf, kwImplements, kwImports, kwIn, kwInherits, kwInteger,
  kwInterface, kwIs, kwIsNot, kwLet, kwLib, kwLike, kwLong, kwLoop, kwMe, kwMod, kwModule,
  kwMustInherit, kwMustOverride, kwMyBase, kwMyClass, kwNamespace, kwNarrowing, kwNew, kwNext,
  kwNot, kwNothing, kwNotInheritable, kwNotOverridable, kwObject, kwOf, kwOn, kwOperator,
  kwOption, kwOptional, kwOr, kwOrElse, kwOverloads, kwOverridable, kwOverrides, kwParamArray,
  kwPartial, kwPrivate, kwProperty, kwProtected, kwPublic, kwRaiseEvent, kwReadOnly, kwReDim,
  kwRem, kwRemoveHandler, kwResume, kwReturn, kwSByte, kwSelect, kwSet, kwShadows, kwShared,
  kwShort, kwSingle, kwStatic, kwStep, kwStop, kwString, kwStructure, kwSub, kwSyncLock, kwThen,
  kwThrow, kwTo, kwTrue, kwTry, kwTryCast, kwTypeOf, kwUInteger, kwULong, kwUShort, kwUsing,
  kwWend, kwWhen, kwWhile, kwWidening, kwWith, kwWithEvents, kwWriteOnly, kwXor, kwAnsi,
  kwAssembly, kwAuto, kwBinary, kwCompare, kwCustom, kwExplicit, kwExternalChecksum,
  kwExternalSource, kwIsFalse, kwIsTrue, kwMid, kwOff, kwPreserve, kwRegion, kwStrict, kwText,
  kwUnicode, kwUntil]

def spelling : Keyword → String
  | kwAddHandler => "AddHandler"
  | kwAddressOf => "AddressOf"
  | kwAlias => "Alias"
  | kwAnd => "And"
  | kwAndAlso => "AndAlso"
  | kwAs => "As"
  | kwBoolean => "Boolean"
  | kwByRef => "ByRef"
  | kwByte => "Byte"
  | kwByVal => "ByVal"
  | kwCall => "Call"
  | kwCase => "Case"
  | kwCatch => "Catch"
  | kwCBool => "CBool"
  | kwCByte => "CByte"
  | kwCChar => "CChar"
  | kwCDate => "CDate"
  | kwCDbl => "CDbl"
  | kwCDec => "CDec"
  | kwChar => "Char"
  | kwCInt => "CInt"
  | kwClass => "Class"
  | kwCLng => "CLng"
  | kwCObj => "CObj"
  | kwConst => "Const"
  | kwContinue => "Continue"
  | kwCSByte => "CSByte"
  | kwCShort => "CShort"
  | kwCSng => "CSng"
  | kwCStr => "CStr"
  | kwCType => "CType"
  | kwCUInt => "CUInt"
  | kwCULng => "CULng"
  | kwCUShort => "CUShort"
  | kwDate => "Date"
  | kwDecimal => "Decimal"
  | kwDeclare => "Declare"
  | kwDefault => "Default"
  | kwDelegate => "Delegate"
  | kwDim => "Dim"
  | kwDirectCast => "DirectCast"
  | kwDo => "Do"
  | kwDouble => "Double"
  | kwEach => "Each"
  | kwElse => "Else"
  | kwElseIf => "ElseIf"
  | kwEnd => "End"
  | kwEnum => "Enum"
  | kwErase => "Erase"
  | kwError => "Error"
  | kwEvent => "Event"
  | kwExit => "Exit"
  | kwFalse => "False"
  | kwFinally => "Finally"
  | kwFor => "For"
  | kwFriend => "Friend"
  | kwFunction => "Function"
  | kwGet => "Get"
  | kwGetType => "GetType"
  | kwGlobal => "Global"
  | kwGoSub => "GoSub"
  | kwGoTo => "GoTo"
  | kwHandles => "Handles"
  | kwIf => "If"
  | kwImplements => "Implements"
  | kwImports => "Imports"
  | kwIn => "In"
  | kwInherits => "Inherits"
  | kwInteger => "Integer"
  | kwInterface => "Interface"
  | kwIs => "Is"
  | kwIsNot => "IsNot"
  | kwLet => "Let"
  | kwLib => "Lib"
  | kwLike => "Like"
  | kwLong => "Long"
  | kwLoop => "Loop"
  | kwMe => "Me"
  | kwMod => "Mod"
  | kwModule => "Module"
  | kwMustInherit => "MustInherit"
  | kwMustOverride => "MustOverride"
  | kwMyBase => "MyBase"
  | kwMyClass => "MyClass"
  | kwNamespace => "Namespace"
  | kwNarrowing => "Narrowing"
  | kwNew => "New"
  | kwNext => "Next"
  | kwNot => "Not"
  | kwNothing => "Nothing"
  | kwNotInheritable => "NotInheritable"
  | kwNotOverridable => "NotOverridable"
  | kwObject => "Object"
  | kwOf => "Of"
  | kwOn => "On"
  | kwOperator => "Operator"
  | kwOption => "Option"
  | kwOptional => "Optional"
  | kwOr => "Or"
  | kwOrElse => "OrElse"
  | kwOverloads => "Overloads"
  | kwOverridable => "Overridable"
  | kwOverrides => "Overrides"
  | kwParamArray => "ParamArray"
  | kwPartial => "Partial"
  | kwPrivate => "Private"
  | kwProperty => "Property"
  | kwProtected => "Protected"
  | kwPublic => "Public"
  | kwRaiseEvent => "RaiseEvent"
  | kwReadOnly => "ReadOnly"
  | kwReDim => "ReDim"
  | kwRem => "REM"
  | kwRemoveHandler => "RemoveHandler"
  | kwResume => "Resume"
  | kwReturn => "Return"
  | kwSByte => "SByte"
  | kwSelect => "Select"
  | kwSet => "Set"
  | kwShadows => "Shadows"
  | kwShared => "Shared"
  | kwShort => "Short"
  | kwSingle => "Single"
  | kwStatic => "Static"
  | kwStep => "Step"
  | kwStop => "Stop"
  | kwString => "String"
  | kwStructure => "Structure"
  | kwSub => "Sub"
  | kwSyncLock => "SyncLock"
  | kwThen => "Then"
  | kwThrow => "Throw"
  | kwTo => "To"
  | kwTrue => "True"
  | kwTry => "Try"
  | kwTryCast => "TryCast"
  | kwTypeOf => "TypeOf"
  | kwUInteger => "UInteger"
  | kwULong => "ULong"
  | kwUShort => "UShort"
  | kwUsing => "Using"
  | kwWend => "Wend"
  | kwWhen => "When"
  | kwWhile => "While"
  | kwWidening => "Widening"
  | kwWith => "With"
  | kwWithEvents => "WithEvents"
  | kwWriteOnly => "WriteOnly"
  | kwXor => "Xor"
  | kwAnsi => "Ansi"
  | kwAssembly => "Assembly"
  | kwAuto => "Auto"
  | kwBinary => "Binary"
  | kwCompare => "Compare"
  | kwCustom => "Custom"
  | kwExplicit => "Explicit"
  | kwExternalChecksum => "ExternalChecksum"
  | kwExternalSource => "ExternalSource"
  | kwIsFalse => "IsFalse"
  | kwIsTrue => "IsTrue"
  | kwMid => "Mid"
  | kwOff => "Off"
  | kwPreserve => "Preserve"
  | kwRegion => "Region"
  | kwStrict => "Strict"
  | kwText => "Text"
  | kwUnicode => "Unicode"
  | kwUntil => "Until"

/-- A contextual word is scanned as an identifier. -/
def isReserved : Keyword → Bool
  | kwAnsi | kwAssembly | kwAuto | kwBinary | kwCompare | kwCustom | kwExplicit
  | kwExternalChecksum | kwExternalSource | kwIsFalse | kwIsTrue | kwMid | kwOff | kwPreserve
  | kwRegion | kwStrict | kwText | kwUnicode | kwUntil => false
  | _ => true

/-- The words that version 8.0 added. -/
def sinceV8 : Keyword → Bool
  | kwContinue | kwCSByte | kwCUInt | kwCULng | kwCUShort | kwGlobal | kwIsNot | kwNarrowing
  | kwOf | kwOperator | kwPartial | kwSByte | kwTryCast | kwUInteger | kwULong | kwUShort
  | kwUsing | kwWidening | kwCustom | kwIsFalse | kwIsTrue => true
  | _ => false

end Keyword

/-- The spelling of a word as keywords are compared: half-width small letters, or nothing if the
word has a character that no keyword has. -/
def foldWord (word : List Char) : Option (List Char) :=
  let plain := word.map halfWidth
  if plain.all Char.isAlpha then some (plain.map Char.toLower) else none

/-- The number of bytes that a word takes in UTF-8. -/
def utf8Length (word : List Char) : Nat := word.foldr (fun c n => c.utf8Size + n) 0

/-- A longer word is never a keyword. -/
def keywordByteLimit : Nat := 32

/-- Every keyword beside its folded spelling. -/
def keywordTable : List (List Char × Keyword) :=
  Keyword.all.map fun k => (k.spelling.toList.map Char.toLower, k)

/-- The keyword that a word spells in the given version. -/
def Keyword.ofWord? (version : Version) (word : List Char) : Option Keyword :=
  if keywordByteLimit < utf8Length word then none
  else do
    let folded ← foldWord word
    let keyword ← keywordTable.lookup folded
    if keyword.sinceV8 && !version.supportsV8 then none else some keyword

end VisualBasic
