import VisualBasic.Scan.Number

/-!
The lexeme at the front of a text.  What is recognised depends on the characters alone, not on
where they stand.
-/

set_option autoImplicit false

namespace VisualBasic

namespace Scan

/-- A carriage return and the line feed behind it are one line break. -/
def lineBreakLength (cs : List Char) : Nat :=
  match cs with
  | '\r' :: '\n' :: _ => 2
  | _ => 1

def lineText (cs : List Char) : List Char := cs.takeWhile fun c => !isLineTerminator c

def commentMatch (isRem : Bool) (introducer : Nat) (cs : List Char) : Match :=
  let text := lineText (cs.drop introducer)
  ⟨.comment (String.ofList text) isRem, introducer + text.length⟩

/-- The type character behind a name. -/
def nameSuffix? (cs : List Char) : Option TypeCharacter :=
  match cs with
  | [] => none
  | c :: rest =>
    (TypeCharacter.ofSymbol? (halfWidth c)).filter
      fun symbol => !(symbol == .singleSymbol && startsMember rest)

/-- A name or keyword.  `Rem` starts a comment and takes one blank with it. -/
def wordMatch (version : Version) (cs : List Char) : Match :=
  let word := cs.takeWhile isIdentifierPart
  let rest := cs.drop word.length
  let suffix := nameSuffix? rest
  let length := word.length + suffix.elim 0 fun _ => 1
  let text := String.ofList word
  match Keyword.ofWord? version word, suffix with
  | some .kwRem, none =>
    commentMatch true (word.length + if rest.head?.any isBlank then 1 else 0) cs
  | some k, none =>
    if k.isReserved then ⟨.keyword k text, length⟩
    else ⟨.identifier ⟨text, none, false, some k⟩, length⟩
  | keyword, suffix => ⟨.identifier ⟨text, suffix, false, keyword⟩, length⟩

/-- The length of a text up to a closing character on the same line, which is counted. -/
def lengthThrough (closing : Char) (cs : List Char) : Nat :=
  let inside := cs.takeWhile fun c => halfWidth c != closing && !isLineTerminator c
  let closed := (cs.drop inside.length).head?.any fun c => halfWidth c == closing
  inside.length + if closed then 1 else 0

/-- A name in brackets, which is never a keyword. -/
def escapedMatch (cs : List Char) : Match :=
  let body := cs.drop 1
  if body.head?.any isIdentifierStart then
    let word := body.takeWhile isIdentifierPart
    let rest := body.drop word.length
    if rest.head?.any fun c => halfWidth c == ']' then
      let suffix := nameSuffix? (rest.drop 1)
      ⟨.identifier ⟨String.ofList word, suffix, true, none⟩,
        word.length + 2 + suffix.elim 0 fun _ => 1⟩
    else ⟨.fault .invalidEscapedIdentifier, word.length + 1⟩
  else ⟨.fault .invalidEscapedIdentifier, 1 + lengthThrough ']' body⟩

/-- The content of a string after its opening quote, with the length up to and with the closing
one.  Two quotes in a row stand for one; a line break leaves the string open. -/
def stringBody? : List Char → Option (List Char × Nat)
  | [] => none
  | c :: rest =>
    if isLineTerminator c then none
    else if isDoubleQuote c then
      match rest with
      | d :: rest' =>
        if isDoubleQuote d then (stringBody? rest').map fun (text, n) => ('"' :: text, n + 2)
        else some ([], 1)
      | [] => some ([], 1)
    else (stringBody? rest).map fun (text, n) => (c :: text, n + 1)

def stringMatch (cs : List Char) : Match :=
  let body := cs.drop 1
  match stringBody? body with
  | none => ⟨.fault .invalidStringLiteral, 1 + (lineText body).length⟩
  | some (text, n) =>
    if (afterOne ['c', 'C'] (body.drop n)).isSome then
      match text with
      | [c] => ⟨.literal (.character c), n + 2⟩
      | _ => ⟨.fault .invalidCharacterLiteral, n + 2⟩
    else ⟨.literal (.string (String.ofList text)), n + 1⟩

/-- A number sign starts a date when a digit follows; else it stands alone. -/
def dateMatch (cs : List Char) : Match :=
  let body := cs.drop 1
  if (body.dropWhile isBlank).head?.any isDecimalDigit then
    let length := lengthThrough '#' body
    let inside := body.takeWhile fun c => halfWidth c != '#' && !isLineTerminator c
    match if inside.length < length then DateValue.ofText? inside else none with
    | some date => ⟨.literal (.date date), 1 + length⟩
    | none => ⟨.fault .invalidDateLiteral, 1 + length⟩
  else ⟨.punctuator .pound, 1⟩

def punctuatorMatch (cs : List Char) : Match :=
  match Punctuator.ofText? ((cs.take 3).map halfWidth) with
  | some p => ⟨.punctuator p, p.spelling.length⟩
  | none => ⟨.fault .invalidCharacter, 1⟩

/-- What a lexeme is, as told by its first characters. -/
inductive Start where
  | lineBreak
  | comment
  | looseUnderscore
  | escapedName
  | word
  | string
  | numberSign
  | decimalNumber
  | radixNumber
  | punctuator
deriving DecidableEq, Inhabited

/-- An ampersand starts a number when a base letter or digit follows. -/
def startsRadix (c : Char) : Bool :=
  c == 'h' || c == 'H' || c == 'o' || c == 'O' || c.isDigit

def startOf (c : Char) (next : Option Char) : Start :=
  let plain := halfWidth c
  if isLineTerminator c then .lineBreak
  else if isSingleQuote c then .comment
  else if plain = '_' ∧ !next.any isIdentifierPart then .looseUnderscore
  else if plain = '[' then .escapedName
  else if isIdentifierStart plain then .word
  else if isDoubleQuote c then .string
  else if plain = '#' then .numberSign
  else if plain.isDigit then .decimalNumber
  else if plain = '.' ∧ next.any isDecimalDigit then .decimalNumber
  else if plain = '&' ∧ next.any (fun n => startsRadix (halfWidth n)) then .radixNumber
  else .punctuator

/-- The lexeme at the front of a text that starts with no blank. -/
def recognize (version : Version) (cs : List Char) : Match :=
  match cs with
  | [] => ⟨.endOfStream, 0⟩
  | c :: rest =>
    match startOf c rest.head? with
    | .lineBreak => ⟨.lineTerminator, lineBreakLength cs⟩
    | .comment => commentMatch false 1 cs
    | .looseUnderscore => ⟨.fault .invalidLineContinuation, 1⟩
    | .escapedName => escapedMatch cs
    | .word => wordMatch version cs
    | .string => stringMatch cs
    | .numberSign => dateMatch cs
    | .decimalNumber => decimalNumber version cs
    | .radixNumber => radixNumber version cs
    | .punctuator => punctuatorMatch cs

end Scan

end VisualBasic
