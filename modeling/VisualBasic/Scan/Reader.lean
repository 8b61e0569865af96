import VisualBasic.Scan.Lexeme

/-!
Reading a text token by token.  A reader is the text that is left and the location it starts at.
Between tokens it skips blanks and line continuations.
-/

set_option autoImplicit false

namespace VisualBasic

namespace Location

/-- The location after a character.  A tab takes a fixed number of columns.  A carriage return
before a line feed leaves the line break to it. -/
def advance (tab : Nat) (c : Char) (next : Option Char) (l : Location) : Location :=
  if c = '\t' then ⟨l.index + 1, l.line, l.column + tab⟩
  else if isLineTerminator c && !(c == '\r' && next == some '\n') then ⟨l.index + 1, l.line + 1, 1⟩
  else ⟨l.index + 1, l.line, l.column + 1⟩

end Location

structure Reader where
  rest : List Char
  location : Location
deriving DecidableEq, Inhabited

namespace Reader

/-- A byte order mark at the very start of a text is not part of it. -/
def byteOrderMark : Char := '\uFEFF'

/-- The reader after the given number of characters. -/
def skip (tab : Nat) : Nat → Reader → Reader
  | 0, r => r
  | n + 1, r =>
    match r.rest with
    | [] => r
    | c :: rest => skip tab n ⟨rest, r.location.advance tab c rest.head?⟩

def ofText (tab : Nat) (text : List Char) : Reader :=
  let r : Reader := ⟨text, .origin⟩
  if text.head? = some byteOrderMark then r.skip tab 1 else r

/-- The number of characters behind the underscore of a line continuation: blanks and a line
break, or blanks up to the end of the text. -/
def continuationTail? (underscore : Char) (rest : List Char) : Option Nat :=
  if halfWidth underscore = '_' then
    let blanks := (rest.takeWhile isBlank).length
    match rest.drop blanks with
    | [] => some blanks
    | c :: after =>
      if isLineTerminator c then some (blanks + Scan.lineBreakLength (c :: after)) else none
  else none

/-- The number of characters before the next lexeme.  The first argument counts the characters
still to be passed of a continuation that has been recognised. -/
def triviaLength : Nat → List Char → Nat
  | _, [] => 0
  | n + 1, _ :: rest => triviaLength n rest + 1
  | 0, c :: rest =>
    if isBlank c then triviaLength 0 rest + 1
    else match continuationTail? c rest with
      | some n => triviaLength n rest + 1
      | none => 0

def skipTrivia (tab : Nat) (r : Reader) : Reader := r.skip tab (triviaLength 0 r.rest)

/-- The next token and the reader behind it. -/
def next (version : Version) (tab : Nat) (r : Reader) : Token × Reader :=
  let start := r.skipTrivia tab
  let found := Scan.recognize version start.rest
  let after := start.skip tab found.length
  (⟨found.lexeme, ⟨start.location, after.location⟩⟩, after)

/-- At most the given number of tokens, up to the end of the text. -/
def tokens (version : Version) (tab : Nat) : Nat → Reader → List Token
  | 0, _ => []
  | n + 1, r =>
    let (token, after) := r.next version tab
    if token.kind = .endOfStream then [token] else token :: tokens version tab n after

end Reader

/-- All tokens of a text, the end of the stream last.  Every other token takes a character. -/
def tokenize (version : Version) (tab : Nat) (text : List Char) : List Token :=
  (Reader.ofText tab text).tokens version tab (text.length + 1)

end VisualBasic
