import VisualBasic.Scan.Reader
import VisualBasic.Scan.Error

/-!
A scanner over a text.  Tokens are read when they are first asked for and kept in a log, so every
place that has been passed can be visited again.  The tab width can change while scanning; tokens
in the log keep their locations.
-/

set_option autoImplicit false

namespace VisualBasic

structure ScanOptions where
  version : Version
  tab : Nat
deriving DecidableEq, Inhabited

namespace ScanOptions

def standard : ScanOptions := ⟨.latest, 4⟩

def withTab (o : ScanOptions) (width : Nat) : Except ScanError ScanOptions :=
  if width < 1 then .error (.invalidTabWidth width) else .ok { o with tab := width }

/-- A width of zero is taken for one. -/
def effectiveTab (o : ScanOptions) : Nat := max o.tab 1

end ScanOptions

/-- The text of a stream of bytes. -/
def decodeText (bytes : ByteArray) : Except ScanError String :=
  match String.fromUTF8? bytes with
  | some text => .ok text
  | none => .error .invalidEncoding

/-- All tokens of a text under the given options. -/
def ScanOptions.tokenize (o : ScanOptions) (text : String) : List Token :=
  VisualBasic.tokenize o.version o.effectiveTab text.toList

structure Scanner where
  version : Version
  tab : Nat
  reader : Reader
  log : Array Token
  position : Nat
deriving Inhabited

namespace Scanner

def ofText (o : ScanOptions) (text : String) : Scanner :=
  ⟨o.version, o.effectiveTab, Reader.ofText o.effectiveTab text.toList, #[], 0⟩

def tokenCount (s : Scanner) : Nat := s.log.size

def isOnFirstToken (s : Scanner) : Bool := s.position == 0

def setTab (s : Scanner) (width : Nat) : Except ScanError Scanner :=
  if width < 1 then .error (.invalidTabWidth width) else .ok { s with tab := width }

/-- The log ends with the end of the stream. -/
def isComplete (s : Scanner) : Bool := s.log.back?.any fun t => t.kind == .endOfStream

/-- Adds one token to a log that is not complete. -/
def extend (s : Scanner) : Scanner :=
  if s.isComplete then s
  else
    let (token, after) := s.reader.next s.version s.tab
    { s with reader := after, log := s.log.push token }

def extendBy : Nat → Scanner → Scanner
  | 0, s => s
  | n + 1, s => extendBy n s.extend

/-- The scanner with the given place in its log, if the text has that many tokens. -/
def reach (s : Scanner) (place : Nat) : Scanner := s.extendBy (place + 1 - s.log.size)

/-- The token at a place; behind the end of the stream there is nothing but that end. -/
def tokenAt (s : Scanner) (place : Nat) : Token :=
  s.log[place]?.getD (s.log.back?.getD default)

def peek (s : Scanner) : Token × Scanner :=
  let s := s.reach s.position
  (s.tokenAt s.position, s)

/-- The end of the stream can be read any number of times. -/
def read (s : Scanner) : Token × Scanner :=
  let (token, s) := s.peek
  (token, if token.kind = .endOfStream then s else { s with position := s.position + 1 })

/-- The next token, the end of the stream once. -/
def next? (s : Scanner) : Option Token × Scanner :=
  let ended := s.position != 0 && s.log[s.position - 1]?.any fun t => t.kind == .endOfStream
  if ended then (none, s)
  else
    let (token, s) := s.peek
    (some token, { s with position := s.position + 1 })

def previous (s : Scanner) : Except ScanError Token :=
  match s.position with
  | 0 => .error .noPreviousToken
  | n + 1 => .ok (s.tokenAt n)

def reset (s : Scanner) (mark : Nat) : Except ScanError Scanner :=
  if s.log.size < mark then .error (.invalidMark mark s.log.size)
  else .ok { s with position := mark }

/-- The last place with a given token, from the current one backwards. -/
def lastPlace? (log : List Token) (token : Token) : Option Nat :=
  (log.reverse.findIdx? fun t => t.sameAs token).map fun i => log.length - 1 - i

/-- Goes back to a token that has been read or is the next one. -/
def seek (s : Scanner) (token : Token) : Except ScanError Scanner :=
  let upper := min s.position (s.log.size - 1)
  match lastPlace? (s.log.toList.take (upper + 1)) token with
  | some place => .ok { s with position := place }
  | none => .error (.unknownToken token.span)

/-- Reads until a token satisfies the test, which is the last one read; at most as many tokens as
the first argument says. -/
def readUntil (stop : TokenKind → Bool) : Nat → Scanner → List Token × Scanner
  | 0, s => ([], s)
  | n + 1, s =>
    let (token, s) := s.read
    if stop token.kind then ([token], s)
    else
      let (rest, s) := readUntil stop n s
      (token :: rest, s)

def readBlock (s : Scanner) (count : Nat) : List Token × Scanner :=
  s.readUntil (· == .endOfStream) count

/-- No text has more tokens left than this. -/
def bound (s : Scanner) : Nat := s.log.size + s.reader.rest.length + 1

def readLine (s : Scanner) : List Token × Scanner :=
  s.readUntil (fun k => k == .lineTerminator || k == .endOfStream) s.bound

def readToEnd (s : Scanner) : List Token × Scanner := s.readUntil (· == .endOfStream) s.bound

end Scanner

end VisualBasic
