/-!
Positions in a source text.  A location counts characters from the start of the text and carries
the line and column that a reader sees; all comparisons look at the character index only.
-/

set_option autoImplicit false

namespace VisualBasic

structure Location where
  index : Nat
  line : Nat
  column : Nat
deriving DecidableEq, Inhabited

namespace Location

def origin : Location := ⟨0, 1, 1⟩

-- Lines and columns count from one, so a zero marks a location that no text has.
def isValid (l : Location) : Bool := l.line != 0 && l.column != 0

instance : LE Location := ⟨fun a b => a.index ≤ b.index⟩
instance : LT Location := ⟨fun a b => a.index < b.index⟩

instance (a b : Location) : Decidable (a ≤ b) := inferInstanceAs (Decidable (a.index ≤ b.index))
instance (a b : Location) : Decidable (a < b) := inferInstanceAs (Decidable (a.index < b.index))

def sameIndex (a b : Location) : Bool := a.index == b.index

/-- The earlier of two locations; the first when they agree. -/
def earlier (a b : Location) : Location := if b < a then b else a

/-- The later of two locations; the second when they agree. -/
def later (a b : Location) : Location := if b < a then a else b

def render (l : Location) : String := toString l.line ++ ":" ++ toString l.column

def renderExact (l : Location) : String := l.render ++ "@" ++ toString l.index

end Location

/-- The half-open stretch of text from `start` up to `finish`. -/
structure Span where
  start : Location
  finish : Location
deriving DecidableEq, Inhabited

namespace Span

def point (l : Location) : Span := ⟨l, l⟩

def isValid (s : Span) : Bool := s.start.isValid && s.finish.isValid

def isEmpty (s : Span) : Bool := s.start.sameIndex s.finish

def length (s : Span) : Nat := s.finish.index - s.start.index

/-- The smallest span that covers both. -/
def merge (a b : Span) : Span := ⟨a.start.earlier b.start, a.finish.later b.finish⟩

/-- From the start of the first to the finish of the second, wherever they lie. -/
def upTo (a b : Span) : Span := ⟨a.start, b.finish⟩

def contains (a b : Span) : Bool := a.start ≤ b.start && b.finish ≤ a.finish

def sameIndices (a b : Span) : Bool := a.start.sameIndex b.start && a.finish.sameIndex b.finish

/-- Spans are ordered by start, then by finish. -/
def compare (a b : Span) : Ordering :=
  (Ord.compare a.start.index b.start.index).then (Ord.compare a.finish.index b.finish.index)

def render (s : Span) : String := s.start.render

def renderExact (s : Span) : String := s.start.renderExact ++ ".." ++ s.finish.renderExact

end Span

end VisualBasic
