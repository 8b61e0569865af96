import VisualBasic.Location

/-!
Data without types of its own: flags, numbers, texts, lists and records.  A location is a list of
three numbers and a span a list of six.
-/

set_option autoImplicit false

namespace VisualBasic

/-- Plain data, the form in which tokens, trees and diagnostics leave the library. -/
inductive Datum where
  | null
  | flag (value : Bool)
  | number (value : Int)
  | text (value : String)
  | list (items : List Datum)
  | record (fields : List (String × Datum))
deriving Inhabited

namespace Datum

variable {α : Type}

def ofNat (n : Nat) : Datum := number n

/-- Integers that need not fit a machine word are written out. -/
def ofInteger (n : Int) : Datum := text (toString n)

def ofOption (f : α → Datum) : Option α → Datum
  | some a => f a
  | none => null

def ofList (f : α → Datum) (items : List α) : Datum := list (items.map f)

/-- A case of a choice with what belongs to it. -/
def tagged (tag : String) (value : Datum) : Datum := list [text tag, value]

end Datum

def Location.datum (l : Location) : Datum :=
  .list [.ofNat l.index, .ofNat l.line, .ofNat l.column]

def Span.datum (s : Span) : Datum :=
  .list [.ofNat s.start.index, .ofNat s.start.line, .ofNat s.start.column, .ofNat s.finish.index,
    .ofNat s.finish.line, .ofNat s.finish.column]

/-- A place that may be missing. -/
def Location.optionDatum (l : Option Location) : Datum := .ofOption datum l

end VisualBasic
