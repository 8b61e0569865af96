import VisualBasic.Parse.State

/-!
Items with commas between them.  There is one comma less than there are items, by the shape of the
type.
-/

set_option autoImplicit false

namespace VisualBasic

/-- One or more items; each item after the first comes with the place of the comma before it. -/
structure Separated (α : Type) where
  first : α
  rest : List (Location × α)
deriving Inhabited

namespace Separated

variable {α : Type}

def items (s : Separated α) : List α := s.first :: s.rest.map Prod.snd

def separators (s : Separated α) : List Location := s.rest.map Prod.fst

def last (s : Separated α) : α := (s.rest.getLast?.map Prod.snd).getD s.first

def cons (item : α) (comma : Location) (s : Separated α) : Separated α :=
  ⟨item, (comma, s.first) :: s.rest⟩

/-- From the first item to the last. -/
def hull (span : α → Span) (s : Separated α) : Span := (span s.first).merge (span s.last)

def toCommaList (s : Separated α) (span : Span) : CommaList α := ⟨s.items, s.separators, span⟩

/-- The list whose span is that of its items. -/
def toHullList (span : α → Span) (s : Separated α) : CommaList α := s.toCommaList (s.hull span)

theorem length_separators (s : Separated α) : s.separators.length + 1 = s.items.length := by
  simp [separators, items]

end Separated

namespace Parse

variable {α σ : Type}

/-- Reads items with commas between them, at most one more than the first argument.  An item says
with which state to read the next one, or that it is the last whatever follows. -/
def separatedFrom (item : σ → Parse (α × Option σ)) : Nat → σ → Parse (Separated α)
  | 0, state => do return ⟨(← item state).1, []⟩
  | n + 1, state => do
    match ← item state with
    | (first, none) => return ⟨first, []⟩
    | (first, some state) =>
      match ← eatPlace (.mark .comma) with
      | none => return ⟨first, []⟩
      | some comma => return (← separatedFrom item n state).cons first comma

/-- Reads items with commas between them.  Each further item takes a comma, so the number of tokens
left bounds the number of items. -/
def separated (item : Parse α) : Parse (Separated α) := do
  separatedFrom (fun _ => do return (← item, some ())) (← get).remaining ()

/-- Reads items with commas between them into a list that spans them. -/
def commaList (span : α → Span) (item : Parse α) : Parse (CommaList α) := do
  return (← separated item).toHullList span

end Parse

end VisualBasic
