import VisualBasic.Syntax.Expression

/-!
Trees at other places.  Relocating a tree applies a function to every location in it and changes
nothing else, so trees that agree after all of their locations have been made the same differ in
their locations only.
-/

set_option autoImplicit false

namespace VisualBasic

class Relocate (α : Type) where
  relocate : (Location → Location) → α → α

export Relocate (relocate)

section Containers

variable {α β : Type} [Relocate α] [Relocate β] (g : Location → Location)

instance : Relocate Location := ⟨fun g l => g l⟩
instance : Relocate Span := ⟨fun g s => ⟨g s.start, g s.finish⟩⟩
instance : Relocate (Option α) := ⟨fun g => Option.map (relocate g)⟩
instance : Relocate (List α) := ⟨fun g => List.map (relocate g)⟩
instance : Relocate (α × β) := ⟨fun g a => (relocate g a.1, relocate g a.2)⟩

instance : Relocate (CommaList α) :=
  ⟨fun g l => ⟨relocate g l.items, relocate g l.separators, relocate g l.span⟩⟩

instance : Relocate (TypeArgumentList α) :=
  ⟨fun g a => ⟨relocate g a.openParen, relocate g a.ofKeyword, relocate g a.arguments,
    relocate g a.closeParen, relocate g a.span⟩⟩

instance : Relocate (ArrayBound α) :=
  ⟨fun g b => ⟨relocate g b.lower, relocate g b.toKeyword, relocate g b.upper, relocate g b.span⟩⟩

instance : Relocate (ArrayBounds α) :=
  ⟨fun g b => ⟨relocate g b.openParen, b.rank, relocate g b.bounds, relocate g b.closeParen,
    relocate g b.span⟩⟩

instance : Relocate SimpleName := ⟨fun g n => { n with span := relocate g n.span }⟩

instance : Relocate (Argument α) :=
  ⟨fun g a => ⟨relocate g a.name, relocate g a.colonEquals, relocate g a.value, relocate g a.span⟩⟩

instance : Relocate (ArgumentList α) :=
  ⟨fun g a => ⟨relocate g a.openParen, relocate g a.arguments, relocate g a.closeParen,
    relocate g a.span⟩⟩

instance : Relocate (AggregateInitializer α) :=
  ⟨fun g a => ⟨relocate g a.openBrace, relocate g a.elements, relocate g a.closeBrace,
    relocate g a.span⟩⟩

end Containers

def Name.moved (g : Location → Location) : Name → Name
  | .simple n => .simple (relocate g n)
  | .qualified q dot n s =>
    .qualified (q.moved g) (g dot) (relocate g n) (relocate g s)
  | .globalNamespace s => .globalNamespace (relocate g s)
  | .special k s => .special k (relocate g s)

instance : Relocate Name := ⟨Name.moved⟩

section Expressions

variable (g : Location → Location)

mutual

def Expression.moved : Expression → Expression
  | .literal v s => .literal v (relocate g s)
  | .simpleName n a s =>
    .simpleName (relocate g n) (movedTypeArguments a) (relocate g s)
  | .qualified q dot n a s =>
    .qualified (movedQualifier q) (g dot) (relocate g n) (movedTypeArguments a)
      (relocate g s)
  | .dictionaryLookup q bang n s =>
    .dictionaryLookup (movedQualifier q) (g bang) (relocate g n) (relocate g s)
  | .callOrIndex e a s =>
    .callOrIndex e.moved (movedArguments a) (relocate g s)
  | .currentInstance k s => .currentInstance k (relocate g s)
  | .globalNamespace s => .globalNamespace (relocate g s)
  | .nothing s => .nothing (relocate g s)
  | .parenthesized e close s =>
    .parenthesized e.moved (relocate g close) (relocate g s)
  | .unary op e s => .unary op e.moved (relocate g s)
  | .binary l op opSpan r s =>
    .binary l.moved op (relocate g opSpan) r.moved (relocate g s)
  | .typeOf e k t s =>
    .typeOf e.moved (relocate g k) t.moved (relocate g s)
  | .getType t close s =>
    .getType t.moved (relocate g close) (relocate g s)
  | .cast k e comma t close s =>
    .cast k e.moved (relocate g comma) t.moved (relocate g close)
      (relocate g s)
  | .intrinsicCast t e close s =>
    .intrinsicCast t e.moved (relocate g close) (relocate g s)
  | .newObject t none s => .newObject t.moved none (relocate g s)
  | .newObject t (some a) s =>
    .newObject t.moved (some (movedArguments a)) (relocate g s)
  | .newArray t a s => .newArray t.moved (movedAggregate a) (relocate g s)
  | .addressOf e s => .addressOf e.moved (relocate g s)
  | .bad s => .bad (relocate g s)

def TypeName.moved : TypeName → TypeName
  | .intrinsic t s => .intrinsic t (relocate g s)
  | .named n s => .named (relocate g n) (relocate g s)
  | .constructed n a s =>
    .constructed (relocate g n) (movedTypeArgumentList a) (relocate g s)
  | .array e rank bounds s =>
    .array e.moved rank (movedArrayBounds bounds) (relocate g s)
  | .bad s => .bad (relocate g s)

def Initializer.moved : Initializer → Initializer
  | .expression e => .expression e.moved
  | .aggregate a => .aggregate (movedAggregate a)

def movedQualifier : Option Expression → Option Expression
  | none => none
  | some e => some e.moved

def movedTypeArguments : Option TypeArguments → Option TypeArguments
  | none => none
  | some a => some (movedTypeArgumentList a)

def movedTypeArgumentList : TypeArguments → TypeArguments
  | ⟨openParen, ofKeyword, ⟨types, commas, s⟩, close, t⟩ =>
    ⟨g openParen, g ofKeyword, ⟨movedTypes types, relocate g commas,
      relocate g s⟩, relocate g close, relocate g t⟩

def movedTypes : List TypeName → List TypeName
  | [] => []
  | t :: rest => t.moved :: movedTypes rest

def movedArguments : Arguments → Arguments
  | ⟨openParen, ⟨items, commas, s⟩, close, t⟩ =>
    ⟨relocate g openParen, ⟨movedArgumentItems items, relocate g commas,
      relocate g s⟩, relocate g close, relocate g t⟩

def movedArgumentItems : List (Argument Expression) → List (Argument Expression)
  | [] => []
  | ⟨name, colonEquals, value, s⟩ :: rest =>
    ⟨relocate g name, relocate g colonEquals, movedQualifier value,
      relocate g s⟩ :: movedArgumentItems rest

def movedArrayBounds : Option (ArrayBounds Expression) → Option (ArrayBounds Expression)
  | none => none
  | some ⟨openParen, rank, ⟨items, commas, s⟩, close, t⟩ =>
    some ⟨g openParen, rank, ⟨movedBoundItems items, relocate g commas,
      relocate g s⟩, relocate g close, relocate g t⟩

def movedBoundItems : List (ArrayBound Expression) → List (ArrayBound Expression)
  | [] => []
  | ⟨lower, toKeyword, upper, s⟩ :: rest =>
    ⟨movedQualifier lower, relocate g toKeyword, upper.moved,
      relocate g s⟩ :: movedBoundItems rest

def movedAggregate : Aggregate → Aggregate
  | ⟨openBrace, ⟨items, commas, s⟩, close, t⟩ =>
    ⟨g openBrace, ⟨movedInitializers items, relocate g commas,
      relocate g s⟩, relocate g close, relocate g t⟩

def movedInitializers : List Initializer → List Initializer
  | [] => []
  | i :: rest => i.moved :: movedInitializers rest

end

end Expressions

instance : Relocate Expression := ⟨Expression.moved⟩
instance : Relocate TypeName := ⟨TypeName.moved⟩
instance : Relocate Initializer := ⟨Initializer.moved⟩

/-- The expressions differ in their locations only. -/
def Expression.Alike (a b : Expression) : Prop :=
  relocate (fun _ => Location.origin) a = relocate (fun _ => Location.origin) b

end VisualBasic
