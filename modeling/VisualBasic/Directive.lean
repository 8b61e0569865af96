import VisualBasic.Location

/-!
What the directives of a text say about it.  Directives stand on lines of their own that start with
a number sign; they change nothing in the tree.
-/

set_option autoImplicit false

namespace VisualBasic

/-- A named stretch of the source, directives included. -/
structure Region where
  description : String
  span : Span
deriving DecidableEq, Inhabited

/-- A stretch of the source that comes from another file. -/
structure LineMapping where
  file : String
  line : Int
  span : Span
deriving DecidableEq, Inhabited

structure Checksum where
  file : String
  guid : String
  checksum : String
  span : Span
deriving DecidableEq, Inhabited

/-- All that directives say, each list in the order in which the source completes its entries. -/
structure DirectiveTables where
  constants : List String
  regions : List Region
  lineMappings : List LineMapping
  checksums : List Checksum
deriving DecidableEq, Inhabited

namespace DirectiveTables

def empty : DirectiveTables := ⟨[], [], [], []⟩

def isEmpty (t : DirectiveTables) : Bool :=
  t.constants.isEmpty && t.regions.isEmpty && t.lineMappings.isEmpty && t.checksums.isEmpty

def append (a b : DirectiveTables) : DirectiveTables :=
  ⟨a.constants ++ b.constants, a.regions ++ b.regions, a.lineMappings ++ b.lineMappings,
    a.checksums ++ b.checksums⟩

end DirectiveTables

/-- A conditional block that is still open, with whether its last branch has begun. -/
structure OpenConditional where
  directive : Span
  inElse : Bool
deriving DecidableEq, Inhabited

structure OpenRegion where
  description : String
  directive : Span
deriving DecidableEq, Inhabited

structure OpenMapping where
  file : String
  line : Int
  directive : Span
deriving DecidableEq, Inhabited

/-- The directives that wait for their ends, the innermost first.  Mappings do not nest. -/
structure OpenDirectives where
  conditionals : List OpenConditional
  regions : List OpenRegion
  mapping : Option OpenMapping
deriving DecidableEq, Inhabited

def OpenDirectives.none : OpenDirectives := ⟨[], [], .none⟩

end VisualBasic
