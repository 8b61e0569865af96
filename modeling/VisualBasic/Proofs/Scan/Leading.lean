import VisualBasic.Proofs.Scan.Blank

/-!
The directives that a text starts with.  Blanks in their place leave the ends of their lines, and what
stands behind them is read as it was.
-/

set_option autoImplicit false

namespace VisualBasic

/-- A number of lines, each of them a directive. -/
inductive DirectiveLines : Nat → List Token → Prop where
  | nil : DirectiveLines 0 []
  | cons {n : Nat} {sign ending : Token} {line more : List Token} : sign.kind = .mark .pound →
      (∀ t ∈ line, t.kind ≠ .lineTerminator) → ending.kind = .lineTerminator →
      DirectiveLines n more → DirectiveLines (n + 1) (sign :: (line ++ ending :: more))

end VisualBasic
