import VisualBasic.Proofs.Report.Opening
import VisualBasic.Proofs.Scan.Leading
import VisualBasic.Proofs.Text.Inert

/-!
What directives in front of a text hide.  A text is read behind directives as it is behind empty lines,
but for the directives that are still open; what is wrong with the directives hides at most the first
problem of what follows.
-/

set_option autoImplicit false

namespace VisualBasic

/-- Runs a rule on tokens, behind a text that leaves directives open. -/
def OpenDirectives.parse {α : Type} (opened : OpenDirectives) (rule : Rules → Bodies → Parse α)
    (version : Version) (tokens : List Token) : Parsed α :=
  let significant := tokens.filter fun t => !t.isComment
  let depth := significant.length + 1
  let r := Rules.ofDepth version depth
  let start := ParseState.start (tokens.filterMap Token.comment?) significant
  let (tree, state) := (rule r (Bodies.ofDepth false r depth)).run { start with directives := opened }
  ⟨tree, state.diagnostics, state.tables⟩

namespace ParseState

variable {s t : ParseState}

end ParseState

/-- A token that begins something: no comment, and not where a line, a statement or the text ends. -/
def Token.isSolid (t : Token) : Bool :=
  t.kind != .comment && t.kind != .lineTerminator && t.kind != .mark .colon && t.kind != .endOfStream

end VisualBasic
