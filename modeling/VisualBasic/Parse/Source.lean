import VisualBasic.Parse.Body
import VisualBasic.Scan.Scanner

/-!
Parsing whole texts.  Parsing gives a tree for every text; what is wrong with the text is told by
the diagnostics beside it.
-/

set_option autoImplicit false

namespace VisualBasic

/-- A tree with what was found on the way to it. -/
structure Parsed (α : Type) where
  tree : α
  diagnostics : List Diagnostic
  tables : DirectiveTables
deriving Inhabited

namespace Parsed

variable {α β : Type}

def map (f : α → β) (p : Parsed α) : Parsed β := ⟨f p.tree, p.diagnostics, p.tables⟩

/-- The tree of a text without problems, or the problems. -/
def result (p : Parsed α) : Except (List Diagnostic) α :=
  if p.diagnostics.isEmpty then .ok p.tree else .error p.diagnostics

end Parsed

/-- What several texts say in turn. -/
structure Findings where
  diagnostics : List Diagnostic
  tables : DirectiveTables
deriving DecidableEq, Inhabited

namespace Findings

def none : Findings := ⟨[], .empty⟩

/-- Adds what was found in a text, its directives only where they are asked for. -/
def add {α : Type} (f : Findings) (p : Parsed α) (withTables : Bool) : Findings :=
  ⟨f.diagnostics ++ p.diagnostics, if withTables then f.tables.append p.tables else f.tables⟩

end Findings

namespace Token

def isComment (t : Token) : Bool := t.kind == .comment

def comment? (t : Token) : Option Comment :=
  match t.lexeme with
  | .comment text isRem => some ⟨text, isRem, t.span⟩
  | _ => none

end Token

namespace Parse

/-- Reports what is still open at the end of a text. -/
def finish : Parse Unit := do
  match (← get).pendingNext with
  | some pending => dropPendingNext pending
  | none => pure ()
  finishDirectives

/-- From the start of the text to its end. -/
def wholeSpan (list : Span) : Parse Span := do
  return ⟨.origin, (← peek).span.finish.later list.finish⟩

def wholeFile (r : Rules) (b : Bodies) : Parse SourceFile := do
  let (list, _) ← declarations r b .file
  finish
  return ⟨list, (← get).comments, ← wholeSpan list.span⟩

def wholeScript (r : Rules) (b : Bodies) : Parse Script := do
  let (list, _) ← statements r b
  finish
  return ⟨list, (← get).comments, ← wholeSpan list.span⟩

def singleDeclaration (r : Rules) (b : Bodies) : Parse Declaration := do
  let _ ← separators r
  let found ← declaration r b .script
  finish
  return found

def singleStatement (r : Rules) (b : Bodies) : Parse Statement := do
  let _ ← separators r
  let token ← peek
  let found ←
    if token.kind = .endOfStream then do
      report .expectedStatement token.span
      pure (.bad token.span)
    else statement r b
  finish
  return found

end Parse

/-- Runs a rule on tokens.  Phrases nest at most as deep as there are tokens. -/
def parseTokens {α : Type} (rule : Rules → Bodies → Parse α) (version : Version) (isScript : Bool)
    (tokens : List Token) : Parsed α :=
  let significant := tokens.filter fun t => !t.isComment
  let depth := significant.length + 1
  let r := Rules.ofDepth version depth
  let comments := tokens.filterMap Token.comment?
  let (tree, state) := (rule r (Bodies.ofDepth isScript r depth)).run (.start comments significant)
  ⟨tree, state.diagnostics, state.tables⟩

/-- A source file: options, imports, attributes, namespaces and types. -/
def parseFile (o : ScanOptions) (text : String) : Parsed SourceFile :=
  parseTokens Parse.wholeFile o.version false (o.tokenize text)

/-- A script, in which statements and declarations stand side by side. -/
def parseScript (o : ScanOptions) (text : String) : Parsed Script :=
  parseTokens Parse.wholeScript o.version true (o.tokenize text)

/-- The declaration that a text starts with. -/
def parseDeclaration (o : ScanOptions) (text : String) : Parsed Declaration :=
  parseTokens Parse.singleDeclaration o.version false (o.tokenize text)

/-- The statement that a text starts with. -/
def parseStatement (o : ScanOptions) (text : String) : Parsed Statement :=
  parseTokens Parse.singleStatement o.version false (o.tokenize text)

/-- The expression that a text starts with. -/
def parseExpression (o : ScanOptions) (text : String) : Parsed Expression :=
  parseTokens (fun r _ => Parse.expression r .lowest) o.version false (o.tokenize text)

/-- The type name that a text starts with. -/
def parseTypeName (o : ScanOptions) (text : String) : Parsed TypeName :=
  parseTokens (fun r _ => Parse.typeName r) o.version false (o.tokenize text)

end VisualBasic
