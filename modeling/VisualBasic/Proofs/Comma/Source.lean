import VisualBasic.Proofs.Comma.Body
import VisualBasic.Proofs.Parse.Source

/-!
The lists with commas of whole texts.
-/

set_option autoImplicit false

namespace VisualBasic

/-- A parser that has not started yet. -/
theorem ParseState.sane_start {tokens : List Token} (comments : List Comment)
    (stream : Stream tokens) : (ParseState.start comments tokens).Sane where
  stream := (wf_start comments stream).stream
  behind := (wf_start comments stream).behind
  reported := by simp [start, noteComments]
  pending := by simp [start, noteComments]

namespace Parse

variable {r : Rules} {b : Bodies}

theorem finish_proceeds : Proceeds finish := by
  refine .bind .get fun s => ?_
  split
  · exact .bind (dropPendingNext_proceeds _) fun _ => finishDirectives_proceeds
  · exact finishDirectives_proceeds

theorem wholeFile_writes (rules : r.Punctuates) (bodies : b.Punctuates) :
    Writes (wholeFile r b) (fun f => [.file f]) fun _ => [] := by
  refine fun s sane => (declarations_writes rules bodies .file s sane).bind fun found t so => ?_
  exact (so.pass finish_proceeds).bind fun _ u so => so.item rfl rfl rfl

theorem wholeScript_writes (rules : r.Punctuates) (bodies : b.Punctuates) :
    Writes (wholeScript r b) (fun f => [.script f]) fun _ => [] := by
  refine fun s sane => (statements_writes rules bodies s sane).bind fun found t so => ?_
  exact (so.pass finish_proceeds).bind fun _ u so => so.item rfl rfl rfl

theorem singleDeclaration_writes (rules : r.Punctuates) (bodies : b.Punctuates) :
    WritesDeclaration (singleDeclaration r b) := by
  refine fun s sane => ((Writ.refl sane).pass (separators_proceeds rules)).bind fun _ t so => ?_
  refine (so.part (declaration_writes rules bodies .script)).bind fun found u so => ?_
  exact (so.pass finish_proceeds).bind fun _ v so => so

theorem singleStatement_writes (rules : r.Punctuates) (bodies : b.Punctuates) :
    WritesStatement (singleStatement r b) := by
  refine fun s sane => ((Writ.refl sane).pass (separators_proceeds rules)).bind fun _ t so => ?_
  refine .peek ?_
  split
  · refine (so.pass (.report _ _)).bind fun _ u so => ?_
    rw [pure_bind]
    exact (so.pass finish_proceeds).bind fun _ v so => so.item rfl rfl rfl
  · refine (so.part (statement_writes rules bodies)).bind fun found u so => ?_
    exact (so.pass finish_proceeds).bind fun _ v so => so

end Parse

-- The texts

variable (o : ScanOptions) (text : String)

/-- A rule that writes its tree gives consistent lists for every text. -/
theorem isPunctuated_of_writes {α : Type} {rule : Rules → Bodies → Parse α} {node : α → Node}
    (isScript : Bool) (writes : ∀ {r b}, r.Punctuates → b.Punctuates →
      Writes (rule r b) (fun a => [node a]) fun _ => []) :
    let parsed := parseTokens rule o.version isScript (o.tokenize text)
    (node parsed.tree).Everywhere (Node.IsPunctuated (parsed.diagnostics = [])) := by
  let depth := ((o.tokenize text).filter fun t => !t.isComment).length + 1
  have rules := Rules.ofDepth_punctuates o.version depth
  have written := writes rules (Bodies.ofDepth_punctuates rules isScript depth) _
    (ParseState.sane_start ((o.tokenize text).filterMap Token.comment?) (stream_tokenize o text))
  exact written.nodes _ List.mem_cons_self

/-- Whatever the text and whichever part of it is asked for, a list in the tree has one comma less
than items, and none if it is empty; an array has at least one dimension and no more bounds than
dimensions.  If nothing is reported, each comma stands between its neighbours, and an array with
bounds has one for each dimension. -/
theorem comma_lists_are_consistent :
    (Node.file (parseFile o text).tree).Everywhere
        (Node.IsPunctuated ((parseFile o text).diagnostics = [])) ∧
      (Node.script (parseScript o text).tree).Everywhere
        (Node.IsPunctuated ((parseScript o text).diagnostics = [])) ∧
      (Node.declaration (parseDeclaration o text).tree).Everywhere
        (Node.IsPunctuated ((parseDeclaration o text).diagnostics = [])) ∧
      (Node.ofStatement (parseStatement o text).tree).Everywhere
        (Node.IsPunctuated ((parseStatement o text).diagnostics = [])) ∧
      (Node.expression (parseExpression o text).tree).Everywhere
        (Node.IsPunctuated ((parseExpression o text).diagnostics = [])) ∧
      (Node.typeName (parseTypeName o text).tree).Everywhere
        (Node.IsPunctuated ((parseTypeName o text).diagnostics = [])) :=
  ⟨isPunctuated_of_writes o text false Parse.wholeFile_writes,
    isPunctuated_of_writes o text true Parse.wholeScript_writes,
    isPunctuated_of_writes o text false Parse.singleDeclaration_writes,
    isPunctuated_of_writes o text false Parse.singleStatement_writes,
    isPunctuated_of_writes o text false fun rules _ => Parse.expression_writes rules .lowest,
    isPunctuated_of_writes o text false fun rules _ => Parse.typeName_writes rules⟩

end VisualBasic
