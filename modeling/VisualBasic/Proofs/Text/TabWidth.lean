import VisualBasic.Proofs.Tandem.Source

/-!
The width of a tab shows in columns only.  Recognising tokens does not look at locations, so two
widths give tokens that differ in their columns, and no rule of the parser looks at a column.
-/

set_option autoImplicit false

namespace VisualBasic

/-- The location with its column forgotten: all locations of a line with the same index become one. -/
def Location.columnless (l : Location) : Location := { l with column := 1 }

/-- The same, column or not. -/
abbrev EqualButForColumns {α : Type} [Relocate α] (a b : α) : Prop :=
  relocate Location.columnless a = relocate Location.columnless b

theorem Location.columnless_advance {l l' : Location} (tab tab' : Nat) (c : Char)
    (next : Option Char) (same : l.columnless = l'.columnless) :
    (l.advance tab c next).columnless = (l'.advance tab' c next).columnless := by
  obtain ⟨index, line⟩ : l.index = l'.index ∧ l.line = l'.line := by
    simpa [columnless] using same
  unfold advance columnless
  split
  · rw [index, line]
  split
  · rw [index, line]
  · rw [index, line]

namespace Reader

/-- The readers are at the same character; their columns may differ. -/
structure Aligned (r r' : Reader) : Prop where
  rest : r.rest = r'.rest
  location : r.location.columnless = r'.location.columnless

theorem Aligned.skip {r r' : Reader} (aligned : Aligned r r') (tab tab' n : Nat) :
    Aligned (r.skip tab n) (r'.skip tab' n) := by
  induction n generalizing r r' with
  | zero => exact aligned
  | succ n ih =>
    unfold Reader.skip
    rw [aligned.rest]
    split
    next => exact aligned
    next c rest _ => exact ih ⟨rfl, Location.columnless_advance tab tab' c _ aligned.location⟩

theorem Aligned.next {r r' : Reader} (aligned : Aligned r r') (version : Version)
    (tab tab' : Nat) :
    EqualButForColumns (r.next version tab).1 (r'.next version tab').1 ∧
      Aligned (r.next version tab).2 (r'.next version tab').2 := by
  have start : Aligned (r.skipTrivia tab) (r'.skipTrivia tab') := by
    unfold skipTrivia
    rw [aligned.rest]
    exact aligned.skip tab tab' _
  have after := start.skip tab tab' (Scan.recognize version (r'.skipTrivia tab').rest).length
  unfold Reader.next
  dsimp only
  rw [start.rest]
  refine ⟨?_, after⟩
  exact (Token.mk.injEq ..).mpr ⟨rfl, (Span.mk.injEq ..).mpr ⟨start.location, after.location⟩⟩

theorem Aligned.tokens {r r' : Reader} (aligned : Aligned r r') (version : Version)
    (tab tab' n : Nat) :
    EqualButForColumns (r.tokens version tab n) (r'.tokens version tab' n) := by
  induction n generalizing r r' with
  | zero => rfl
  | succ n ih =>
    obtain ⟨same, after⟩ := aligned.next version tab tab'
    have kind : (r.next version tab).1.kind = (r'.next version tab').1.kind := by
      show (relocate Location.columnless (r.next version tab).1).kind = _
      rw [same]
      rfl
    unfold Reader.tokens
    dsimp only
    rw [kind]
    split
    · exact congrArg (fun t => [t]) same
    · exact (List.cons.injEq ..).mpr ⟨same, ih after⟩

end Reader

theorem tokenize_columnless (version : Version) (tab tab' : Nat) (text : List Char) :
    EqualButForColumns (tokenize version tab text) (tokenize version tab' text) := by
  refine Reader.Aligned.tokens ?_ version tab tab' _
  unfold Reader.ofText
  dsimp only
  split
  · exact Reader.Aligned.skip ⟨rfl, rfl⟩ tab tab' 1
  · exact ⟨rfl, rfl⟩

/-- A rule for texts finds the same in tokens that are the same but for their columns. -/
theorem Moves.columnless {α : Type} [Relocate α] {rule : Rules → Bodies → Parse α}
    (moves : Moves rule) (isScript : Bool) (version : Version) (tab tab' : Nat) (text : String) :
    EqualButForColumns
      (parseTokens rule version isScript (ScanOptions.tokenize ⟨version, tab⟩ text))
      (parseTokens rule version isScript (ScanOptions.tokenize ⟨version, tab'⟩ text)) := by
  have found (o : ScanOptions) := moves.relocates version isScript (stream_tokenize o text)
    (g := Location.columnless) (fun _ _ => Iff.rfl) rfl
  have same : relocate Location.columnless (ScanOptions.tokenize ⟨version, tab⟩ text) =
      relocate Location.columnless (ScanOptions.tokenize ⟨version, tab'⟩ text) :=
    tokenize_columnless version _ _ text.toList
  exact (found ⟨version, tab⟩).symm.trans ((congrArg _ same).trans (found ⟨version, tab'⟩))

/-- Whatever a text is parsed as, two tab widths give the same but for columns: the same tree with
its comments, the same diagnostics and the same tables of directives. -/
theorem tab_width_shows_in_columns (version : Version) (tab tab' : Nat) (text : String) :
    EqualButForColumns (parseFile ⟨version, tab⟩ text) (parseFile ⟨version, tab'⟩ text) ∧
      EqualButForColumns (parseScript ⟨version, tab⟩ text) (parseScript ⟨version, tab'⟩ text) ∧
      EqualButForColumns (parseDeclaration ⟨version, tab⟩ text)
        (parseDeclaration ⟨version, tab'⟩ text) ∧
      EqualButForColumns (parseStatement ⟨version, tab⟩ text)
        (parseStatement ⟨version, tab'⟩ text) ∧
      EqualButForColumns (parseExpression ⟨version, tab⟩ text)
        (parseExpression ⟨version, tab'⟩ text) ∧
      EqualButForColumns (parseTypeName ⟨version, tab⟩ text)
        (parseTypeName ⟨version, tab'⟩ text) := by
  unfold parseFile parseScript parseDeclaration parseStatement parseExpression parseTypeName
  dsimp only
  exact ⟨moves_wholeFile.columnless false version tab tab' text,
    moves_wholeScript.columnless true version tab tab' text,
    moves_singleDeclaration.columnless false version tab tab' text,
    moves_singleStatement.columnless false version tab tab' text,
    moves_expression.columnless false version tab tab' text,
    moves_typeName.columnless false version tab tab' text⟩

end VisualBasic
