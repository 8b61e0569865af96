import VisualBasic.Proofs.Tandem.Source

/-!
What is found in a text is added to what was found before it.  Parsing reads neither the earlier
diagnostics nor the earlier tables, so the tree and everything that is added depend on the text
alone.
-/

set_option autoImplicit false

namespace VisualBasic

namespace Findings

variable {α : Type}

/-- Runs a rule on a text, with the diagnostics and tables of earlier texts in its hands.  Where the
directives are not asked for, the rule has tables of its own, which are thrown away. -/
def runOn (before : Findings) (withTables : Bool) (rule : Rules → Bodies → Parse α)
    (isScript : Bool) (o : ScanOptions) (text : String) : α × Findings :=
  let start : Findings := if withTables then before else { before with tables := .empty }
  let found := start.parse rule o.version isScript (o.tokenize text)
  (found.tree, ⟨found.diagnostics, if withTables then found.tables else before.tables⟩)

/-- Parses a file, adding to earlier findings. -/
def parseFile (before : Findings) (withTables : Bool) (o : ScanOptions) (text : String) :
    SourceFile × Findings :=
  before.runOn withTables Parse.wholeFile false o text

/-- Parses a script, adding to earlier findings. -/
def parseScript (before : Findings) (withTables : Bool) (o : ScanOptions) (text : String) :
    Script × Findings :=
  before.runOn withTables Parse.wholeScript true o text

theorem parse_eq [Relocate α] [LawfulRelocate α] {rule : Rules → Bodies → Parse α}
    (moves : Moves rule) (before : Findings) (isScript : Bool) (o : ScanOptions) (text : String) :
    let found := parseTokens rule o.version isScript (o.tokenize text)
    before.parse rule o.version isScript (o.tokenize text) =
      ⟨found.tree, before.diagnostics ++ found.diagnostics, before.tables.append found.tables⟩ := by
  have moved := moves.parse before o.version isScript (stream_tokenize o text) (g := id)
    (fun _ _ => Iff.rfl) rfl
  simp only [relocate_id] at moved
  exact moved

theorem runOn_eq [Relocate α] [LawfulRelocate α] {rule : Rules → Bodies → Parse α}
    (moves : Moves rule) (before : Findings) (withTables isScript : Bool) (o : ScanOptions)
    (text : String) :
    let found := parseTokens rule o.version isScript (o.tokenize text)
    before.runOn withTables rule isScript o text = (found.tree, before.add found withTables) := by
  cases withTables with
  | false =>
    unfold runOn
    dsimp only
    rw [if_neg Bool.false_ne_true, parse_eq moves]
    rfl
  | true =>
    unfold runOn
    dsimp only
    rw [if_pos rfl, parse_eq moves]
    rfl

end Findings

/-- Everything that one parse adds to what was found before: its diagnostics, and the entries of its
tables where they are asked for. -/
structure Findings.Grows {α : Type} (before : Findings) (withTables : Bool) (found : Parsed α)
    (after : Findings) : Prop where
  diagnostics : after.diagnostics = before.diagnostics ++ found.diagnostics
  constants : after.tables.constants =
    before.tables.constants ++ if withTables then found.tables.constants else []
  regions : after.tables.regions =
    before.tables.regions ++ if withTables then found.tables.regions else []
  lineMappings : after.tables.lineMappings =
    before.tables.lineMappings ++ if withTables then found.tables.lineMappings else []
  checksums : after.tables.checksums =
    before.tables.checksums ++ if withTables then found.tables.checksums else []

theorem Findings.grows_add {α : Type} (before : Findings) (withTables : Bool) (found : Parsed α) :
    before.Grows withTables found (before.add found withTables) := by
  cases withTables with
  | false => exact ⟨rfl, by simp [add], by simp [add], by simp [add], by simp [add]⟩
  | true => exact ⟨rfl, rfl, rfl, rfl, rfl⟩

/-- Whatever was found before, and whether or not the directives are asked for, a text gives the same
tree, and what it adds behind the earlier findings is the same. -/
theorem findings_only_grow (o : ScanOptions) (text : String) (before : Findings)
    (withTables : Bool) :
    ((before.parseFile withTables o text).1 = (parseFile o text).tree ∧
        before.Grows withTables (parseFile o text) (before.parseFile withTables o text).2) ∧
      (before.parseScript withTables o text).1 = (parseScript o text).tree ∧
        before.Grows withTables (parseScript o text) (before.parseScript withTables o text).2 := by
  have file := Findings.runOn_eq moves_wholeFile before withTables false o text
  have script := Findings.runOn_eq moves_wholeScript before withTables true o text
  unfold Findings.parseFile Findings.parseScript parseFile parseScript
  dsimp only at file script ⊢
  rw [file, script]
  dsimp only
  exact ⟨⟨rfl, Findings.grows_add _ _ _⟩, rfl, Findings.grows_add _ _ _⟩

end VisualBasic
