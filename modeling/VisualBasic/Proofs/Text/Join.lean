import VisualBasic.Proofs.Scan.Place
import VisualBasic.Proofs.Tandem.Join
import VisualBasic.Proofs.Text.Inert

/-!
Scripts one behind the other.  A script whose text has no problems leaves nothing behind that a
script on the next lines could depend on, so both together are what each of them is by itself, the
second one at other places.
-/

set_option autoImplicit false

namespace VisualBasic

-- The start of a text

theorem Location.IsExact.rooted_eq {l : Location} {tab : Nat} {text : List Char}
    (exact : l.IsExact tab text) : l.rooted = l := by
  unfold Location.rooted
  split
  next zero =>
    rw [exact.place, zero]
    rfl
  next => rfl

/-- The tokens at the start of a text are all at one location. -/
theorem rooted_tokenize (version : Version) (tab : Nat) (text : List Char) :
    relocate Location.rooted (tokenize version tab text) = tokenize version tab text := by
  refine relocate_tokens fun t member => ?_
  obtain ⟨start, finish⟩ := Reader.Stands.tokens _ (.ofText tab text) t member
  exact ⟨start.rooted_eq, finish.rooted_eq⟩

theorem rooted_parseScript (o : ScanOptions) (text : String) :
    relocate Location.rooted (parseScript o text) = parseScript o text := by
  have ordered (a b : Location) : a.rooted.index < b.rooted.index ↔ a.index < b.index := by
    rw [Location.index_rooted, Location.index_rooted]
  unfold parseScript
  exact moves_wholeScript.fixed o.version true (stream_tokenize o text) ordered rfl
    (rooted_tokenize o.version o.effectiveTab text.toList)

-- Clean scripts

/-- In a script without problems, each of whose loops has a `Next` of its own, all statements stand
by themselves. -/
theorem firm_of_clean {o : ScanOptions} {text : String}
    (clean : (parseScript o text).diagnostics = [])
    (alone : (Node.script (parseScript o text).tree).Everywhere Node.ClosesAlone) :
    ∀ s ∈ (parseScript o text).tree.statements.statements, s.Firm := by
  obtain ⟨accounts, -⟩ := parseScript_accounts o text
  have closed := accounts.ledger
  rw [clean, List.filterMap_nil] at closed
  have firm : (Node.script (parseScript o text).tree).Firm :=
    { alone := fun m member => ⟨by
        have whole := (accounts.complete clean m member).1
        simpa [Node.isWhole] using (Bool.and_eq_true_iff.1 whole).1, alone m member⟩
      closed := closed.nil_eq.symm }
  exact fun s member => firm.child (fun _ _ => rfl) (List.mem_map_of_mem member)

-- Both scripts

theorem parseTokens_run {α : Type} (rule : Rules → Bodies → Parse α) (version : Version)
    (tokens : List Token) :
    parseTokens rule version true tokens =
      let run := (rule (.ofTokens version (significant tokens))
        (.ofTokens version (significant tokens))).run
          (.start (tokens.filterMap Token.comment?) (significant tokens))
      ⟨run.1, run.2.diagnostics, run.2.tables⟩ :=
  rfl

theorem parseScript_run (o : ScanOptions) (text : String) :
    let run := scriptRun o.version ((o.tokenize text).filterMap Token.comment?)
      (significant (o.tokenize text))
    (parseScript o text).tree = run.1 ∧ (parseScript o text).diagnostics = run.2.diagnostics := by
  simp only [parseScript, parseTokens_run, scriptRun, and_self]

/-- Moving what is found in a text does not depend on which location is taken for its start. -/
theorem relocate_rooted {α : Type} [Relocate α] [LawfulRelocate α] {a : α} (e : Location)
    (fixed : relocate Location.rooted a = a) :
    relocate (fun l => e.behind l.rooted) a = relocate e.behind a := by
  conv_rhs => rw [← fixed, relocate_comp]
  rfl

/-- What a script and another one behind it have in common, apart from the comments. -/
theorem parseScript_join {o : ScanOptions} {text more both : String} {ts : List Token}
    {l e : Location} (next : l.index < e.index)
    (here : o.tokenize text = ts ++ [⟨.endOfStream, .point l⟩])
    (there : o.tokenize both =
      ts ++ ⟨.lineTerminator, ⟨l, e⟩⟩ :: relocate e.behind (o.tokenize more))
    (clean : (parseScript o text).diagnostics = [])
    (firm : ∀ s ∈ (parseScript o text).tree.statements.statements, s.Firm) :
    (parseScript o both).tree.statements.statements =
        (parseScript o text).tree.statements.statements ++
          relocate e.behind (parseScript o more).tree.statements.statements ∧
      (parseScript o both).tree.statements.colons =
        (parseScript o text).tree.statements.colons ++
          relocate e.behind (parseScript o more).tree.statements.colons ∧
      (parseScript o both).diagnostics = relocate e.behind (parseScript o more).diagnostics := by
  let ending : Token := ⟨.lineTerminator, ⟨l, e⟩⟩
  let rest := relocate e.behind (significant (o.tokenize more))
  have first : significant (o.tokenize text) = significant ts ++ [⟨.endOfStream, .point l⟩] := by
    rw [here, significant_append]
    rfl
  have joined : significant (o.tokenize both) = significant ts ++ ending :: rest := by
    rw [there, significant_append]
    exact congrArg (significant ts ++ ending :: ·) (filter_isComment_relocate e.behind _)
  have rooted : relocate Location.rooted (significant (o.tokenize more)) =
      significant (o.tokenize more) :=
    (filter_isComment_relocate Location.rooted _).symm.trans
      (congrArg significant (rooted_tokenize o.version o.effectiveTab more.toList))
  have stream : Stream (significant (o.tokenize text)) := stream_tokenize o text
  have stream' : Stream (significant (o.tokenize both)) := stream_tokenize o both
  obtain ⟨tree, found⟩ := parseScript_run o text
  obtain ⟨tree', found'⟩ := parseScript_run o both
  obtain ⟨tree'', found''⟩ := parseScript_run o more
  rw [tree] at firm
  rw [found] at clean
  rw [first] at stream tree found firm clean
  rw [joined] at stream' tree' found'
  have breaks : ending.kind = .lineTerminator := rfl
  have join := script_join breaks next (relocate_rooted e rooted).symm stream stream'
    (stream_tokenize o more) (plain_of_significant _) (plain_of_significant _) _
    ((o.tokenize both).filterMap Token.comment?) ((o.tokenize more).filterMap Token.comment?) clean
    firm
  dsimp only at join
  rw [← tree, ← tree', ← tree'', ← found', ← found''] at join
  have fixed := rooted_parseScript o more
  have statements := relocate_rooted e (congrArg (·.tree.statements.statements) fixed)
  have colons := relocate_rooted e (congrArg (·.tree.statements.colons) fixed)
  have diagnostics := relocate_rooted e (congrArg Parsed.diagnostics fixed)
  rw [statements, colons, diagnostics] at join
  exact join

/-- A script whose text has no problems, and another script behind it.  No loop of the first script
is closed along with another one, and neither a line continuation nor a carriage return at its end
takes up the line feed between them.  Together they have the statements, the colons and the comments
of both in turn, those of the second script moved by the lines and characters before it; what is
wrong is what is wrong with the second one. -/
theorem scripts_join (o : ScanOptions) (text more : String)
    (clean : (parseScript o text).diagnostics = [])
    (alone : (Node.script (parseScript o text).tree).Everywhere Node.ClosesAlone)
    (closed : ¬ EndsContinued text.toList (o.tokenize text))
    (uncut : text.toList.getLast? ≠ some '\r')
    (unmarked : more.toList.head? ≠ some Reader.byteOrderMark) :
    let move := Location.behind (endLocation o.effectiveTab (text ++ "\n").toList)
    let first := parseScript o text
    let second := parseScript o more
    let both := parseScript o (text ++ "\n" ++ more)
    both.tree.statements.statements =
        first.tree.statements.statements ++ relocate move second.tree.statements.statements ∧
      both.tree.statements.colons =
        first.tree.statements.colons ++ relocate move second.tree.statements.colons ∧
      both.tree.comments = first.tree.comments ++ relocate move second.tree.comments ∧
      both.diagnostics = relocate move second.diagnostics := by
  obtain ⟨ts, l, here, ends, there⟩ := tokenize_join closed uncut unmarked
  have whole : (text ++ "\n" ++ more).toList = text.toList ++ '\n' :: more.toList := by simp
  have line : (text ++ "\n").toList = text.toList ++ ['\n'] := by simp
  change o.tokenize text = _ at here
  rw [← whole, ← line] at there
  rw [← line] at ends
  change o.tokenize (text ++ "\n" ++ more) = ts ++ _ :: relocate _ (o.tokenize more) at there
  generalize endLocation o.effectiveTab (text ++ "\n").toList = e at ends there ⊢
  have next : l.index < e.index := by
    rw [ends]
    exact Nat.lt_succ_self _
  have comments : (parseScript o (text ++ "\n" ++ more)).tree.comments =
      (parseScript o text).tree.comments ++
        relocate e.behind (parseScript o more).tree.comments := by
    rw [parseScript_comments, parseScript_comments, parseScript_comments, there, here,
      List.filterMap_append, List.filterMap_append, ← filterMap_comment?_relocate]
    exact congrArg (· ++ _) (List.append_nil _).symm
  obtain ⟨statements, colons, diagnostics⟩ :=
    parseScript_join next here there clean (firm_of_clean clean alone)
  exact ⟨statements, colons, comments, diagnostics⟩

/-- A missing operand behind a loop is found on the line behind the loop. -/
theorem missing_operand_behind_loop :
    (parseScript .standard "For i = 1 To 2\nNext i").diagnostics = [] ∧
      (Node.script (parseScript .standard "For i = 1 To 2\nNext i").tree).Everywhere
        Node.ClosesAlone ∧
      ¬ EndsContinued "For i = 1 To 2\nNext i".toList
        (ScanOptions.standard.tokenize "For i = 1 To 2\nNext i") ∧
      (parseScript .standard "x = ").diagnostics = [⟨.expectedExpression, .point ⟨4, 1, 5⟩⟩] ∧
      (parseScript .standard ("For i = 1 To 2\nNext i" ++ "\n" ++ "x = ")).diagnostics =
        [⟨.expectedExpression, .point ⟨26, 3, 5⟩⟩] := by
  have clean : (parseScript .standard "For i = 1 To 2\nNext i").diagnostics = [] := by
    decide +kernel
  have alone : (Node.script (parseScript .standard "For i = 1 To 2\nNext i").tree).Everywhere
      Node.ClosesAlone := by
    decide +kernel
  have closed : ¬ EndsContinued "For i = 1 To 2\nNext i".toList
      (ScanOptions.standard.tokenize "For i = 1 To 2\nNext i") := by
    decide +kernel
  have missing : (parseScript .standard "x = ").diagnostics =
      [⟨.expectedExpression, .point ⟨4, 1, 5⟩⟩] := by
    decide +kernel
  refine ⟨clean, alone, closed, missing, ?_⟩
  obtain ⟨-, -, -, diagnostics⟩ := scripts_join .standard "For i = 1 To 2\nNext i" "x = " clean
    alone closed (by decide) (by decide)
  rw [diagnostics, missing]
  decide +kernel

end VisualBasic
