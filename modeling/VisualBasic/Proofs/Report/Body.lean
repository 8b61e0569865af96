import VisualBasic.Parse.Body
import VisualBasic.Proofs.Report.Member

/-!
Lists of statements and declarations keep account of the order of parts, and so do bodies of any depth.
What a list stops at is never reported as out of order.
-/

set_option autoImplicit false

namespace VisualBasic

theorem Node.disorder_of_isSimple {k : Problem} {st : Statement}
    (simple : st.isSimple = true ∨ st.isStray = true) : disorder k (ofStatement st) = 0 := by
  cases st with
  | ifBlock | lineIf | doBlock | forBlock | forEachBlock | whileBlock | objectBlock | usingBlock
  | tryBlock | selectBlock | declaration => simp [Statement.isSimple, Statement.isStray] at simple
  | _ => exact disorder_of_flat rfl rfl rfl rfl

/-- The order of declarations is another matter. -/
theorem DeclarationOrder.isOrder_after {o : DeclarationOrder} {container : Container} {kind : TokenKind}
    {isFileAttribute : Bool} {problem : Problem}
    (late : (o.after container kind isFileAttribute).1 = some problem) : problem.isOrder = false := by
  have reports {c : Prop} [Decidable c] {p : Problem} {other : Option Problem}
      (late : (if c then some p else other) = some problem) (silent : p.isOrder = false)
      (further : other = some problem → problem.isOrder = false) : problem.isOrder = false := by
    split at late
    · cases late
      exact silent
    · exact further late
  have inherits (single : Bool) (late : (o.afterInherits single).1 = some problem) :
      problem.isOrder = false :=
    reports late rfl fun late => reports late rfl nofun
  have implements (late : o.afterImplements.1 = some problem) : problem.isOrder = false :=
    reports late rfl nofun
  have inFile (late : (o.afterInFile kind isFileAttribute).1 = some problem) :
      problem.isOrder = false := by
    unfold afterInFile at late
    split at late
    · exact reports late rfl nofun
    · exact reports late rfl nofun
    · split at late
      · exact reports late rfl nofun
      · cases late
  unfold after at late
  split at late
  · exact inFile late
  · exact inherits _ late
  · exact inherits _ late
  · exact implements late
  · exact implements late
  · cases late

namespace Calm

open Parse

theorem stopUnclosed : Calm stopUnclosed := by
  refine .get (fun _ _ => rfl) fun s => ?_
  split
  · exact .bind (.reportUnclosed _) fun _ => .pure
  · exact .pure

theorem stopAtTerminator : Calm stopAtTerminator := by
  refine .get (fun _ _ => rfl) fun s => ?_
  split
  · exact .stopUnclosed
  · split
    · split
      · exact .pure
      · split
        · exact .stopUnclosed
        · exact .pure
    · exact .pure

theorem dropPendingNext (pending : PendingNext) : Calm (dropPendingNext pending) := by
  refine .bind (.modify fun s t beside => ?_) fun _ => .bind .beginConstruct fun _ =>
    (Quiet.report rfl).calm
  exact beside.ofCore (g := fun s => { s with pendingNext := none }) (fun _ _ => rfl) rfl rfl rfl

theorem stopAtPendingNext : Calm stopAtPendingNext := by
  refine .get (fun _ _ => rfl) fun s => ?_
  split
  · exact .pure
  · split
    · exact .pure
    · split
      · exact .stopUnclosed
      · exact .bind (.dropPendingNext _) fun _ => .pure
  · exact .bind (.dropPendingNext _) fun _ => .pure

theorem stopAtMember : Calm stopAtMember := by
  refine .get (fun _ _ => rfl) fun s => ?_
  split
  · exact .stopUnclosed
  · exact .pure

theorem stopLeaving (container : Container) : Calm (stopLeaving container) := by
  refine .get (fun s x => ?_) fun s => ?_
  · cases container <;> rfl
  · split
    · exact .stopUnclosed
    · exact .pure

theorem firstStop {steps : List (Parse ListStep)} (calm : ∀ p ∈ steps, Calm p) :
    Calm (firstStop steps) := by
  induction steps with
  | nil => exact .pure
  | cons step rest ih =>
    refine .bind (calm step List.mem_cons_self) fun found => ?_
    cases found with
    | goOn => exact ih fun p member => calm p (List.mem_cons_of_mem _ member)
    | stop => exact .pure

theorem misplacedHeading : Calm misplacedHeading :=
  .bind .beginConstruct fun _ => .behind .peek fun _ => .behind (.report rfl) fun _ =>
    .behind .skipStatement fun _ => .behind (.spanFrom _) fun _ => .pure

end Calm

namespace Quiet

open Parse

theorem listSpan {α : Type} (span : α → Span) (items : List α) : Quiet (listSpan span items) := by
  unfold Parse.listSpan
  split
  · exact .pure
  · exact .bind .placeholder fun _ => .pure

theorem checkOrder (container : Container) (order : DeclarationOrder) :
    Quiet (checkOrder container order) := by
  refine .get (fun _ _ => rfl) fun s => ?_
  split
  next problem next found =>
    extract_lets rest
    split
    next problem =>
      refine .bind (.report ?_) fun _ => .pure
      have := DeclarationOrder.isOrder_after (congrArg Prod.fst found)
      assumption
    next => exact .bind .pure fun _ => .pure

end Quiet

namespace Tallies

open Parse

variable {α : Type} {k : Problem} {m : Nat} {c : α → Nat} {p : Parse α} {r : Rules} {b : Bodies}

theorem moving (order : k.isOrder = true) (moves : Tallies k m p c) : Tallies k m (moving p) c := by
  refine .get (fun _ _ => rfl) fun s => ?_
  extract_lets before
  refine .bind moves fun found => .get (fun _ _ => rfl) fun t => ?_
  split
  · exact .quietly order .skip fun _ => .pure rfl
  · exact .pure rfl

variable (order : k.isOrder = true) (bodies : b.Tallies k) (phrases : r.Quiet)
include order bodies phrases

omit bodies phrases in
/-- A statement without parts. -/
theorem whole {p : Parse Statement} (blames : Blames p)
    (simple : ∀ s, (p.run s).1.isSimple = true ∨ (p.run s).1.isStray = true) : TalliesStatement k p :=
  fun m => (ofCalm order blames.quiet.calm).valued fun s => by
    rw [Node.disorder_of_isSimple (simple s), Nat.add_zero]

theorem keywordStatement (keyword : Keyword) : TalliesStatement k (keywordStatement r b keyword) := by
  have simple {p : Parse Statement} (blames : Blames p)
      (simple : ∀ s, Ensures p s fun st _ => st.isSimple = true) : TalliesStatement k p :=
    whole order blames fun s => .inl (simple s)
  unfold Parse.keywordStatement
  split
  · exact simple (.localDeclaration phrases) fun _ => rfl
  · exact simple (.localDeclaration phrases) fun _ => rfl
  · exact simple (.localDeclaration phrases) fun _ => rfl
  · exact simple (.callStatement phrases) fun _ => rfl
  · exact simple (.keywordAssignment phrases) fun _ => keywordAssignment_simple
  · exact simple (.keywordAssignment phrases) fun _ => keywordAssignment_simple
  · exact simple .goToStatement fun _ => rfl
  · exact simple .obsoleteJump fun _ => rfl
  · exact simple .exitStatement fun _ => rfl
  · exact simple .continueStatement fun _ => rfl
  · exact simple .stopStatement fun _ => rfl
  · exact simple .endProgram fun _ => endProgram_simple
  · exact simple (.optionalOperand phrases fun _ _ => rfl) fun _ => rfl
  · exact simple (.optionalOperand phrases fun _ _ => rfl) fun _ => rfl
  · exact simple (.raiseError phrases) fun _ => rfl
  · exact simple (.raiseEvent phrases) fun _ => rfl
  · exact simple (.handlerStatement phrases true) fun _ => rfl
  · exact simple (.handlerStatement phrases false) fun _ => rfl
  · exact simple .onErrorStatement fun _ => onErrorStatement_simple
  · exact simple .resumeStatement fun _ => rfl
  · exact simple (.reDimStatement phrases) fun _ => rfl
  · exact simple (.eraseStatement phrases) fun _ => rfl
  · exact ifStatement order bodies phrases
  · exact doBlock order bodies phrases
  · exact forStatement order bodies phrases
  · exact whileBlock order bodies phrases
  · exact objectBlock order bodies phrases _
  · exact objectBlock order bodies phrases _
  · exact usingBlock order bodies phrases
  · exact tryBlock order bodies phrases
  · exact selectBlock order bodies phrases
  · exact simple (.operandStatement phrases) fun _ => operandStatement_simple

theorem plainStatement : TalliesStatement k (plainStatement r b) := by
  intro m
  refine .get (fun _ _ => rfl) fun s => ?_
  split
  · split
    · exact .quietly order .read fun _ => .leaf rfl rfl rfl rfl
    · split
      · exact whole order (.midAssignment phrases) (fun s => .inl rfl) m
      · exact whole order (.assignmentOrCall phrases) (fun s => .inl assignmentOrCall_simple) m
  · exact whole order .lineNumber (fun s => .inl lineNumber_simple) m
  · exact keywordStatement order bodies phrases _ m
  · exact whole order (.operandStatement phrases) (fun s => .inl operandStatement_simple) m

theorem statement : TalliesStatement k (statement r b) := by
  intro m
  refine .after order .beginConstruct fun _ => .get (fun _ _ => rfl) fun s => ?_
  split
  next x _ =>
    refine whole order (.strayTerminator phrases x) (fun s => .inr ?_) m
    cases x <;> rfl
  next =>
    split
    · exact .bind (declaration order bodies phrases .script m) fun found => .pure rfl
    · exact plainStatement order bodies phrases m

theorem listedStatement : TalliesStatement k (listedStatement r b) := by
  intro m
  refine .get (fun _ _ => rfl) fun s => ?_
  split
  · exact (ofCalm order .misplacedHeading).valued fun s => by
      rw [Node.disorder_of_isSimple (.inl rfl), Nat.add_zero]
  · exact moving order (statement order bodies phrases m)

theorem statementsWithin (n m : Nat) : Tallies k m (statementsWithin r b n) fun found =>
    m + Node.disorders k (found.1.map Node.ofStatement) := by
  induction n generalizing m with
  | zero => exact .pure rfl
  | succ n ih =>
    refine .after order (.separators phrases) fun colons => .after order (.firstStop ?_) fun step => ?_
    · simpa using ⟨Calm.stopAtPendingNext, Calm.stopAtTerminator, Calm.stopAtMember⟩
    · cases step with
      | stop => exact .pure rfl
      | goOn =>
        refine .bind (listedStatement order bodies phrases m) fun first => .bind (ih _) fun found =>
          .pure ?_
        rw [List.map_cons, Node.disorders_cons, Nat.add_assoc]

theorem statements (m : Nat) : Tallies k m (statements r b) fun found =>
    m + Node.disorders k (Node.ofStatements found.1) := by
  refine .get (fun _ _ => rfl) fun s => .bind (statementsWithin order bodies phrases _ m) fun found => ?_
  exact .quietly order (.listSpan _ _) fun span => .pure rfl

theorem lineWithin (n m : Nat) : Tallies k m (lineWithin r b n) fun found =>
    m + Node.disorders k (found.1.map Node.ofStatement) := by
  induction n generalizing m with
  | zero => exact .pure rfl
  | succ n ih =>
    refine .quietly order (.eatPlace _) fun colon => ?_
    split
    · refine .bind (ih m) fun found => ?_
      exact .pure rfl
    · refine .get (fun _ _ => rfl) fun s => ?_
      split
      · exact .pure rfl
      · refine .bind (moving order (statement order bodies phrases m)) fun first =>
          .bind (ih _) fun found => .pure ?_
        rw [List.map_cons, Node.disorders_cons, Nat.add_assoc]

theorem lineStatements (m : Nat) : Tallies k m (lineStatements r b) fun found =>
    m + Node.disorders k (Node.ofStatements found) := by
  refine .get (fun _ _ => rfl) fun s => .bind (lineWithin order bodies phrases _ m) fun found => ?_
  exact .quietly order (.listSpan _ _) fun span => .pure rfl

theorem declarationsWithin (container : Container) (n : Nat) (sofar : DeclarationOrder) (m : Nat) :
    Tallies k m (declarationsWithin r b container n sofar) fun found =>
      m + Node.disorders k (found.1.map Node.declaration) := by
  induction n generalizing sofar m with
  | zero => exact .pure rfl
  | succ n ih =>
    refine .after order (.separators phrases) fun colons => .after order (.firstStop ?_) fun step => ?_
    · simpa using ⟨Calm.stopAtTerminator, Calm.stopLeaving container⟩
    · cases step with
      | stop => exact .pure rfl
      | goOn =>
        refine .after order .beginConstruct fun _ => .quietly order (.checkOrder _ _) fun after =>
          .bind (moving order (declaration order bodies phrases container m)) fun first =>
          .bind (ih _ _) fun found => .pure ?_
        rw [List.map_cons, Node.disorders_cons, Nat.add_assoc]

theorem declarations (container : Container) (m : Nat) :
    Tallies k m (declarations r b container) fun found =>
      m + Node.disorders k (Node.ofDeclarations found.1) := by
  refine .get (fun _ _ => rfl) fun s =>
    .bind (declarationsWithin order bodies phrases container _ _ m) fun found => ?_
  exact .quietly order (.listSpan _ _) fun span => .pure rfl

end Tallies

/-- Bodies of any depth keep account. -/
theorem Bodies.tallies_ofDepth {k : Problem} {r : Rules} (order : k.isOrder = true)
    (phrases : r.Quiet) (isScript : Bool) (depth : Nat) :
    (Bodies.ofDepth isScript r depth).Tallies k := by
  induction depth with
  | zero =>
    exact ⟨fun m => .quietly order .placeholder fun _ => .pure rfl,
      fun m => .quietly order .placeholder fun _ => .pure rfl,
      fun container m => .quietly order .placeholder fun _ => .pure rfl⟩
  | succ depth ih =>
    exact ⟨fun m => .statements order ih phrases m, fun m => .lineStatements order ih phrases m,
      fun container m => .declarations order ih phrases container m⟩

end VisualBasic
