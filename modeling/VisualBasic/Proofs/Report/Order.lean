import VisualBasic.Parse.Source
import VisualBasic.Proofs.Report.Body

/-!
The diagnostics about the order of parts are exact.  There is one for each part that stands behind one
that has to be the last, wherever its block is in the tree; and the part is read like any other.
-/

set_option autoImplicit false

namespace VisualBasic

/-- Two rules that differ only in what they report. -/
def ReadsAlike {α : Type} (p q : Parse α) : Prop :=
  ∀ s t, s.Alongside t → (q.run t).1 = (p.run s).1 ∧ (p.run s).2.Alongside (q.run t).2

namespace ReadsAlike

open Parse

variable {α β : Type} {p q : Parse α} {f g : α → Parse β}

theorem bind (first : ReadsAlike p q) (next : ∀ a, ReadsAlike (f a) (g a)) :
    ReadsAlike (p >>= f) (q >>= g) := by
  intro s t beside
  obtain ⟨value, after⟩ := first s t beside
  have run : (q >>= g).run t = (g (p.run s).1).run (q.run t).2 := by
    rw [← value]
    rfl
  rw [run]
  exact next _ _ _ after

theorem ofTells {P : α → List Event → Prop} (tells : Tells p P) : ReadsAlike p p := fun s t beside =>
  have ⟨_, _, same⟩ := tells s
  ⟨(same t beside).1, (same t beside).2.1⟩

theorem run_opens (seen : Bool) (problem : Problem) (rest : Unit → Parse β) (s : ParseState) :
    ∃ l, (beginConstruct >>= fun _ =>
        if seen then peek >>= fun token => report problem token.span >>= rest else rest ()).run s =
      (rest ()).run (s.withLog l) := by
  cases seen with
  | false => exact ⟨s.log.add .begin, rfl⟩
  | true =>
    let begun := s.withLog (s.log.add .begin)
    exact ⟨begun.log.add (.report ⟨problem, s.current.span⟩),
      congrArg (rest ()).run (begun.report_eq problem s.current.span)⟩

/-- Whether a part is reported makes no difference to what is read from there on. -/
theorem opens {seen seen' : Bool} {problem : Problem} {rest rest' : Unit → Parse β}
    (next : ReadsAlike (rest ()) (rest' ())) :
    ReadsAlike
      (beginConstruct >>= fun _ =>
        if seen then peek >>= fun token => report problem token.span >>= rest else rest ())
      (beginConstruct >>= fun _ =>
        if seen' then peek >>= fun token => report problem token.span >>= rest' else rest' ()) := by
  intro s t beside
  obtain ⟨l, run⟩ := run_opens seen problem rest s
  obtain ⟨l', run'⟩ := run_opens seen' problem rest' t
  rw [run, run']
  exact next _ _ (beside.withLog l l')

variable {r : Rules} {b : Bodies} {P : Statements × Option Terminator → List Event → Prop}

/-- A further part of a block is read in the same way wherever it stands. -/
theorem part {γ π : Type} {seen seen' : Bool} (problem : Problem) (header : Parse γ)
    (following following' : Option Terminator → Parse (List π × Option EndBlock))
    (build : γ → Statements → π) (head : Quiet header) (bodies : Tells b.statements P)
    (further : ∀ terminator, ReadsAlike (following terminator) (following' terminator)) :
    ReadsAlike
      (do
        beginConstruct
        if seen then report problem (← peek).span
        let header ← header
        let (body, terminator) ← b.statements
        let (parts, ending) ← following terminator
        return (build header body :: parts, ending))
      (do
        beginConstruct
        if seen' then report problem (← peek).span
        let header ← header
        let (body, terminator) ← b.statements
        let (parts, ending) ← following' terminator
        return (build header body :: parts, ending)) :=
  .opens (.bind (.ofTells head) fun _ => .bind (.ofTells bodies) fun _ => .bind (further _) fun _ =>
    .ofTells Quiet.pure)

theorem ofEnd {kind : BlockKind} {terminator : Option Terminator} {π : Type} :
    ReadsAlike (do return (([] : List π), ← takeEnd kind terminator))
      (do return (([] : List π), ← takeEnd kind terminator)) :=
  .bind (.ofTells (Calm.takeEnd kind terminator)) fun _ => .ofTells Quiet.pure

variable (phrases : r.Quiet) (bodies : Tells b.statements P)
include phrases bodies

theorem ifParts (n : Nat) (seen seen' : Bool) (terminator : Option Terminator) :
    ReadsAlike (ifParts r b n seen terminator) (ifParts r b n seen' terminator) := by
  induction n generalizing seen seen' terminator with
  | zero => exact ofEnd
  | succ n ih =>
    rcases terminator with _ | x
    · exact ofEnd
    · cases x with
      | elseIf =>
        exact part .elseIfAfterElse (elseIfLine r) (Parse.ifParts r b n seen)
          (Parse.ifParts r b n seen')
          (fun header body => .elseIf header body (header.span.merge body.span))
          (.elseIfLine phrases) bodies (ih _ _)
      | elsePart =>
        exact part .elseAfterElse wordLine (Parse.ifParts r b n true)
          (Parse.ifParts r b n true)
          (fun header body => .elsePart header body (header.merge body.span))
          .wordLine bodies (ih _ _)
      | _ => exact ofEnd

theorem tryParts (n : Nat) (seen seen' : Bool) (terminator : Option Terminator) :
    ReadsAlike (tryParts r b n seen terminator) (tryParts r b n seen' terminator) := by
  induction n generalizing seen seen' terminator with
  | zero => exact ofEnd
  | succ n ih =>
    rcases terminator with _ | x
    · exact ofEnd
    · cases x with
      | catchPart =>
        exact part .catchAfterFinally (catchLine r) (Parse.tryParts r b n seen)
          (Parse.tryParts r b n seen')
          (fun header body => .catchPart header body (header.span.merge body.span))
          (.catchLine phrases) bodies (ih _ _)
      | finallyPart =>
        exact part .finallyAfterFinally wordLine (Parse.tryParts r b n true)
          (Parse.tryParts r b n true)
          (fun header body => .finallyPart header body (header.merge body.span))
          .wordLine bodies (ih _ _)
      | _ => exact ofEnd

theorem caseBlocks (n : Nat) (seen seen' : Bool) (terminator : Option Terminator) :
    ReadsAlike (caseBlocks r b n seen terminator) (caseBlocks r b n seen' terminator) := by
  induction n generalizing seen seen' terminator with
  | zero => exact ofEnd
  | succ n ih =>
    rcases terminator with _ | x
    · exact ofEnd
    · cases x with
      | case =>
        exact part .caseAfterCaseElse (caseLine r) (Parse.caseBlocks r b n seen)
          (Parse.caseBlocks r b n seen')
          (fun header body => ⟨.case header, body, header.span.merge body.span⟩)
          (.caseLine phrases) bodies (ih _ _)
      | caseElse =>
        exact part .caseElseAfterCaseElse caseElseLine (Parse.caseBlocks r b n true)
          (Parse.caseBlocks r b n true)
          (fun header body => ⟨.caseElse header, body, header.merge body.span⟩)
          .caseElseLine bodies (ih _ _)
      | _ => exact ofEnd

end ReadsAlike

namespace Calm

open Parse

theorem finish : Calm finish := by
  refine .get (fun _ _ => rfl) fun s => ?_
  split
  · exact .bind (.dropPendingNext _) fun _ => Calm.finishDirectives
  · exact Calm.finishDirectives

end Calm

namespace Tallies

open Parse

variable {k : Problem} {r : Rules} {b : Bodies} (order : k.isOrder = true) (bodies : b.Tallies k)
  (phrases : r.Quiet)
include order bodies phrases

theorem wholeFile (s : ParseState) :
    ((wholeFile r b).run s).2.log.count k =
      s.log.count k + Node.disorder k (.file ((wholeFile r b).run s).1) := by
  -- The comments, which only the whole tree holds, are no matter.
  have listed : Tallies k 0 (do
        let found ← Parse.declarations r b .file
        finish
        return found.1) fun list => 0 + Node.disorders k (Node.ofDeclarations list) :=
    .bind (.declarations order bodies phrases .file 0) fun _ =>
      .after order .finish fun _ => .pure rfl
  rw [Node.disorder_of_list rfl rfl rfl rfl]
  exact listed.count_run s

theorem wholeScript (s : ParseState) :
    ((wholeScript r b).run s).2.log.count k =
      s.log.count k + Node.disorder k (.script ((wholeScript r b).run s).1) := by
  have listed : Tallies k 0 (do
        let found ← Parse.statements r b
        finish
        return found.1) fun list => 0 + Node.disorders k (Node.ofStatements list) :=
    .bind (.statements order bodies phrases 0) fun _ => .after order .finish fun _ => .pure rfl
  rw [Node.disorder_of_list rfl rfl rfl rfl]
  exact listed.count_run s

theorem singleDeclaration : TalliesDeclaration k (singleDeclaration r b) := fun m =>
  .after order (.separators phrases) fun _ =>
    .bind (declaration order bodies phrases .script m) fun _ => .after order .finish fun _ => .pure rfl

theorem singleStatement : TalliesStatement k (singleStatement r b) := by
  intro m
  refine .after order (.separators phrases) fun _ => .quietly order .peek fun token => ?_
  extract_lets rest
  have ended (found : Statement) :
      Tallies k (m + Node.disorder k (.ofStatement found)) (rest found) fun st =>
        m + Node.disorder k (.ofStatement st) :=
    .after order .finish fun _ => .pure rfl
  split
  · exact .quietly order (.report rfl) fun _ => .bind (.leaf rfl rfl rfl rfl) ended
  · exact .bind (statement order bodies phrases m) ended

end Tallies

namespace Parsed

/-- How many diagnostics are about a problem. -/
def reported {α : Type} (k : Problem) (p : Parsed α) : Nat :=
  p.diagnostics.countP fun d => d.problem = k

end Parsed

theorem parseTokens_reported {α : Type} {k : Problem} {rule : Rules → Bodies → Parse α}
    {node : α → Node} (order : k.isOrder = true) (version : Version) (isScript : Bool) (tokens : List Token)
    (tallies : ∀ r b, r.Quiet → b.Tallies k → ∀ s, ((rule r b).run s).2.log.count k =
      s.log.count k + Node.disorder k (node ((rule r b).run s).1)) :
    (parseTokens rule version isScript tokens).reported k =
      Node.disorder k (node (parseTokens rule version isScript tokens).tree) := by
  have phrases := Rules.quiet_ofDepth version ((tokens.filter fun t => !t.isComment).length + 1)
  have bodies := Bodies.tallies_ofDepth order phrases isScript
    ((tokens.filter fun t => !t.isComment).length + 1)
  exact (tallies _ _ phrases bodies (.start _ _)).trans (Nat.zero_add _)

/-- The diagnostics about the order of parts are exact.  However a text is read, there are as many
diagnostics of each such kind as parts of the kind stand, anywhere in the tree, behind a part of their
block that has to be the last; and as many about an expected case as there are blocks with statements
before the first one.  None of these parts is dropped: what is read of a block from any part on is the
same whether the part that has to be the last has been before it or not. -/
theorem part_order_is_reported (o : ScanOptions) :
    (∀ text k, k.isOrder = true →
      (parseFile o text).reported k = Node.disorder k (.file (parseFile o text).tree) ∧
      (parseScript o text).reported k = Node.disorder k (.script (parseScript o text).tree) ∧
      (parseDeclaration o text).reported k =
        Node.disorder k (.declaration (parseDeclaration o text).tree) ∧
      (parseStatement o text).reported k =
        Node.disorder k (.ofStatement (parseStatement o text).tree)) ∧
    ∀ isScript depth inner n terminator s,
      let r := Rules.ofDepth o.version depth
      let b := Bodies.ofDepth isScript r inner
      ((Parse.ifParts r b n true terminator).run s).1 =
          ((Parse.ifParts r b n false terminator).run s).1 ∧
        ((Parse.tryParts r b n true terminator).run s).1 =
          ((Parse.tryParts r b n false terminator).run s).1 ∧
        ((Parse.caseBlocks r b n true terminator).run s).1 =
          ((Parse.caseBlocks r b n false terminator).run s).1 := by
  refine ⟨fun text k order => ⟨?_, ?_, ?_, ?_⟩, fun isScript depth inner n terminator s => ?_⟩
  · exact parseTokens_reported order _ _ _ fun r b phrases bodies =>
      Tallies.wholeFile order bodies phrases
  · exact parseTokens_reported order _ _ _ fun r b phrases bodies =>
      Tallies.wholeScript order bodies phrases
  · exact parseTokens_reported order _ _ _ fun r b phrases bodies =>
      (Tallies.singleDeclaration order bodies phrases 0).count_run
  · exact parseTokens_reported order _ _ _ fun r b phrases bodies =>
      (Tallies.singleStatement order bodies phrases 0).count_run
  · have phrases := Rules.quiet_ofDepth o.version depth
    have bodies := (Bodies.tallies_ofDepth (k := .elseAfterElse) rfl phrases isScript inner).statements 0
    have same := ParseState.Alongside.refl s
    exact ⟨(ReadsAlike.ifParts phrases bodies n false true terminator s s same).1,
      (ReadsAlike.tryParts phrases bodies n false true terminator s s same).1,
      (ReadsAlike.caseBlocks phrases bodies n false true terminator s s same).1⟩

/-- Two parts behind an `Else`, the second of them in a block within. -/
def lateParts : String :=
  "If a Then\nElse\n If b Then\n Else\n Else\n End If\nElseIf c Then\nElse\nEnd If"

theorem late_parts_are_reported :
    Problem.elseAfterElse.isOrder = true ∧
      (parseStatement .standard lateParts).reported .elseAfterElse = 2 ∧
      Node.disorder .elseAfterElse (.ofStatement (parseStatement .standard lateParts).tree) = 2 := by
  have counted : (parseStatement .standard lateParts).reported .elseAfterElse = 2 := by decide +kernel
  obtain ⟨-, -, -, same⟩ := (part_order_is_reported .standard).1 lateParts .elseAfterElse rfl
  exact ⟨rfl, counted, same ▸ counted⟩

end VisualBasic
