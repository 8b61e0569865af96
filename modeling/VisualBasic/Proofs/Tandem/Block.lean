import VisualBasic.Parse.BlockStatement
import VisualBasic.Proofs.Parse.Bodies
import VisualBasic.Proofs.Tandem.Statement

/-!
Statements that hold other statements are read alike in two texts.  A block that the first text
leaves open could go on in the second one, so where the second text goes on only closed blocks
count.
-/

set_option autoImplicit false

namespace VisualBasic

-- Trees that stand by themselves

namespace Node

/-- The `Next` that closes the loop closes no other one. -/
def ClosesAlone (n : Node) : Prop :=
  ∀ next named, n.closing? = some (next, named) → next.loopVariables.items.length ≤ 1

instance (n : Node) : Decidable n.ClosesAlone :=
  decidable_of_iff (n.closing?.all fun closing => closing.1.loopVariables.items.length ≤ 1) (by
    unfold Node.ClosesAlone
    rcases n.closing? with _ | ⟨next, named⟩ <;> simp)

/-- All blocks of the tree have ends of their own, and nothing in it was given up. -/
structure Firm (n : Node) : Prop where
  alone : n.Everywhere fun m => m.isBad = false ∧ m.ClosesAlone
  closed : n.openBlocks = []

/-- The same of all that is below the node. -/
structure FirmBelow (n : Node) : Prop where
  alone : n.Everywhere fun m => m.isBad = false ∧ m.ClosesAlone
  closed : n.openBelow = []

namespace Firm

variable {n c : Node}

theorem unclosed (firm : n.Firm) : n.unclosed = [] :=
  (List.append_eq_nil_iff.1 firm.closed).1

theorem ended (firm : n.Firm) {kind : BlockKind} {closed : Bool}
    (block : n.block? = some (kind, closed)) : closed = true :=
  ended_of_unclosed_eq_nil firm.unclosed block

theorem below (firm : n.Firm) : n.FirmBelow :=
  ⟨firm.alone, (List.append_eq_nil_iff.1 firm.closed).2⟩

end Firm

namespace FirmBelow

variable {n c : Node}

theorem child (firm : n.FirmBelow) (member : c ∈ n.children) : c.FirmBelow where
  alone := (everywhere_iff.1 firm.alone).2 c member
  closed := by
    have closed := firm.closed
    rw [openBelow_eq] at closed
    exact (List.append_eq_nil_iff.1 (List.flatMap_eq_nil_iff.1 closed c member)).2

/-- The blocks right below the node have their ends, if it implies none of them. -/
theorem firm (firm : n.FirmBelow) (member : c ∈ n.children) (plain : n.implies c = false) :
    c.Firm where
  alone := (everywhere_iff.1 firm.alone).2 c member
  closed := by
    have closed := firm.closed
    rw [openBelow_eq] at closed
    have own := List.flatMap_eq_nil_iff.1 closed c member
    rwa [plain] at own

end FirmBelow

theorem Firm.child {n c : Node} (firm : n.Firm) (plain : ∀ c ∈ n.children, n.implies c = false)
    (member : c ∈ n.children) : c.Firm :=
  firm.below.firm member (plain c member)

end Node

def Statement.Firm (s : Statement) : Prop := (Node.ofStatement s).Firm

def Declaration.Firm (d : Declaration) : Prop := (Node.declaration d).Firm

namespace StatementList

/-- All statements of the list stand by themselves. -/
def Firm (l : Statements) : Prop := ∀ s ∈ l.statements, s.Firm

theorem firm_of_children {n : Node} {l : Statements} (firm : n.Firm)
    (plain : ∀ c ∈ n.children, n.implies c = false)
    (held : Node.ofStatements l ⊆ n.children) : l.Firm :=
  fun _ member => firm.child plain (held (List.mem_map_of_mem member))

end StatementList

/-- The declaration stands by itself in its container.  An accessor of a property may lack an end
of its own. -/
def Declaration.FirmIn (container : Container) (d : Declaration) : Prop :=
  d.Firm ∨ container = .propertyBody ∧ (Node.declaration d).FirmBelow

namespace DeclarationList

def FirmIn (container : Container) (l : Declarations) : Prop :=
  ∀ d ∈ l.declarations, d.FirmIn container

theorem firm_of_children {n : Node} {l : Declarations} (firm : n.Firm) (container : Container)
    (plain : ∀ c ∈ n.children, n.implies c = false)
    (held : Node.ofDeclarations l ⊆ n.children) : l.FirmIn container :=
  fun _ member => .inl (firm.child plain (held (List.mem_map_of_mem member)))

end DeclarationList

/-- A body that ends at a terminator has come to it. -/
def Stands {α : Type} (p : Parse (α × Option Terminator)) : Prop :=
  ∀ s t, (p.run s).1.2 = some t → (p.run s).2.StandsAt t

theorem Stands.within {α : Type} {p : Parse (α × Option Terminator)} (stands : Stands p)
    (block : OpenBlock) : Stands (Parse.within block p) :=
  fun s => stands { s with blocks := block :: s.blocks }

theorem Stands.ofRun {α : Type} {p : Parse (α × Option Terminator)} (stands : Stands p) {a : α}
    {stop : Option Terminator} {s s' : ParseState} (run : p.run s = ((a, stop), s'))
    (t : Terminator) (found : stop = some t) : s'.StandsAt t := by
  have here := stands s t
  rw [run] at here
  exact here found

/-- The statements of a body stand by themselves, and the first text does not end with them. -/
def BodyFirm (body : Statements × Option Terminator) (after : TokenKind) : Prop :=
  body.1.Firm ∧ (body.2.isSome = true ∨ after ≠ .endOfStream)

/-- The rules for bodies read alike, as long as fewer tokens are left than the given numbers. -/
structure Bodies.Agree (c : Seam) (k : Bound) (b b' : Bodies) : Prop where
  isScript : b'.isScript = b.isScript
  statements : ∀ X Y, Loose c k X Y →
    Tracked c BodyFirm (Loose c k) b.statements b'.statements X Y
  line : ∀ X Y, Loose c k X Y →
    Tracked c (fun list _ => list.Firm) (Loose c k) b.line b'.line X Y
  declarations : ∀ container X Y, Loose c k X Y →
    Tracked c (fun body _ => body.1.FirmIn container ∧ body.2.isSome = true) (Loose c k)
      (b.declarations container) (b'.declarations container) X Y
  stands : Stands b.statements
  standsToo : ∀ container, Stands (b.declarations container)
  sound : b.Sound k.here

theorem relocate_body {α : Type} [Relocate α] (g : Location → Location) (body : α)
    (stop : Option Terminator) : relocate g (body, stop) = (relocate g body, stop) := by
  cases stop <;> rfl

namespace Parse

variable {c : Seam} {o : ParseState} {k : Bound} {r r' : Rules} {b b' : Bodies} {X Y : ParseState}

-- Bodies and ends

theorem statementBody_tracks {m : Option ParseState} (bodies : b.Agree c k b')
    (near : Paired c m k X Y) (kind : BlockKind) (header : Span) :
    Tracked c BodyFirm (Loose c k) (statementBody b kind header)
      (statementBody b' kind (relocate c.carry header)) X Y :=
  near.within rfl fun X Y _ near => bodies.statements X Y near

theorem declarationBody_tracks {m : Option ParseState} (bodies : b.Agree c k b')
    (near : Paired c m k X Y) (kind : BlockKind) (header : Span) (container : Container) :
    Tracked c (fun body _ => body.1.FirmIn container ∧ body.2.isSome = true) (Loose c k)
      (declarationBody b kind header container)
      (declarationBody b' kind (relocate c.carry header) container) X Y :=
  near.within rfl fun X Y _ near => bodies.declarations container X Y near

theorem takeEnd_tracks {m : Option ParseState} {g : Option EndBlock → TokenKind → Prop}
    (near : Paired c m k X Y) (kind : BlockKind) {stop : Option Terminator}
    (stands : ∀ t, stop = some t → X.StandsAt t) :
    Tracked c g (Loose c k) (takeEnd kind stop) (takeEnd kind stop) X Y := by
  unfold takeEnd
  split
  next found =>
    have starts := terminator?_of_standsAt (stands _ found) (by simp)
    refine near.beginConstruct fun near => ?_
    exact (endBlock_tracks near.up starts).bind fun ending X Y near => .pure near.loose rfl
  next => exact .pure near.loose rfl

/-- A block that has an end stopped at it. -/
theorem isSome_of_takeEnd {kind : BlockKind} {stop : Option Terminator} {s : ParseState}
    (closed : ((takeEnd kind stop).run s).1.isSome = true) : stop.isSome = true := by
  unfold takeEnd at closed
  split at closed
  next found => rw [found]; rfl
  next => cases closed

/-- A body and the end of its block. -/
theorem endedBody_tracks {α β ε : Type} [Relocate α] [Relocate β] [Relocate ε]
    {g : α → TokenKind → Prop} {h : β × Option Terminator → TokenKind → Prop}
    {body body' : Parse (β × Option Terminator)} (ends ends' : Option Terminator → Parse (Option ε))
    (build build' : β → Option ε → Span → α) (start : Location)
    (inner : Tracked c h (Loose c k) body body' X Y) (stands : Stands body)
    (tracks : ∀ stop X Y, Loose c k X Y → (∀ t, stop = some t → X.StandsAt t) →
      Tracked c (fun _ _ => True) (Loose c k) (ends stop) (ends' stop) X Y)
    (moves : ∀ found ending span, build' (relocate c.carry found) (relocate c.carry ending)
      (relocate c.carry span) = relocate c.carry (build found ending span))
    (holds : ∀ found s span, g (build found.1 ((ends found.2).run s).1 span)
      ((ends found.2).run s).2.kind → h found s.kind) :
    Tracked c g (Loose c k)
      (body >>= fun found => ends found.2 >>= fun ending => spanFrom start >>= fun span =>
        pure (build found.1 ending span))
      (body' >>= fun found => ends' found.2 >>= fun ending =>
        spanFrom (c.carry start) >>= fun span => pure (build' found.1 ending span)) X Y := by
  refine inner.bindWhen (fun found s firm => holds found s _ firm) ?_
  rintro ⟨found, stop⟩ X Y run near
  rw [relocate_body]
  refine (tracks stop X Y near (stands.ofRun run)).bind fun ending X Y near => ?_
  exact (near.spanFrom rfl).bind fun span X Y near => near.pure (moves found ending span)

/-- The start of a part that is reported when it comes too late. -/
theorem beginPart {β : Type} [Relocate β] {g : β → TokenKind → Prop} {R : ParseState → ParseState → Prop}
    {m : Option ParseState} {f f' : Unit → Parse β} {late : Bool} {problem : Problem}
    (near : Paired c m k X Y) (inside : X.kind.endsLine = false)
    (next : ∀ o X' Y', X'.ahead = X.ahead → Near c o k X' Y' →
      Tracked c g R (f ()) (f' ()) X' Y') :
    Tracked c g R
      (beginConstruct >>= fun _ =>
        if late then peek >>= fun t => report problem t.span >>= f else f ())
      (beginConstruct >>= fun _ =>
        if late then peek >>= fun t => report problem t.span >>= f' else f' ()) X Y := by
  refine near.beginConstruct fun near => ?_
  cases late with
  | true =>
    refine near.peekInside inside ?_
    exact near.report (fun _ => rfl) fun X Y same near => next _ X Y same near
  | false => exact next _ _ _ rfl near

/-- The parts of a block stand by themselves, and the block has an end. -/
def PartsFirm {π : Type} (node : π → Node) (found : List π × Option EndBlock) : Prop :=
  (∀ part ∈ found.1, (node part).Firm) ∧ found.2.isSome = true

/-- A part of a block, from the end of its first line, and the parts behind it. -/
theorem parts_tracks {π : Type} [Relocate π] {node : π → Node} {m : Option ParseState} {j : Bound}
    {more more' : Option Terminator → Parse (List π × Option EndBlock)}
    (build build' : Statements → π) (bodies : b.Agree c k b') (near : Paired c m j X Y)
    (below : j ≤ k)
    (next : ∀ stop X Y, Loose c j X Y → (∀ t, stop = some t → X.StandsAt t) →
      Tracked c (fun found _ => PartsFirm node found) (Loose c j) (more stop) (more' stop) X Y)
    (closed : ∀ stop s, ((more stop).run s).1.2.isSome = true → stop.isSome = true)
    (moves : ∀ body, build' (relocate c.carry body) = relocate c.carry (build body))
    (plain : ∀ part, ∀ c ∈ (node part).children, (node part).implies c = false)
    (holds : ∀ body, Node.ofStatements body ⊆ (node (build body)).children) :
    Tracked c (fun found _ => PartsFirm node found) (Loose c j)
      (b.statements >>= fun body => more body.2 >>= fun found =>
        pure (build body.1 :: found.1, found.2))
      (b'.statements >>= fun body => more' body.2 >>= fun found =>
        pure (build' body.1 :: found.1, found.2)) X Y := by
  refine ((bodies.statements X Y (near.loose.mono below)).within near.loose).bindWhen
    (fun body s firm => ⟨?_, .inl (closed _ _ firm.2)⟩) ?_
  · exact StatementList.firm_of_children (firm.1 _ List.mem_cons_self) (plain _) (holds _)
  rintro ⟨body, stop⟩ X Y run near
  rw [relocate_body]
  refine (next stop X Y near (bodies.stands.ofRun run)).bindWhen
    (fun found s firm => ⟨fun part member => firm.1 part (List.mem_cons_of_mem _ member), firm.2⟩) ?_
  rintro ⟨parts, ending⟩ X Y - near
  refine near.pure ?_
  rw [moves]
  rfl

/-- The first statements of a block and its further parts. -/
theorem parted_tracks {π : Type} [Relocate π] {node : π → Node} {m : Option ParseState}
    {kind : BlockKind} {header : Span}
    (more more' : Nat → Option Terminator → Parse (List π × Option EndBlock))
    (bodies : b.Agree c k b') (near : Paired c m k X Y)
    (next : ∀ stop X Y, Loose c k X Y → (∀ t, stop = some t → X.StandsAt t) →
      Tracked c (fun found _ => PartsFirm node found) (Loose c k) (more X.remaining stop) (more' Y.remaining stop) X Y)
    (closed : ∀ n stop s, ((more n stop).run s).1.2.isSome = true → stop.isSome = true) :
    Tracked c (fun found _ => found.1.Firm ∧ PartsFirm node found.2) (Loose c k)
      (within ⟨kind, header, true⟩ (b.statements >>= fun body => get >>= fun s =>
        more s.remaining body.2 >>= fun found => pure (body.1, found.1, found.2)))
      (within ⟨kind, relocate c.carry header, true⟩ (b'.statements >>= fun body => get >>= fun s =>
        more' s.remaining body.2 >>= fun found => pure (body.1, found.1, found.2))) X Y := by
  refine near.within rfl fun X Y _ near => ?_
  refine (bodies.statements X Y near).bindWhen
    (fun body s firm => ⟨firm.1, .inl (closed _ _ _ firm.2.2)⟩) ?_
  rintro ⟨body, stop⟩ X Y run near
  rw [relocate_body]
  refine Paired.get ((next stop X Y near (bodies.stands.ofRun run)).bindWhen
    (fun found s firm => firm.2) ?_)
  exact fun found X Y _ near => near.pure rfl

/-- Where the first text ends, no part of a block can start. -/
theorem ne_of_ended {stop : Option Terminator} (ends : X.kind = .endOfStream)
    (stands : ∀ t, stop = some t → X.StandsAt t) {t : Terminator} (other : t ≠ .next) :
    stop ≠ some t := by
  intro found
  have inside := inside_of_terminator? (terminator?_of_standsAt (stands t found) other)
  rw [ends] at inside
  cases inside

-- Conditions

theorem isSome_of_ifParts {n : Nat} {seenElse : Bool} {stop : Option Terminator} {s : ParseState}
    (closed : ((ifParts r b n seenElse stop).run s).1.2.isSome = true) : stop.isSome = true := by
  cases stop with
  | some t => rfl
  | none => cases n <;> cases closed

theorem ifParts_of_ended {n : Nat} {seenElse : Bool} {stop : Option Terminator}
    (ends : X.kind = .endOfStream) (stands : ∀ t, stop = some t → X.StandsAt t) :
    ifParts r b n seenElse stop = (do return ([], ← takeEnd .ifBlock stop)) := by
  cases n with
  | zero => rfl
  | succ n =>
    unfold ifParts
    split
    · exact absurd rfl (ne_of_ended ends stands (by simp))
    · exact absurd rfl (ne_of_ended ends stands (by simp))
    · rfl

theorem ifParts_tracks {n m : Nat} (agree : r.Agree c k r') (bodies : b.Agree c k b')
    (near : Loose c (Bound.mk n m + 1) X Y) (below : Bound.mk n m + 1 ≤ k) (seenElse : Bool)
    {stop : Option Terminator} (stands : ∀ t, stop = some t → X.StandsAt t) :
    Tracked c (fun found _ => PartsFirm Node.ifPart found) (Loose c (Bound.mk n m + 1)) (ifParts r b n seenElse stop)
      (ifParts r' b' m seenElse stop) X Y := by
  refine near.steps (motive := fun n m X Y => Bound.mk n m + 1 ≤ k → ∀ seenElse stop,
    (∀ t, stop = some t → X.StandsAt t) → Tracked c (fun found _ => PartsFirm Node.ifPart found)
      (Loose c (Bound.mk n m + 1)) (ifParts r b n seenElse stop) (ifParts r' b' m seenElse stop)
      X Y) ?_ ?_ below seenElse stop stands
  · intro n m X Y near ends _ seenElse stop stands
    rw [ifParts_of_ended ends stands, ifParts_of_ended ends stands]
    exact (takeEnd_tracks near .ifBlock stands).bind fun _ _ _ near => near.pure rfl
  · intro n m next X Y near below seenElse stop stands
    have fewer := Bound.le_of_succ below
    rcases stop with _ | t
    · exact (takeEnd_tracks near .ifBlock stands).bind fun _ _ _ near => near.pure rfl
    · cases t with
      | elseIf =>
        have starts := terminator?_of_standsAt (stands _ rfl) (by simp)
        refine beginPart near (inside_of_terminator? starts) fun o X Y same near => ?_
        rw [← ParseState.terminator?_of_ahead same] at starts
        refine (elseIfLine_tracks (agree.mono fewer) near starts).bind fun header X Y near => ?_
        exact (parts_tracks (fun body => IfPart.elseIf header body (header.span.merge body.span))
          (fun body => IfPart.elseIf (relocate c.carry header) body
            ((relocate c.carry header).span.merge body.span)) bodies near fewer
          (fun stop X Y near stands => next X Y near fewer seenElse stop stands)
          (fun stop s closed => isSome_of_ifParts closed)
          (fun body => congrArg (IfPart.elseIf _ _) (Seam.merge_carry _ _))
          (fun _ _ _ => rfl) fun body => List.subset_cons_self _ _).up
      | elsePart =>
        have starts := terminator?_of_standsAt (stands _ rfl) (by simp)
        have inside := inside_of_terminator? starts
        refine beginPart near inside fun o X Y same near => ?_
        rw [← ParseState.kind_of_ahead same] at inside
        refine (wordLine_tracks near inside).bind fun header X Y near => ?_
        exact (parts_tracks (fun body => IfPart.elsePart header body (header.merge body.span))
          (fun body => IfPart.elsePart (relocate c.carry header) body
            ((relocate c.carry header).merge body.span)) bodies near fewer
          (fun stop X Y near stands => next X Y near fewer true stop stands)
          (fun stop s closed => isSome_of_ifParts closed)
          (fun body => congrArg (IfPart.elsePart _ _) (Seam.merge_carry _ _))
          (fun _ _ _ => rfl) fun body => List.Subset.refl _).up
      | _ => exact (takeEnd_tracks near .ifBlock stands).bind fun _ _ _ near => near.pure rfl

theorem ifBlock_tracks (agree : r.Agree c k r') (bodies : b.Agree c k b') (near : Near c o k X Y)
    (start : Location) (condition : Expression) (thenKeyword : Option Location) :
    Tracked c (fun s _ => s.Firm) (Loose c k) (ifBlock r b start condition thenKeyword)
      (ifBlock r' b' (c.carry start) (relocate c.carry condition)
        (relocate c.carry thenKeyword)) X Y := by
  refine (expectThen_tracks near thenKeyword).bind fun _ X Y near => ?_
  refine (near.endStatement rfl).bind fun header X Y near => ?_
  refine (parted_tracks (fun n stop => ifParts r b n false stop)
    (fun n stop => ifParts r' b' n false stop) bodies near (fun stop X Y near stands =>
      (ifParts_tracks agree bodies near.fresh near.fresh_le false stands).within near)
    fun n stop s closed => isSome_of_ifParts closed).bindWhen (fun found s firm => ?_) ?_
  · have firm : (Node.statement (.ifBlock ⟨condition, thenKeyword, found.1, found.2.1, found.2.2,
      s.spanSince start⟩)).Firm := firm
    refine ⟨StatementList.firm_of_children firm (fun _ _ => rfl) fun _ member => ?_,
      fun part member => firm.child (fun _ _ => rfl) ?_, firm.ended rfl⟩
    · exact List.mem_cons_of_mem _ (List.mem_append_left _ member)
    · exact List.mem_cons_of_mem _ (List.mem_append_right _ (List.mem_map_of_mem member))
  · rintro ⟨body, parts, ending⟩ X Y - near
    refine (near.spanFrom rfl).bind fun span X Y near => near.pure ?_
    rw [relocate_ifBlock]
    rfl

theorem lineEndIf_tracks {m : Option ParseState} (near : Paired c m k X Y) :
    Tracked c (fun _ _ => True) (Paired c m k) lineEndIf lineEndIf X Y := by
  refine near.check rfl (fun starts => ?_) fun _ => ?_
  · have inside := Paired.endsLine_of rfl starts
    refine near.kindAfter inside rfl ?_
    split
    next follows =>
      have follows : X.kindAfter = .word .kwIf := by simpa using follows
      refine near.up.readOver inside fun X' Y' after near => ?_
      refine near.up.skip (Paired.endsLine_of rfl (after.trans follows)) fun X Y near => ?_
      exact (near.spanFrom rfl).bind fun span X Y near => near.pure rfl
    next => exact near.pure rfl
  · exact .step rfl rfl (.refl X Y) (near.pure rfl)

/-- A rule that is run within a single-line `If`. -/
theorem withinLineIf_tracks {α : Type} [Relocate α] {p q : Parse α} {g : α → TokenKind → Prop}
    {m : Option ParseState} (near : Paired c m k X Y)
    (inner : ∀ X' Y', Loose c k X' Y' → Tracked c g (Loose c k) p q X' Y') :
    Tracked c g (Loose c k) (withinLineIf p) (withinLineIf q) X Y := by
  intro fair
  obtain ⟨value, after, paced⟩ := inner { X with lineIfDepth := X.lineIfDepth + 1 }
    { Y with lineIfDepth := Y.lineIfDepth + 1 }
    { near.loose with
      depth := congrArg (· + 1) near.depth
      stays := fun _ member => by cases member } fair
  refine ⟨value, ?_, ⟨paced.here, paced.there, paced.still⟩⟩
  exact { after with
    depth := congrArg (· - 1) after.depth
    stays := fun _ member => by cases member }

theorem lineIf_tracks {m : Option ParseState} (bodies : b.Agree c k b') (near : Paired c m k X Y)
    (start : Location) (condition : Expression) (thenKeyword : Location) :
    Tracked c (fun s _ => s.Firm) (Loose c k) (lineIf b start condition thenKeyword)
      (lineIf b' (c.carry start) (relocate c.carry condition) (c.carry thenKeyword)) X Y := by
  refine Tracked.bindWhen (S := Loose c k)
    (h := fun (found : Statements × Option Location × Option Statements) _ =>
      found.1.Firm ∧ ∀ other ∈ found.2.2, other.Firm)
    (withinLineIf_tracks near fun X Y near => ?_) (fun found s firm => ?_) ?_
  · refine (bodies.line X Y near).bindWhen (fun statements s firm => ?_)
      fun statements X Y _ near => ?_
    · rw [Paired.run_bind] at firm
      rcases found : ((eatPlace (.word .kwElse)).run s).1 with _ | place <;> rw [found] at firm
      · exact firm.1
      · exact firm.1
    · refine near.up.eatPlace rfl (fun _ => near.pure rfl) fun _ X Y near => ?_
      exact (bodies.line X Y near).bindWhen (fun other s firm => firm.2 _ rfl)
        fun other X Y _ near => near.pure rfl
  · have firm : (Node.statement (.lineIf ⟨condition, thenKeyword, found.1, found.2.1, found.2.2,
      _, _⟩)).Firm := firm
    refine ⟨StatementList.firm_of_children firm (fun _ _ => rfl) fun _ member => ?_,
      fun other isOther => StatementList.firm_of_children firm (fun _ _ => rfl) fun _ member => ?_⟩
    · exact List.mem_cons_of_mem _ (List.mem_append_left _ member)
    · refine List.mem_cons_of_mem _ (List.mem_append_right _ ?_)
      have isOther : found.2.2 = some other := isOther
      rw [isOther]
      exact member
  · rintro ⟨statements, elseKeyword, other⟩ X Y - near
    refine (lineEndIf_tracks near).bind fun ending X Y near => ?_
    refine (near.spanFrom rfl).bind fun span X Y near => near.pure ?_
    rw [relocate_lineIf]
    rfl

theorem ifStatement_tracks (agree : r.Agree c k r') (bodies : b.Agree c k b')
    (near : Near c o (k + 1) X Y) (inside : X.kind.endsLine = false) :
    Tracked c (fun s _ => s.Firm) (Loose c k) (ifStatement r b) (ifStatement r' b') X Y := by
  refine near.read inside fun X' Y' near => ?_
  refine (agree.value near).bind fun condition X Y near => ?_
  refine (near.eatenPlace rfl).bind fun thenKeyword X Y near => ?_
  refine near.peekKind rfl ?_
  cases thenKeyword with
  | none => exact ifBlock_tracks agree bodies near _ condition none
  | some place =>
    cases X.kind.endsLine with
    | true => exact ifBlock_tracks agree bodies near _ condition (some place)
    | false => exact lineIf_tracks bodies near _ condition place

-- Loops

theorem takeLoop_tracks {m : Option ParseState} (agree : r.Agree c k r') (near : Paired c m k X Y)
    (hasCondition : Bool) {stop : Option Terminator} (stands : ∀ t, stop = some t → X.StandsAt t) :
    Tracked c (fun _ _ => True) (Loose c k) (takeLoop r hasCondition stop)
      (takeLoop r' hasCondition stop) X Y := by
  unfold takeLoop
  split
  next found =>
    have starts := terminator?_of_standsAt (stands _ found) (by simp)
    refine near.beginConstruct fun near => ?_
    refine (loopLine_tracks agree near.up (inside_of_terminator? starts)).bind
      fun ending X Y near => ?_
    obtain ⟨condition, span⟩ := ending
    rcases condition with _ | repeated
    · exact .pure near.loose rfl
    · cases hasCondition with
      | false => exact .pure near.loose rfl
      | true => exact near.report (fun _ => rfl) fun X Y _ near => .pure near.loose rfl
  next => exact near.loose.pure rfl

/-- A `Do` block that has an end stopped at it. -/
theorem isSome_of_takeLoop {hasCondition : Bool} {stop : Option Terminator} {s : ParseState}
    (closed : ((takeLoop r hasCondition stop).run s).1.isSome = true) : stop.isSome = true := by
  unfold takeLoop at closed
  split at closed
  next found => rw [found]; rfl
  next => cases closed

theorem doBlock_tracks (agree : r.Agree c k r') (bodies : b.Agree c k b')
    (near : Near c o (k + 1) X Y) (inside : X.kind.endsLine = false) :
    Tracked c (fun s _ => s.Firm) (Loose c k) (doBlock r b) (doBlock r' b') X Y := by
  refine near.read inside fun X Y near => ?_
  refine (loopCondition_tracks agree near).bind fun condition X Y near => ?_
  refine (near.endStatement rfl).bind fun header X Y near => ?_
  refine endedBody_tracks (takeLoop r condition.isSome)
    (takeLoop r' (relocate c.carry condition).isSome)
    (fun body ending span => Statement.doBlock ⟨condition, body, ending, span⟩)
    (fun body ending span => .doBlock ⟨relocate c.carry condition, body, ending, span⟩) _
    (statementBody_tracks bodies near .doBlock header) (bodies.stands.within _)
    (fun stop X Y near stands => ?_)
    (fun body ending span => (relocate_doBlock c.carry ⟨condition, body, ending, span⟩).symm)
    fun body s span firm => ?_
  · have same : (relocate c.carry condition).isSome = condition.isSome := by cases condition <;> rfl
    rw [same]
    exact takeLoop_tracks agree near condition.isSome stands
  · have firm : (Node.statement (.doBlock ⟨condition, body.1, _, span⟩)).Firm := firm
    refine ⟨StatementList.firm_of_children firm (fun _ _ => rfl) fun _ member => ?_,
      .inl (isSome_of_takeLoop (firm.ended rfl))⟩
    exact List.mem_append_left _ (List.mem_append_right _ member)

/-- What a `Next` leaves for the loops outside. -/
theorem leaveNext_tracks (statement : NextStatement) {index : Nat} (settled : c.settles → index = 0)
    (near : Loose c k X Y) :
    Tracked c (fun (found : NextStatement × Option Expression) _ =>
        found.1.loopVariables.items.length ≤ 1) (Loose c k)
      (do
        let isLast := statement.loopVariables.items.length ≤ index + 1
        modify fun s =>
          { s with pendingNext := if isLast then none else some ⟨statement, index + 1⟩ }
        return (statement, statement.loopVariables.items[index]?))
      (do
        let isLast := (relocate c.carry statement).loopVariables.items.length ≤ index + 1
        modify fun s =>
          { s with pendingNext :=
              if isLast then none else some ⟨relocate c.carry statement, index + 1⟩ }
        return (relocate c.carry statement,
          (relocate c.carry statement).loopVariables.items[index]?)) X Y := by
  intro fair
  have items : (relocate c.carry statement).loopVariables.items =
      relocate c.carry statement.loopVariables.items := rfl
  refine ⟨?_, ?_, .standing rfl rfl⟩
  · exact Prod.ext rfl (List.getElem?_map ..)
  · refine { near with pending := fun _ => ?_, settled := fun settles => ?_, stays := fun _ member => by cases member }
    · show ite _ _ _ = relocate c.carry (ite _ _ _)
      rw [items, length_relocate]
      split <;> rfl
    · have single : statement.loopVariables.items.length ≤ 1 := fair settles
      have first := settled settles
      exact if_pos (by omega)

/-- A `Next` of at most one variable leaves nothing over. -/
theorem next_tracks {m : Option ParseState} (loops : c.loops) (agree : r.Agree c k r')
    (near : Paired c m k X Y) (stands : X.StandsAt .next) :
    Tracked c (fun found _ => found.1.loopVariables.items.length ≤ 1) (Loose c k) (next r) (next r')
      X Y := by
  refine Paired.get ?_
  rw [near.pending loops]
  rcases left : X.pendingNext with _ | pending
  · have starts : X.terminator? = some .next := by
      rcases stands with here | ⟨-, isSome⟩
      · exact here
      · rw [left] at isSome
        cases isSome
    refine near.beginConstruct fun near => ?_
    refine (nextLine_tracks agree near.up (inside_of_terminator? starts)).bind
      fun statement X Y near => ?_
    exact leaveNext_tracks statement (fun _ => rfl) near.loose
  · refine leaveNext_tracks pending.statement (fun settles => ?_) near.loose
    rw [near.settled settles] at left
    cases left

theorem forBody_tracks {m : Option ParseState} (loops : c.loops) (agree : r.Agree c k r')
    (bodies : b.Agree c k b') (near : Paired c m k X Y) (header : Span) :
    Tracked c (fun found _ => found.1.Firm ∧ found.2.1.isSome = true ∧
        ∀ next ∈ found.2.1, next.loopVariables.items.length ≤ 1) (Loose c k)
      (forBody r b header) (forBody r' b' (relocate c.carry header)) X Y := by
  refine near.within rfl fun X Y _ near => ?_
  refine (bodies.statements X Y near).bindWhen (fun body s firm => ?_) ?_
  · by_cases found : body.2 = some .next
    · dsimp only at firm
      rw [if_pos found] at firm
      exact ⟨firm.1, .inl (by rw [found]; rfl)⟩
    · dsimp only at firm
      rw [if_neg found] at firm
      cases firm.2.1
  · rintro ⟨body, stop⟩ X Y run near
    rw [relocate_body]
    dsimp only
    split
    next found =>
      refine (next_tracks loops agree near (bodies.stands.ofRun run _ found)).bindWhen
        (fun closing s firm => firm.2.2 _ rfl) ?_
      exact fun closing X Y _ near => near.pure rfl
    next => exact near.pure rfl

theorem declaresVariable_eq (twin : Twin c X Y) : declaresVariable Y = declaresVariable X := by
  unfold declaresVariable
  rw [twin.kind.beq rfl]
  by_cases named : X.kind = .identifier
  · rw [twin.ahead.firstOutside rfl]
    rcases twin.kindAfter (Paired.endsLine_of rfl named) with same | ⟨-, ends, breaks⟩
    · rw [same]
    · rw [ends, breaks]
  · rw [beq_eq_false_iff_ne.2 named]
    rfl

theorem forControl_tracks (agree : r.Agree c k r') (near : Near c o k X Y) :
    Tracks c o k (forControl r) (forControl r') X Y := by
  refine Paired.get ?_
  rw [declaresVariable_eq near.toTwin]
  split
  · exact (loopDeclarator_tracks agree near).bind fun _ _ _ near => near.pure rfl
  · exact ((expression_tracks agree near.up .relational).within near).bind fun _ _ _ near => near.pure rfl

/-- What a loop that stands by itself is made of. -/
theorem firm_of_loop {s : Statement} {body : Statements} {ending : Option NextStatement}
    {named : Option Expression} (firm : (Node.statement s).Firm)
    (block : (Node.statement s).block? = some (.forBlock, ending.isSome))
    (closing : (Node.statement s).closing? = ending.map fun next => (next, named))
    (held : Node.ofStatements body ⊆ (Node.statement s).children) :
    body.Firm ∧ ending.isSome = true ∧ ∀ next ∈ ending, next.loopVariables.items.length ≤ 1 := by
  refine ⟨StatementList.firm_of_children firm (fun _ _ => rfl) held, firm.ended block, ?_⟩
  rintro next ⟨⟩
  exact (Node.everywhere_iff.1 firm.alone).1.2 next named closing

theorem forEachBlock_tracks (loops : c.loops) (agree : r.Agree c k r') (bodies : b.Agree c k b')
    (near : Near c o k X Y) (start : Location) :
    Tracked c (fun s _ => s.Firm) (Loose c k) (forEachBlock r b start)
      (forEachBlock r' b' (c.carry start)) X Y := by
  refine (forControl_tracks agree near).bind fun control X Y near => ?_
  refine (near.expectPlace rfl).bind fun inKeyword X Y near => ?_
  refine (agree.value near).bind fun collection X Y near => ?_
  refine (near.endStatement rfl).bind fun header X Y near => ?_
  refine (forBody_tracks loops agree bodies near header).bindWhen (fun found s firm => ?_) ?_
  · have firm : (Node.statement (.forEachBlock ⟨control, inKeyword, collection, found.1, found.2.1,
      found.2.2, _⟩)).Firm := firm
    refine firm_of_loop firm rfl rfl fun _ member => ?_
    exact List.mem_cons_of_mem _ (List.mem_cons_of_mem _ (List.mem_append_left _ member))
  · rintro ⟨body, ending, named⟩ X Y - near
    refine (near.spanFrom rfl).bind fun span X Y near => near.pure ?_
    rw [relocate_forEachBlock]
    rfl

theorem forBlock_tracks (loops : c.loops) (agree : r.Agree c k r') (bodies : b.Agree c k b')
    (near : Near c o k X Y) (start : Location) :
    Tracked c (fun s _ => s.Firm) (Loose c k) (forBlock r b start)
      (forBlock r' b' (c.carry start)) X Y := by
  refine (forControl_tracks agree near).bind fun control X Y near => ?_
  refine (near.expectPlace rfl).bind fun equals X Y near => ?_
  refine (agree.value near).bind fun lower X Y near => ?_
  refine (near.expectPlace rfl).bind fun toKeyword X Y near => ?_
  refine (agree.value near).bind fun upper X Y near => ?_
  refine (near.whenEaten rfl fun X Y near => agree.value near).bind fun step X Y near => ?_
  refine (near.endStatement rfl).bind fun header X Y near => ?_
  refine (forBody_tracks loops agree bodies near header).bindWhen (fun found s firm => ?_) ?_
  · have firm : (Node.statement (.forBlock ⟨control, equals, lower, toKeyword, upper, step, found.1,
      found.2.1, found.2.2, _⟩)).Firm := firm
    refine firm_of_loop firm rfl rfl fun _ member => ?_
    exact List.mem_append_left _ (List.mem_append_right _ member)
  · rintro ⟨body, ending, named⟩ X Y - near
    refine (near.spanFrom rfl).bind fun span X Y near => near.pure ?_
    rw [relocate_forBlock]
    rfl

theorem forStatement_tracks (loops : c.loops) (agree : r.Agree c k r') (bodies : b.Agree c k b')
    (near : Near c o (k + 1) X Y) (inside : X.kind.endsLine = false) :
    Tracked c (fun s _ => s.Firm) (Loose c k) (forStatement r b) (forStatement r' b') X Y := by
  refine near.read inside fun X Y near => near.up.eat rfl (fun _ => ?_) fun _ X Y near => ?_
  · exact forBlock_tracks loops agree bodies near _
  · exact forEachBlock_tracks loops agree bodies near _

theorem whileBlock_tracks (agree : r.Agree c k r') (bodies : b.Agree c k b')
    (near : Near c o (k + 1) X Y) (inside : X.kind.endsLine = false) :
    Tracked c (fun s _ => s.Firm) (Loose c k) (whileBlock r b) (whileBlock r' b') X Y := by
  refine near.read inside fun X Y near => ?_
  refine (agree.value near).bind fun condition X Y near => ?_
  refine (near.endStatement rfl).bind fun header X Y near => ?_
  refine endedBody_tracks (takeEnd .whileBlock) (takeEnd .whileBlock)
    (fun body ending span => Statement.whileBlock ⟨condition, body, ending, span⟩)
    (fun body ending span => .whileBlock ⟨relocate c.carry condition, body, ending, span⟩) _
    (statementBody_tracks bodies near .whileBlock header) (bodies.stands.within _)
    (fun stop X Y near stands => takeEnd_tracks near _ stands)
    (fun body ending span => (relocate_whileBlock c.carry ⟨condition, body, ending, span⟩).symm)
    fun body s span firm => ?_
  have firm : (Node.statement (.whileBlock ⟨condition, body.1, _, span⟩)).Firm := firm
  exact ⟨StatementList.firm_of_children firm (fun _ _ => rfl) (List.subset_cons_self _ _),
    .inl (isSome_of_takeEnd (firm.ended rfl))⟩

-- Objects

theorem objectBlock_tracks (agree : r.Agree c k r') (bodies : b.Agree c k b')
    (near : Near c o (k + 1) X Y) (inside : X.kind.endsLine = false) (kind : ObjectBlockKind) :
    Tracked c (fun s _ => s.Firm) (Loose c k) (objectBlock r b kind) (objectBlock r' b' kind) X Y := by
  refine near.read inside fun X Y near => ?_
  refine (agree.value near).bind fun object X Y near => ?_
  refine (near.endStatement rfl).bind fun header X Y near => ?_
  refine endedBody_tracks (takeEnd kind.block) (takeEnd kind.block)
    (fun body ending span => Statement.objectBlock ⟨kind, object, body, ending, span⟩)
    (fun body ending span => .objectBlock ⟨kind, relocate c.carry object, body, ending, span⟩) _
    (statementBody_tracks bodies near kind.block header) (bodies.stands.within _)
    (fun stop X Y near stands => takeEnd_tracks near _ stands)
    (fun body ending span => (relocate_objectBlock c.carry ⟨kind, object, body, ending, span⟩).symm)
    fun body s span firm => ?_
  have firm : (Node.statement (.objectBlock ⟨kind, object, body.1, _, span⟩)).Firm := firm
  exact ⟨StatementList.firm_of_children firm (fun _ _ => rfl) (List.subset_cons_self _ _),
    .inl (isSome_of_takeEnd (firm.ended rfl))⟩

theorem usingResource_tracks (agree : r.Agree c k r') (near : Near c o k X Y) :
    Tracks c o k (usingResource r) (usingResource r') X Y := by
  refine near.check rfl (fun named => near.kindAfter (Paired.endsLine_of rfl named) rfl ?_)
    fun _ => .step rfl rfl (.refl X Y) ?_
  · split
    · exact (variableDeclarators_tracks agree near false).bind fun _ _ _ near => near.pure rfl
    · exact (agree.value near).bind fun _ _ _ near => near.pure rfl
  · exact (agree.value near).bind fun _ _ _ near => near.pure rfl

theorem usingBlock_tracks (agree : r.Agree c k r') (bodies : b.Agree c k b')
    (near : Near c o (k + 1) X Y) (inside : X.kind.endsLine = false) :
    Tracked c (fun s _ => s.Firm) (Loose c k) (usingBlock r b) (usingBlock r' b') X Y := by
  refine near.read inside fun X Y near => ?_
  refine (usingResource_tracks agree near).bind fun resource X Y near => ?_
  refine (near.endStatement rfl).bind fun header X Y near => ?_
  refine endedBody_tracks (takeEnd .usingBlock) (takeEnd .usingBlock)
    (fun body ending span => Statement.usingBlock ⟨resource, body, ending, span⟩)
    (fun body ending span => .usingBlock ⟨relocate c.carry resource, body, ending, span⟩) _
    (statementBody_tracks bodies near .usingBlock header) (bodies.stands.within _)
    (fun stop X Y near stands => takeEnd_tracks near _ stands)
    (fun body ending span => (relocate_usingBlock c.carry ⟨resource, body, ending, span⟩).symm)
    fun body s span firm => ?_
  have firm : (Node.statement (.usingBlock ⟨resource, body.1, _, span⟩)).Firm := firm
  exact ⟨StatementList.firm_of_children firm (fun _ _ => rfl) (List.subset_append_right _ _),
    .inl (isSome_of_takeEnd (firm.ended rfl))⟩

-- Exceptions

theorem isSome_of_tryParts {n : Nat} {seenFinally : Bool} {stop : Option Terminator}
    {s : ParseState} (closed : ((tryParts r b n seenFinally stop).run s).1.2.isSome = true) :
    stop.isSome = true := by
  cases stop with
  | some t => rfl
  | none => cases n <;> cases closed

theorem tryParts_of_ended {n : Nat} {seenFinally : Bool} {stop : Option Terminator}
    (ends : X.kind = .endOfStream) (stands : ∀ t, stop = some t → X.StandsAt t) :
    tryParts r b n seenFinally stop = (do return ([], ← takeEnd .tryBlock stop)) := by
  cases n with
  | zero => rfl
  | succ n =>
    unfold tryParts
    split
    · exact absurd rfl (ne_of_ended ends stands (by simp))
    · exact absurd rfl (ne_of_ended ends stands (by simp))
    · rfl

theorem tryParts_tracks {n m : Nat} (agree : r.Agree c k r') (bodies : b.Agree c k b')
    (near : Loose c (Bound.mk n m + 1) X Y) (below : Bound.mk n m + 1 ≤ k) (seenFinally : Bool)
    {stop : Option Terminator} (stands : ∀ t, stop = some t → X.StandsAt t) :
    Tracked c (fun found _ => PartsFirm Node.tryPart found) (Loose c (Bound.mk n m + 1))
      (tryParts r b n seenFinally stop) (tryParts r' b' m seenFinally stop) X Y := by
  refine near.steps (motive := fun n m X Y => Bound.mk n m + 1 ≤ k → ∀ seenFinally stop,
    (∀ t, stop = some t → X.StandsAt t) → Tracked c (fun found _ => PartsFirm Node.tryPart found)
      (Loose c (Bound.mk n m + 1)) (tryParts r b n seenFinally stop)
      (tryParts r' b' m seenFinally stop) X Y) ?_ ?_ below seenFinally stop stands
  · intro n m X Y near ends _ seenFinally stop stands
    rw [tryParts_of_ended ends stands, tryParts_of_ended ends stands]
    exact (takeEnd_tracks near .tryBlock stands).bind fun _ _ _ near => near.pure rfl
  · intro n m next X Y near below seenFinally stop stands
    have fewer := Bound.le_of_succ below
    rcases stop with _ | t
    · exact (takeEnd_tracks near .tryBlock stands).bind fun _ _ _ near => near.pure rfl
    · cases t with
      | catchPart =>
        have inside := inside_of_terminator? (terminator?_of_standsAt (stands _ rfl) (by simp))
        refine beginPart near inside fun o X Y same near => ?_
        rw [← ParseState.kind_of_ahead same] at inside
        refine (catchLine_tracks (agree.mono fewer) near inside).bind fun header X Y near => ?_
        exact (parts_tracks (fun body => TryPart.catchPart header body (header.span.merge body.span))
          (fun body => TryPart.catchPart (relocate c.carry header) body
            ((relocate c.carry header).span.merge body.span)) bodies near fewer
          (fun stop X Y near stands => next X Y near fewer seenFinally stop stands)
          (fun stop s closed => isSome_of_tryParts closed)
          (fun body => congrArg (TryPart.catchPart _ _) (Seam.merge_carry _ _))
          (fun _ _ _ => rfl) fun body => List.subset_append_right _ _).up
      | finallyPart =>
        have inside := inside_of_terminator? (terminator?_of_standsAt (stands _ rfl) (by simp))
        refine beginPart near inside fun o X Y same near => ?_
        rw [← ParseState.kind_of_ahead same] at inside
        refine (wordLine_tracks near inside).bind fun header X Y near => ?_
        exact (parts_tracks (fun body => TryPart.finallyPart header body (header.merge body.span))
          (fun body => TryPart.finallyPart (relocate c.carry header) body
            ((relocate c.carry header).merge body.span)) bodies near fewer
          (fun stop X Y near stands => next X Y near fewer true stop stands)
          (fun stop s closed => isSome_of_tryParts closed)
          (fun body => congrArg (TryPart.finallyPart _ _) (Seam.merge_carry _ _))
          (fun _ _ _ => rfl) fun body => List.Subset.refl _).up
      | _ => exact (takeEnd_tracks near .tryBlock stands).bind fun _ _ _ near => near.pure rfl

theorem tryBlock_tracks (agree : r.Agree c k r') (bodies : b.Agree c k b')
    (near : Near c o (k + 1) X Y) (inside : X.kind.endsLine = false) :
    Tracked c (fun s _ => s.Firm) (Loose c k) (tryBlock r b) (tryBlock r' b') X Y := by
  refine near.read inside fun X Y near => ?_
  refine (near.endStatement rfl).bind fun header X Y near => ?_
  refine (parted_tracks (fun n stop => tryParts r b n false stop)
    (fun n stop => tryParts r' b' n false stop) bodies near (fun stop X Y near stands =>
      (tryParts_tracks agree bodies near.fresh near.fresh_le false stands).within near)
    fun n stop s closed => isSome_of_tryParts closed).bindWhen (fun found s firm => ?_) ?_
  · have firm : (Node.statement (.tryBlock ⟨found.1, found.2.1, found.2.2, _⟩)).Firm := firm
    refine ⟨StatementList.firm_of_children firm (fun _ _ => rfl) (List.subset_append_left _ _),
      fun part member => firm.child (fun _ _ => rfl) ?_, firm.ended rfl⟩
    exact List.mem_append_right _ (List.mem_map_of_mem member)
  · rintro ⟨body, parts, ending⟩ X Y - near
    refine (near.spanFrom rfl).bind fun span X Y near => near.pure ?_
    rw [relocate_tryBlock]
    rfl

-- Selections

theorem isSome_of_caseBlocks {n : Nat} {seenElse : Bool} {stop : Option Terminator}
    {s : ParseState} (closed : ((caseBlocks r b n seenElse stop).run s).1.2.isSome = true) :
    stop.isSome = true := by
  cases stop with
  | some t => rfl
  | none => cases n <;> cases closed

theorem caseBlocks_of_ended {n : Nat} {seenElse : Bool} {stop : Option Terminator}
    (ends : X.kind = .endOfStream) (stands : ∀ t, stop = some t → X.StandsAt t) :
    caseBlocks r b n seenElse stop = (do return ([], ← takeEnd .selectBlock stop)) := by
  cases n with
  | zero => rfl
  | succ n =>
    unfold caseBlocks
    split
    · exact absurd rfl (ne_of_ended ends stands (by simp))
    · exact absurd rfl (ne_of_ended ends stands (by simp))
    · rfl

theorem caseBlocks_tracks {n m : Nat} (agree : r.Agree c k r') (bodies : b.Agree c k b')
    (near : Loose c (Bound.mk n m + 1) X Y) (below : Bound.mk n m + 1 ≤ k) (seenElse : Bool)
    {stop : Option Terminator} (stands : ∀ t, stop = some t → X.StandsAt t) :
    Tracked c (fun found _ => PartsFirm Node.caseBlock found) (Loose c (Bound.mk n m + 1))
      (caseBlocks r b n seenElse stop) (caseBlocks r' b' m seenElse stop) X Y := by
  refine near.steps (motive := fun n m X Y => Bound.mk n m + 1 ≤ k → ∀ seenElse stop,
    (∀ t, stop = some t → X.StandsAt t) → Tracked c (fun found _ => PartsFirm Node.caseBlock found)
      (Loose c (Bound.mk n m + 1)) (caseBlocks r b n seenElse stop)
      (caseBlocks r' b' m seenElse stop) X Y) ?_ ?_ below seenElse stop stands
  · intro n m X Y near ends _ seenElse stop stands
    rw [caseBlocks_of_ended ends stands, caseBlocks_of_ended ends stands]
    exact (takeEnd_tracks near .selectBlock stands).bind fun _ _ _ near => near.pure rfl
  · intro n m next X Y near below seenElse stop stands
    have fewer := Bound.le_of_succ below
    rcases stop with _ | t
    · exact (takeEnd_tracks near .selectBlock stands).bind fun _ _ _ near => near.pure rfl
    · cases t with
      | case =>
        have inside := inside_of_terminator? (terminator?_of_standsAt (stands _ rfl) (by simp))
        refine beginPart near inside fun o X Y same near => ?_
        rw [← ParseState.kind_of_ahead same] at inside
        refine (caseLine_tracks (agree.mono fewer) near inside).bind fun header X Y near => ?_
        exact (parts_tracks
          (fun body => (⟨.case header, body, header.span.merge body.span⟩ : CaseBlock Statement))
          (fun body => ⟨.case (relocate c.carry header), body,
            (relocate c.carry header).span.merge body.span⟩) bodies near fewer
          (fun stop X Y near stands => next X Y near fewer seenElse stop stands)
          (fun stop s closed => isSome_of_caseBlocks closed)
          (fun body => congrArg (CaseBlock.mk _ _) (Seam.merge_carry _ _))
          (fun _ _ _ => rfl) fun body => List.subset_append_right _ _).up
      | caseElse =>
        have starts := terminator?_of_standsAt (stands _ rfl) (by simp)
        refine beginPart near (inside_of_terminator? starts) fun o X Y same near => ?_
        rw [← ParseState.terminator?_of_ahead same] at starts
        refine (caseElseLine_tracks near starts).bind fun header X Y near => ?_
        exact (parts_tracks
          (fun body => (⟨.caseElse header, body, header.merge body.span⟩ : CaseBlock Statement))
          (fun body => ⟨.caseElse (relocate c.carry header), body,
            (relocate c.carry header).merge body.span⟩) bodies near fewer
          (fun stop X Y near stands => next X Y near fewer true stop stands)
          (fun stop s closed => isSome_of_caseBlocks closed)
          (fun body => congrArg (CaseBlock.mk _ _) (Seam.merge_carry _ _))
          (fun _ _ _ => rfl) fun body => List.subset_append_right _ _).up
      | _ => exact (takeEnd_tracks near .selectBlock stands).bind fun _ _ _ near => near.pure rfl

theorem leadingCases_tracks {m : Option ParseState} (agree : r.Agree c k r')
    (bodies : b.Agree c k b') (near : Paired c m k X Y) (leading : Statements)
    {stop : Option Terminator} (stands : ∀ t, stop = some t → X.StandsAt t) :
    Tracked c (fun found _ => found.1.Firm ∧ PartsFirm Node.caseBlock found.2) (Loose c k)
      (get >>= fun s => caseBlocks r b s.remaining false stop >>= fun blocks =>
        pure (leading, blocks.1, blocks.2))
      (get >>= fun s => caseBlocks r' b' s.remaining false stop >>= fun blocks =>
        pure (relocate c.carry leading, blocks.1, blocks.2)) X Y := by
  have near := near.loose
  refine Paired.get (((caseBlocks_tracks agree bodies near.fresh near.fresh_le false stands).within
    near).bindWhen (fun blocks s firm => firm.2) ?_)
  exact fun blocks X Y _ near => near.pure rfl

theorem standsAt_report {s : ParseState} {t : Terminator} {problem : Problem} {span : Span}
    (stands : s.StandsAt t) : (s.report problem span).StandsAt t := by
  have pending : (s.report problem span).pendingNext = s.pendingNext := by
    unfold ParseState.report
    split <;> rfl
  unfold ParseState.StandsAt
  rw [ParseState.terminator?_of_ahead (s.ahead_report _ _), pending]
  exact stands

theorem selectBlock_tracks (agree : r.Agree c k r') (bodies : b.Agree c k b')
    (near : Near c o (k + 1) X Y) (inside : X.kind.endsLine = false) :
    Tracked c (fun s _ => s.Firm) (Loose c k) (selectBlock r b) (selectBlock r' b') X Y := by
  refine near.read inside fun X Y near => ?_
  refine (near.eatenPlace rfl).bind fun caseKeyword X Y near => ?_
  refine (agree.value near).bind fun subject X Y near => ?_
  refine (near.endStatement rfl).bind fun header X Y near => ?_
  refine Tracked.bindWhen (S := Loose c k)
    (h := fun (found : Statements × List (CaseBlock Statement) × Option EndBlock) _ =>
      found.1.Firm ∧ PartsFirm Node.caseBlock found.2)
    (near.within rfl fun X Y _ near => ?_) (fun found s firm => ?_) ?_
  · refine (bodies.statements X Y near).bindWhen (fun leading s firm => ?_) ?_
    · dsimp only at firm
      cases empty : leading.1.statements.isEmpty with
      | true =>
        rw [empty] at firm
        exact ⟨firm.1, .inl (isSome_of_caseBlocks firm.2.2)⟩
      | false =>
        rw [empty] at firm
        exact ⟨firm.1, .inl (isSome_of_caseBlocks firm.2.2)⟩
    · rintro ⟨leading, stop⟩ X Y run near
      rw [relocate_body]
      have stands := bodies.stands.ofRun run
      have empty : (relocate c.carry leading).statements.isEmpty = leading.statements.isEmpty :=
        List.isEmpty_map
      dsimp only
      rw [empty]
      split
      · exact leadingCases_tracks agree bodies near leading stands
      · refine near.beginConstruct fun near => ?_
        refine .step rfl rfl (.standing (ParseState.ahead_report ..) (ParseState.ahead_report ..)) ?_
        refine leadingCases_tracks agree bodies (near.reports_report fun _ => ⟨rfl, rfl⟩) leading
          fun t found => ?_
        exact standsAt_report (stands t found)
  · have firm : (Node.statement (.selectBlock ⟨caseKeyword, subject, found.1, found.2.1, found.2.2,
      _⟩)).Firm := firm
    refine ⟨StatementList.firm_of_children firm (fun _ _ => rfl) fun _ member => ?_,
      fun part member => firm.child (fun _ _ => rfl) ?_, firm.ended rfl⟩
    · exact List.mem_cons_of_mem _ (List.mem_append_left _ member)
    · exact List.mem_cons_of_mem _ (List.mem_append_right _ (List.mem_map_of_mem member))
  · rintro ⟨leading, parts, ending⟩ X Y - near
    refine (near.spanFrom rfl).bind fun span X Y near => near.pure ?_
    rw [relocate_selectBlock]
    rfl

end Parse

end VisualBasic
