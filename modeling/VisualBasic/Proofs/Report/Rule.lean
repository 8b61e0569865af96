import VisualBasic.Parse.Sequence
import VisualBasic.Proofs.Report.Event
import VisualBasic.Proofs.Tandem.State

/-!
The steps that rules are made of, each with what it says.  None of them begins a construct, so a rule
made of them alone stays within the construct that it stands in.
-/

set_option autoImplicit false

namespace VisualBasic

/-- The problem is about the order of the parts of a block. -/
def Problem.isOrder : Problem → Bool
  | .elseAfterElse | .elseIfAfterElse | .caseAfterCaseElse | .caseElseAfterCaseElse
  | .catchAfterFinally | .finallyAfterFinally | .expectedCase => true
  | _ => false

/-- A report that is not about the order of the parts of a block. -/
def Event.isQuiet : Event → Bool
  | .begin => false
  | .report d => !d.problem.isOrder

/-- A rule that begins no construct and reports nothing about the order of the parts of a block. -/
abbrev Quiet {α : Type} (p : Parse α) : Prop := Tells p fun _ es => ∀ e ∈ es, e.isQuiet = true

theorem Event.ne_begin {e : Event} (quiet : e.isQuiet = true) : e ≠ .begin := by
  rintro rfl
  cases quiet

theorem Tells.report_single {problem : Problem} {span : Span} (quiet : problem.isOrder = false) :
    Tells (Parse.report problem span) fun _ es => ∃ e, es = [e] ∧ e.isQuiet = true :=
  (reports problem span).mono fun _ _ said => ⟨_, said, by simp [Event.isQuiet, quiet]⟩

theorem Tells.reportUnexpected_single {expected : Problem} (quiet : expected.isOrder = false) :
    Tells (Parse.reportUnexpected expected) fun _ es => ∃ e, es = [e] ∧ e.isQuiet = true := by
  refine (reportsUnexpected expected).mono fun _ _ ⟨d, said, problem⟩ => ⟨_, said, ?_⟩
  have silent : d.problem.isOrder = false := by
    rcases problem with same | ⟨fault, same⟩
    · rw [same, quiet]
    · rw [same]; rfl
  simp [Event.isQuiet, silent]

namespace ParseState

variable {s t : ParseState} {place : Location}

theorem Passed.advance (passed : s.Passed place) : s.advance.Passed place := by
  cases follows : s.following with
  | nil => rwa [ParseState.advance, follows]
  | cons u rest =>
    have next : s.advance.ahead = s.following ∧ s.advance.previous = some s.current := by
      unfold ParseState.advance
      rw [follows]
      exact ⟨rfl, rfl⟩
    refine ⟨⟨s.current, next.2, (passed.ahead _ List.mem_cons_self).2⟩, fun t member => ?_⟩
    rw [next.1] at member
    exact passed.ahead t (List.mem_cons_of_mem _ member)

namespace Alongside

theorem finishSince (beside : s.Alongside t) (start : Location) :
    t.finishSince start = s.finishSince start := by
  have read : t.previous = s.previous := by rw [beside.core]; rfl
  rcases beside.marked with same | ⟨passed, passed'⟩
  · unfold ParseState.finishSince
    rw [read, same]
  · obtain ⟨u, last, early⟩ := passed.behind
    obtain ⟨v, last', early'⟩ := passed'.behind
    obtain rfl : u = v := Option.some.inj (last.symm.trans last')
    rw [s.finishSince_of_passed last early, t.finishSince_of_passed (read.trans last) early']

theorem advance (beside : s.Alongside t) : s.advance.Alongside t.advance := by
  obtain ⟨core, marked⟩ := beside
  obtain ⟨x, rfl⟩ : ∃ x, t = s.beside x := ⟨_, core⟩
  have still (u : ParseState) : u.advance.placeholder = u.placeholder := by
    unfold ParseState.advance
    split <;> rfl
  refine ⟨?_, ?_⟩
  · unfold ParseState.advance
    cases follows : s.following with
    | nil => simp only [beside, follows]; rfl
    | cons u rest => simp only [beside, follows]; rfl
  · rw [still, still]
    exact marked.imp_right fun passed => ⟨passed.1.advance, passed.2.advance⟩

theorem advanceWhile (beside : s.Alongside t) {test : ParseState → Bool}
    (blind : ∀ s x, test (s.beside x) = test s) (n : Nat) :
    (s.advanceWhile test n).Alongside (t.advanceWhile test n) := by
  induction n generalizing s t with
  | zero => exact beside
  | succ n ih =>
    have same : test t = test s := by rw [beside.core, blind]
    unfold ParseState.advanceWhile
    rw [same]
    split
    · exact ih beside.advance
    · exact beside

theorem resync (beside : s.Alongside t) (stops : List TokenKind) :
    (s.resync stops).Alongside (t.resync stops) := by
  have same : stopsDiscarding stops t = stopsDiscarding stops s := by rw [beside.core]; rfl
  have length : t.advance.remaining = s.advance.remaining := by rw [beside.advance.core]; rfl
  have here : t.remaining = s.remaining := by rw [beside.core]; rfl
  unfold ParseState.resync
  rw [same, here]
  split
  · exact beside
  · exact beside.advance.advanceWhile (fun _ _ => rfl) _

/-- A step that changes nothing that rules write only. -/
theorem ofCore {g : ParseState → ParseState} (beside : s.Alongside t)
    (frame : ∀ s x, g (s.beside x) = (g s).beside x) (keeps : (g s).aside = s.aside)
    (previous : (g s).previous = s.previous) (ahead : (g s).ahead = s.ahead) :
    (g s).Alongside (g t) ∧ (g t).log = t.log := by
  obtain ⟨core, marked⟩ := beside
  obtain ⟨x, rfl⟩ : ∃ x, t = s.beside x := ⟨_, core⟩
  have mark : (g s).placeholder = s.placeholder := congrArg Aside.placeholder keeps
  rw [frame]
  refine ⟨⟨rfl, ?_⟩, rfl⟩
  rw [mark]
  refine marked.imp_right fun ⟨passed, passed'⟩ => ⟨⟨?_, ?_⟩, ⟨?_, ?_⟩⟩
  · rw [previous]; exact passed.behind
  · rw [ahead]; exact passed.ahead
  · rw [previous]; exact passed'.behind
  · rw [ahead]; exact passed'.ahead

end Alongside

end ParseState

namespace Quiet

open Parse

variable {α β σ : Type} {p : Parse α} {f : α → Parse β}

theorem pure {a : α} : Quiet (pure a) := Tells.pure (by simp)

theorem bind (first : Quiet p) (next : ∀ a, Quiet (f a)) : Quiet (p >>= f) :=
  Tells.bind first next fun _ _ _ _ said said' => List.forall_mem_append.2 ⟨said, said'⟩

theorem map {g : α → β} (first : Quiet p) : Quiet (g <$> p) :=
  first.bind (f := fun a => Pure.pure (g a)) fun _ => pure

theorem mapBind {γ : Type} {g : α → γ} {h : γ → Parse β} (first : Quiet p)
    (next : ∀ a, Quiet (h (g a))) : Quiet (g <$> p >>= h) :=
  first.bind (f := fun a => h (g a)) next

theorem get {f : ParseState → Parse β} (blind : ∀ s x, f (s.beside x) = f s)
    (next : ∀ s, Quiet (f s)) : Quiet (MonadState.get >>= f) :=
  Tells.get blind next

theorem modify {g : ParseState → ParseState}
    (step : ∀ s t, s.Alongside t → (g s).Alongside (g t) ∧ (g t).log = t.log) :
    Quiet (modify g : Parse Unit) :=
  fun s => ⟨[], by simp, fun t beside => ⟨rfl, step s t beside⟩⟩

-- Tokens

theorem peek : Quiet peek := .get (fun _ _ => rfl) fun _ => .pure

theorem peekKind : Quiet peekKind := .get (fun _ _ => rfl) fun _ => .pure

theorem kindAfter : Quiet kindAfter := .get (fun _ _ => rfl) fun _ => .pure

theorem here : Quiet here := .get (fun _ _ => rfl) fun _ => .pure

theorem check (kind : TokenKind) : Quiet (check kind) := .get (fun _ _ => rfl) fun _ => .pure

theorem atStatementEnd : Quiet atStatementEnd := .get (fun _ _ => rfl) fun _ => .pure

theorem log_advance (s : ParseState) : s.advance.log = s.log := by
  unfold ParseState.advance
  split <;> rfl

theorem log_advanceWhile (test : ParseState → Bool) (n : Nat) (s : ParseState) :
    (s.advanceWhile test n).log = s.log := by
  induction n generalizing s with
  | zero => rfl
  | succ n ih =>
    unfold ParseState.advanceWhile
    split
    · rw [ih, log_advance]
    · rfl

theorem skip : Quiet skip := .modify fun _ t beside => ⟨beside.advance, log_advance t⟩

theorem read : Quiet read := .bind .peek fun _ => .bind .skip fun _ => .pure

theorem eat (kind : TokenKind) : Quiet (eat kind) := by
  refine .bind (.check kind) fun found => ?_
  split
  · exact .bind .read fun _ => .pure
  · exact .pure

theorem eatContextual (keyword : Keyword) : Quiet (eatContextual keyword) := by
  refine .bind .peek fun token => ?_
  split
  · exact .bind .read fun _ => .pure
  · exact .pure

theorem eatPlace (kind : TokenKind) : Quiet (eatPlace kind) := .bind (.eat kind) fun _ => .pure

theorem whenEaten {kind : TokenKind} (more : Quiet p) : Quiet (whenEaten kind p) := by
  refine .bind (.eat kind) fun found => ?_
  split
  · exact .bind more fun _ => .pure
  · exact .pure

theorem optionally {c : Bool} (more : Quiet p) : Quiet (optionally c p) := by
  unfold Parse.optionally
  split
  · exact .bind more fun _ => .pure
  · exact .pure

-- Diagnostics

theorem report {problem : Problem} {span : Span} (quiet : problem.isOrder = false) :
    Quiet (report problem span) :=
  (Tells.report_single quiet).mono fun _ _ ⟨e, said, quiet⟩ => by simp [said, quiet]

theorem reportUnexpected {expected : Problem} (quiet : expected.isOrder = false) :
    Quiet (reportUnexpected expected) :=
  (Tells.reportUnexpected_single quiet).mono fun _ _ ⟨e, said, quiet⟩ => by simp [said, quiet]

theorem expect (kind : TokenKind) {problem : Problem} (quiet : problem.isOrder = false) :
    Quiet (expect kind problem) := by
  refine .bind (.eat kind) fun token => ?_
  split
  · exact .bind (.reportUnexpected quiet) fun _ => .pure
  · exact .pure

theorem expectPlace (kind : TokenKind) {problem : Problem} (quiet : problem.isOrder = false) :
    Quiet (expectPlace kind problem) :=
  .bind (.expect kind quiet) fun _ => .pure

theorem closeParenthesis : Quiet closeParenthesis := .expectPlace _ rfl

-- Places

theorem placeholder : Quiet placeholder := by
  intro s
  refine ⟨[], by simp, fun t beside => ?_⟩
  obtain ⟨core, marked⟩ := beside
  obtain ⟨x, rfl⟩ : ∃ x, t = s.beside x := ⟨_, core⟩
  refine ⟨rfl, ⟨rfl, .inl ?_⟩, rfl⟩
  show x.placeholder.later s.current.span.start = s.placeholder.later s.current.span.start
  rcases marked with same | ⟨passed, passed'⟩
  · exact congrArg (fun l : Location => l.later _) same
  · have first : s.current ∈ s.ahead := List.mem_cons_self
    rw [Location.later_eq_right (Nat.le_of_lt (passed.ahead _ first).1)]
    exact Location.later_eq_right (Nat.le_of_lt (passed'.ahead _ first).1)

theorem spanFrom (start : Location) : Quiet (spanFrom start) := by
  refine fun s => ⟨[], by simp, fun t beside => ⟨?_, beside, rfl⟩⟩
  exact congrArg (Span.mk start) (beside.finishSince start)

theorem resync (stops : List TokenKind) : Quiet (resync stops) := by
  refine .modify fun s t beside => ⟨beside.resync stops, ?_⟩
  unfold ParseState.resync
  split
  · rfl
  · rw [log_advanceWhile, log_advance]

theorem skipStatement : Quiet skipStatement := by
  refine .modify fun s t beside => ⟨?_, log_advanceWhile _ _ t⟩
  have here : t.remaining = s.remaining := by rw [beside.core]; rfl
  rw [here]
  exact beside.advanceWhile (fun _ _ => rfl) _

theorem endStatement (start : Location) : Quiet (endStatement start) := by
  refine .bind (.spanFrom start) fun span => .bind .atStatementEnd fun ends => ?_
  split
  · exact .pure
  · exact .bind (.reportUnexpected rfl) fun _ => .bind (.resync []) fun _ => .pure

theorem within (block : OpenBlock) (body : Quiet p) : Quiet (within block p) := by
  refine .bind (.modify fun s t beside => ?_) fun _ =>
    .bind body fun result => .bind (.modify fun s t beside => ?_) fun _ => .pure
  · exact beside.ofCore (g := fun s => { s with blocks := block :: s.blocks })
      (fun _ _ => rfl) rfl rfl rfl
  · exact beside.ofCore (g := fun s => { s with blocks := s.blocks.tail })
      (fun _ _ => rfl) rfl rfl rfl

-- Items with commas between them

theorem separatedFrom {item : σ → Parse (α × Option σ)} (items : ∀ state, Quiet (item state))
    (n : Nat) (state : σ) : Quiet (separatedFrom item n state) := by
  induction n generalizing state with
  | zero => exact .bind (items state) fun _ => .pure
  | succ n ih =>
    refine .bind (items state) fun found => ?_
    split
    · exact .pure
    · refine .bind (.eatPlace _) fun comma => ?_
      split
      · exact .pure
      · exact .bind (ih _) fun _ => .pure

theorem separated {item : Parse α} (items : Quiet item) : Quiet (separated item) :=
  .get (fun _ _ => rfl) fun _ => .separatedFrom (fun _ => .bind items fun _ => .pure) _ _

theorem commaList {item : Parse α} (span : α → Span) (items : Quiet item) :
    Quiet (commaList span item) :=
  .bind (.separated items) fun _ => .pure

end Quiet

end VisualBasic
