import VisualBasic.Parse.State

/-!
What rules say about a text.  A rule begins constructs and reports problems; which of the problems
are recorded is up to the diagnostics there are already.  No rule looks at them: what a rule reads,
gives and says is the same whatever was found before.
-/

set_option autoImplicit false

namespace VisualBasic

/-- What a rule says to the list of diagnostics. -/
inductive Event where
  | begin
  | report (d : Diagnostic)
deriving DecidableEq

/-- The diagnostics so far, and whether the construct that is being read has one. -/
structure Log where
  diagnostics : List Diagnostic
  suppressed : Bool

namespace Log

def add (l : Log) : Event → Log
  | .begin => { l with suppressed := false }
  | .report d => if l.suppressed then l else ⟨l.diagnostics ++ [d], true⟩

def hear (l : Log) (es : List Event) : Log := es.foldl add l

@[simp] theorem hear_nil (l : Log) : l.hear [] = l := rfl

@[simp] theorem hear_cons (l : Log) (e : Event) (es : List Event) :
    l.hear (e :: es) = (l.add e).hear es := rfl

@[simp] theorem hear_append (l : Log) (es fs : List Event) :
    l.hear (es ++ fs) = (l.hear es).hear fs := List.foldl_append

/-- Within a construct that has a diagnostic nothing more is recorded. -/
theorem hear_of_suppressed {l : Log} (suppressed : l.suppressed = true) {es : List Event}
    (within : ∀ e ∈ es, e ≠ .begin) : l.hear es = l := by
  induction es with
  | nil => rfl
  | cons e es ih =>
    obtain ⟨first, rest⟩ := List.forall_mem_cons.1 within
    cases e with
    | begin => exact absurd rfl first
    | report d =>
      rw [hear_cons, add, if_pos suppressed]
      exact ih rest

/-- Within a construct that has none, the first problem is recorded and no other. -/
theorem hear_of_not_suppressed {l : Log} (fresh : l.suppressed = false) {es : List Event}
    (within : ∀ e ∈ es, e ≠ .begin) :
    ∃ ds, (l.hear es).diagnostics = l.diagnostics ++ ds ∧ ds.length ≤ 1 ∧
      (es ≠ [] → ds.length = 1) := by
  cases es with
  | nil => exact ⟨[], (List.append_nil _).symm, Nat.zero_le 1, fun some => absurd rfl some⟩
  | cons e es =>
    obtain ⟨first, rest⟩ := List.forall_mem_cons.1 within
    cases e with
    | begin => exact absurd rfl first
    | report d =>
      refine ⟨[d], ?_, Nat.le_refl 1, fun _ => rfl⟩
      rw [hear_cons, add, fresh, if_neg Bool.false_ne_true]
      exact congrArg diagnostics (hear_of_suppressed rfl rest)

/-- What was found before stays in front. -/
theorem diagnostics_hear (l : Log) (es : List Event) :
    (l.hear es).diagnostics =
      l.diagnostics ++ ((⟨[], l.suppressed⟩ : Log).hear es).diagnostics := by
  induction es generalizing l with
  | nil => exact (List.append_nil _).symm
  | cons e es ih =>
    cases e with
    | begin => exact ih _
    | report d =>
      cases suppressed : l.suppressed with
      | true => simp only [hear_cons, add, suppressed, if_true]; rw [ih, suppressed]
      | false =>
        simp only [hear_cons, add, suppressed, Bool.false_eq_true, if_false, List.nil_append]
        rw [ih, ih ⟨[d], true⟩, List.append_assoc]

/-- Of what is found behind a construct that has a diagnostic, at most the first problem is lost, and
only if it is reported before a construct begins. -/
theorem hear_suppressed_cases (es : List Event) :
    ((⟨[], true⟩ : Log).hear es).diagnostics = ((⟨[], false⟩ : Log).hear es).diagnostics ∨
      ∃ d, es.head? = some (.report d) ∧ ((⟨[], false⟩ : Log).hear es).diagnostics =
        d :: ((⟨[], true⟩ : Log).hear es).diagnostics := by
  cases es with
  | nil => exact .inl rfl
  | cons e es =>
    cases e with
    | begin => exact .inl rfl
    | report d => exact .inr ⟨d, rfl, diagnostics_hear ⟨[d], true⟩ es⟩

end Log

def ParseState.log (s : ParseState) : Log := ⟨s.diagnostics, s.suppressed⟩

/-- The parser with another list of diagnostics. -/
def ParseState.withLog (s : ParseState) (l : Log) : ParseState :=
  { s with
    diagnostics := l.diagnostics
    suppressed := l.suppressed }

theorem ParseState.report_eq (s : ParseState) (problem : Problem) (span : Span) :
    s.report problem span = s.withLog (s.log.add (.report ⟨problem, span⟩)) := by
  unfold report Log.add
  show _ = s.withLog (if s.suppressed then _ else _)
  split <;> rfl

-- What no rule looks at

/-- What rules write and do not read. -/
structure Aside where
  log : Log
  tables : DirectiveTables
  placeholder : Location
  comments : List Comment
  commentsAhead : List Comment

namespace ParseState

def aside (s : ParseState) : Aside :=
  ⟨s.log, s.tables, s.placeholder, s.comments, s.commentsAhead⟩

/-- The same parser with something else found before. -/
def beside (s : ParseState) (x : Aside) : ParseState :=
  { s with
    diagnostics := x.log.diagnostics
    suppressed := x.log.suppressed
    tables := x.tables
    placeholder := x.placeholder
    comments := x.comments
    commentsAhead := x.commentsAhead }

/-- A place that shows in no span from here on. -/
structure Passed (s : ParseState) (place : Location) : Prop where
  behind : ∃ t, s.previous = some t ∧ place.index < t.span.finish.index
  ahead : ∀ t ∈ s.ahead, place.index < t.span.start.index ∧ place.index < t.span.finish.index

/-- Two parsers that differ in what no rule reads.  Where something was missing last is the same for
both, or does not matter any more. -/
structure Alongside (s t : ParseState) : Prop where
  core : t = s.beside t.aside
  marked : t.placeholder = s.placeholder ∨ s.Passed s.placeholder ∧ s.Passed t.placeholder

theorem Alongside.refl (s : ParseState) : s.Alongside s := ⟨rfl, .inl rfl⟩

/-- What has been found is no matter. -/
theorem Alongside.withLog {s t : ParseState} (beside : s.Alongside t) (l m : Log) :
    (s.withLog l).Alongside (t.withLog m) where
  core := congrArg (fun u => u.withLog m) beside.core
  marked := beside.marked.imp_right fun passed =>
    ⟨⟨passed.1.behind, passed.1.ahead⟩, ⟨passed.2.behind, passed.2.ahead⟩⟩

end ParseState

/-- A rule gives the same and says the same to all that was found before. -/
def Tells {α : Type} (p : Parse α) (post : α → List Event → Prop) : Prop :=
  ∀ s, ∃ es, post (p.run s).1 es ∧ ∀ t, s.Alongside t →
    (p.run t).1 = (p.run s).1 ∧ (p.run s).2.Alongside (p.run t).2 ∧
      (p.run t).2.log = t.log.hear es

namespace Tells

variable {α β : Type} {p : Parse α} {f : α → Parse β} {P P' : α → List Event → Prop}
  {Q : α → β → List Event → Prop} {R : β → List Event → Prop}

theorem pure {a : α} (none : P a []) : Tells (pure a) P :=
  fun _ => ⟨[], none, fun _ beside => ⟨rfl, beside, rfl⟩⟩

theorem mono (tells : Tells p P) (weaker : ∀ a es, P a es → P' a es) : Tells p P' := by
  intro s
  obtain ⟨es, said, same⟩ := tells s
  exact ⟨es, weaker _ _ said, same⟩

theorem bind (first : Tells p P) (next : ∀ a, Tells (f a) (Q a))
    (joined : ∀ a b es fs, P a es → Q a b fs → R b (es ++ fs)) : Tells (p >>= f) R := by
  intro s
  obtain ⟨es, said, same⟩ := first s
  obtain ⟨fs, said', same'⟩ := next (p.run s).1 (p.run s).2
  refine ⟨es ++ fs, joined _ _ _ _ said said', fun t beside => ?_⟩
  obtain ⟨value, after, heard⟩ := same t beside
  obtain ⟨value', after', heard'⟩ := same' _ after
  have run : (p >>= f).run t = (f (p.run s).1).run (p.run t).2 := by
    rw [← value]
    rfl
  rw [run]
  exact ⟨value', after', by rw [heard', heard, Log.hear_append]⟩

/-- A rule that goes on by what it sees. -/
theorem get {f : ParseState → Parse β} (blind : ∀ s x, f (s.beside x) = f s)
    (next : ∀ s, Tells (f s) R) : Tells (MonadState.get >>= f) R := by
  intro s
  obtain ⟨es, said, same⟩ := next s s
  refine ⟨es, said, fun t beside => ?_⟩
  have run : (MonadState.get >>= f : Parse β).run t = (f s).run t := by
    rw [← blind s t.aside, ← beside.core]
    rfl
  rw [run]
  exact same t beside

/-- A rule that says one thing, by what it sees. -/
theorem event (e : ParseState → Event) (blind : ∀ s x, e (s.beside x) = e s) :
    Tells (modify fun s => s.withLog (s.log.add (e s))) fun _ es => ∃ s, es = [e s] := by
  intro s
  refine ⟨[e s], ⟨s, rfl⟩, fun t beside => ⟨rfl, beside.withLog _ _, ?_⟩⟩
  have same : e t = e s := by rw [beside.core, blind]
  exact congrArg t.log.add same

theorem begins : Tells Parse.beginConstruct fun _ es => es = [.begin] :=
  (event (fun _ => .begin) fun _ _ => rfl).mono fun _ _ ⟨_, said⟩ => said

theorem reports (problem : Problem) (span : Span) :
    Tells (Parse.report problem span) fun _ es => es = [.report ⟨problem, span⟩] := by
  have same : Parse.report problem span =
      modify fun s => s.withLog (s.log.add (.report ⟨problem, span⟩)) :=
    congrArg modify (funext fun s => s.report_eq problem span)
  rw [same]
  exact (event (fun _ => .report ⟨problem, span⟩) fun _ _ => rfl).mono fun _ _ ⟨_, said⟩ => said

theorem reportsUnexpected (expected : Problem) :
    Tells (Parse.reportUnexpected expected) fun _ es => ∃ d, es = [.report d] ∧
      (d.problem = expected ∨ ∃ fault, d.problem = .lexical fault) := by
  let found (s : ParseState) : Diagnostic :=
    ⟨(s.current.fault?.map .lexical).getD expected, s.current.span⟩
  have same : Parse.reportUnexpected expected =
      modify fun s => s.withLog (s.log.add (.report (found s))) :=
    congrArg modify (funext fun s => s.report_eq _ _)
  rw [same]
  refine (event (fun s => .report (found s)) fun _ _ => rfl).mono fun _ _ ⟨s, said⟩ =>
    ⟨found s, said, ?_⟩
  show (s.current.fault?.map Problem.lexical).getD expected = expected ∨ _
  cases is : s.current.fault? with
  | none => exact .inl rfl
  | some fault => exact .inr ⟨fault, by simp [found, is]⟩

/-- What a rule says from one state. -/
theorem heard (tells : Tells p P) (s : ParseState) :
    ∃ es, P (p.run s).1 es ∧ (p.run s).2.log = s.log.hear es := by
  obtain ⟨es, said, same⟩ := tells s
  exact ⟨es, said, (same s (.refl s)).2.2⟩

/-- What was found before changes nothing in the result. -/
theorem value (tells : Tells p P) {s t : ParseState} (beside : s.Alongside t) :
    (p.run t).1 = (p.run s).1 := by
  obtain ⟨es, -, same⟩ := tells s
  exact (same t beside).1

end Tells

end VisualBasic
