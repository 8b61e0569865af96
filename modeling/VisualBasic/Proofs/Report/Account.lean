import VisualBasic.Proofs.Report.Tally

/-!
Rules that keep account of the order of parts.  Each diagnostic about it is for one part that has been
read; all other rules report nothing about it, though they may begin constructs.
-/

set_option autoImplicit false

namespace VisualBasic

/-- Nothing about the order of the parts of a block. -/
def Event.isCalm : Event → Bool
  | .begin => true
  | .report d => !d.problem.isOrder

/-- A rule that reports nothing about the order of the parts of a block. -/
abbrev Calm {α : Type} (p : Parse α) : Prop := Tells p fun _ es => ∀ e ∈ es, e.isCalm = true

theorem Event.isCalm_of_isQuiet {e : Event} (quiet : e.isQuiet = true) : e.isCalm = true := by
  cases e with
  | begin => rfl
  | report d => exact quiet

theorem Quiet.calm {α : Type} {p : Parse α} (quiet : Quiet p) : Calm p :=
  quiet.mono fun _ _ said e member => Event.isCalm_of_isQuiet (said e member)

namespace Calm

variable {α β : Type} {p : Parse α} {f : α → Parse β}

theorem pure {a : α} : Calm (pure a) := Quiet.pure.calm

theorem bind (first : Calm p) (next : ∀ a, Calm (f a)) : Calm (p >>= f) :=
  Tells.bind first next fun _ _ _ _ said said' => List.forall_mem_append.2 ⟨said, said'⟩

/-- A rule that goes on behind a quiet one. -/
theorem behind (first : Quiet p) (next : ∀ a, Calm (f a)) : Calm (p >>= f) := first.calm.bind next

theorem get {f : ParseState → Parse β} (blind : ∀ s x, f (s.beside x) = f s)
    (next : ∀ s, Calm (f s)) : Calm (MonadState.get >>= f) :=
  Tells.get blind next

theorem beginConstruct : Calm Parse.beginConstruct :=
  Tells.begins.mono fun _ _ said => by simp [said, Event.isCalm]

theorem modify {g : ParseState → ParseState}
    (step : ∀ s t, s.Alongside t → (g s).Alongside (g t) ∧ (g t).log = t.log) :
    Calm (modify g : Parse Unit) :=
  (Quiet.modify step).calm

end Calm

namespace Log

/-- How many diagnostics are about a problem. -/
def count (k : Problem) (l : Log) : Nat := l.diagnostics.countP fun d => d.problem = k

theorem count_add_report (k : Problem) (l : Log) (problem : Problem) (span : Span) :
    ((l.add .begin).add (.report ⟨problem, span⟩)).count k = l.count k + [problem].count k := by
  show List.countP _ (l.diagnostics ++ [⟨problem, span⟩]) = _
  rw [List.countP_append, count, List.countP_singleton, List.count_singleton]
  simp

/-- Other problems do not count. -/
theorem count_hear_of_calm {k : Problem} (order : k.isOrder = true) (l : Log) {es : List Event}
    (calm : ∀ e ∈ es, e.isCalm = true) : (l.hear es).count k = l.count k := by
  induction es generalizing l with
  | nil => rfl
  | cons e es ih =>
    obtain ⟨first, rest⟩ := List.forall_mem_cons.1 calm
    rw [hear_cons, ih _ rest]
    cases e with
    | begin => rfl
    | report d =>
      have other : d.problem ≠ k := by
        rintro rfl
        simp [Event.isCalm, order] at first
      simp only [add]
      split
      · rfl
      · simp [count, other]

end Log

/-- The diagnostics about a problem and those that were counted before are as many as the result
says, whatever was found before. -/
def Tallies {α : Type} (k : Problem) (before : Nat) (p : Parse α) (count : α → Nat) : Prop :=
  Tells p fun a es => ∀ l : Log, (l.hear es).count k + before = l.count k + count a

namespace Tallies

variable {α β : Type} {k : Problem} {m : Nat} {p : Parse α} {f : α → Parse β} {c : α → Nat}
  {d : β → Nat}

theorem pure {a : α} (same : m = c a) : Tallies k m (pure a) c :=
  Tells.pure fun _ => congrArg _ same

theorem bind (first : Tallies k m p c) (next : ∀ a, Tallies k (c a) (f a) d) :
    Tallies k m (p >>= f) d := by
  refine Tells.bind first next fun a b es fs said said' l => ?_
  have := said l
  have := said' (l.hear es)
  rw [Log.hear_append]
  omega

theorem get {f : ParseState → Parse β} (blind : ∀ s x, f (s.beside x) = f s)
    (next : ∀ s, Tallies k m (f s) d) : Tallies k m (MonadState.get >>= f) d :=
  Tells.get blind next

/-- What is counted from the start. -/
theorem count_run (tallies : Tallies k 0 p fun a => 0 + c a) (s : ParseState) :
    (p.run s).2.log.count k = s.log.count k + c (p.run s).1 := by
  obtain ⟨es, said, heard⟩ := tallies.heard s
  rw [heard, ← Nat.zero_add (c _)]
  exact said s.log

theorem ofCalm (order : k.isOrder = true) (calm : Calm p) : Tallies k m p fun _ => m :=
  calm.mono fun _ _ said l => by rw [Log.count_hear_of_calm order l said]

/-- A rule that goes on behind one that reports nothing about the order of parts. -/
theorem after (order : k.isOrder = true) (calm : Calm p) (next : ∀ a, Tallies k m (f a) d) :
    Tallies k m (p >>= f) d :=
  (ofCalm order calm).bind next

/-- A rule that goes on behind a quiet one. -/
theorem quietly (order : k.isOrder = true) (first : Quiet p) (next : ∀ a, Tallies k m (f a) d) :
    Tallies k m (p >>= f) d :=
  after order first.calm next

/-- A rule whose results are known to count otherwise. -/
theorem valued {c' : α → Nat} (tallies : Tallies k m p c)
    (same : ∀ s, c (p.run s).1 = c' (p.run s).1) : Tallies k m p c' := by
  intro s
  obtain ⟨es, said, alike⟩ := tallies s
  exact ⟨es, fun l => same s ▸ said l, alike⟩

/-- A construct that begins with a report of its own. -/
theorem reports {problem : Problem} {span : Span} {rest : Unit → Parse β}
    (next : Tallies k (m + [problem].count k) (rest ()) d) :
    Tallies k m (Parse.beginConstruct >>= fun _ => Parse.report problem span >>= rest) d := by
  refine Tells.bind Tells.begins (fun _ => Tells.bind (Tells.reports problem span) (fun _ => next)
    (R := fun b fs => ∃ gs, fs = .report ⟨problem, span⟩ :: gs ∧
      ∀ l : Log, (l.hear gs).count k + (m + [problem].count k) = l.count k + d b)
    fun _ b es gs said said' => ⟨gs, by rw [said]; rfl, said'⟩) fun _ b es fs said said' l => ?_
  obtain ⟨gs, rfl, counts⟩ := said'
  subst said
  have := counts ((l.add .begin).add (.report ⟨problem, span⟩))
  rw [Log.count_add_report] at this
  show (((l.add .begin).add _).hear gs).count k + m = _
  omega

/-- A part that is misplaced is reported where it begins. -/
theorem opens {seen : Bool} {problem : Problem} {rest : Unit → Parse β}
    (next : Tallies k (m + (if seen then [problem] else []).count k) (rest ()) d) :
    Tallies k m (Parse.beginConstruct >>= fun _ =>
      if seen then Parse.peek >>= fun token => Parse.report problem token.span >>= rest
      else rest ()) d := by
  cases seen with
  | false =>
    refine Tells.bind Tells.begins (fun _ => next) fun _ _ es fs said said' l => ?_
    subst said
    exact said' (l.add .begin)
  | true =>
    -- The token is the same before the construct begins.
    show Tallies k m (MonadState.get >>= fun s => Parse.beginConstruct >>= fun _ =>
      Parse.report problem s.current.span >>= rest) d
    exact .get (fun _ _ => rfl) fun s => .reports next

/-- What has neither lists nor parts has nothing out of order. -/
theorem leaf {a : α} {node : α → Node} (direct : (node a).isDirect = true)
    (orderly : (node a).misplaced = []) (flat : (node a).lists = []) (whole : (node a).parts = []) :
    Tallies k m (Pure.pure a) fun a => m + Node.disorder k (node a) :=
  .pure (by rw [Node.disorder_of_flat direct orderly flat whole]; rfl)

/-- What has one list has out of order what the list has. -/
theorem holds {a : α} {node : α → Node} {ns : List Node} (direct : (node a).isDirect = true)
    (orderly : (node a).misplaced = []) (list : (node a).lists = [ns])
    (whole : (node a).parts = []) :
    Tallies k (m + Node.disorders k ns) (Pure.pure a) fun a => m + Node.disorder k (node a) :=
  .pure (by rw [Node.disorder_of_list direct orderly list whole])

end Tallies

end VisualBasic
