import VisualBasic.Proofs.Report.Leading

/-!
What is lost behind a problem.  The next construct that begins is reported again; only what is reported
before one begins may be lost.
-/

set_option autoImplicit false

namespace VisualBasic

namespace Tells

variable {α : Type} {p : Parse α} {P : α → List Event → Prop}

/-- A rule that does not care whether there is a diagnostic begins a construct. -/
theorem begun (tells : Tells p P) (fresh : ∀ s, p.run s = p.run { s with suppressed := false }) :
    Tells p fun _ es => es.head? = some .begin := by
  intro s
  obtain ⟨es, -, same⟩ := tells s
  refine ⟨.begin :: es, rfl, fun t beside => ?_⟩
  obtain ⟨value, after, -⟩ := same t beside
  obtain ⟨-, -, heard⟩ := same _ (beside.withLog s.log { t.log with suppressed := false })
  refine ⟨value, after, ?_⟩
  rw [fresh t]
  exact heard

/-- What a rule reports behind other problems: all that it reports alone, perhaps without the first one,
if that is reported before a construct begins. -/
theorem shown (tells : Tells p P) {s t : ParseState} (beside : s.Alongside t)
    (clean : s.log = ⟨[], false⟩) :
    ∃ es ds, P (p.run s).1 es ∧ (p.run t).2.diagnostics = t.diagnostics ++ ds ∧
      (ds = (p.run s).2.diagnostics ∨ t.suppressed = true ∧
        ∃ d, es.head? = some (.report d) ∧ (p.run s).2.diagnostics = d :: ds) := by
  obtain ⟨es, said, same⟩ := tells s
  have own : (p.run s).2.diagnostics = ((⟨[], false⟩ : Log).hear es).diagnostics := by
    rw [← clean]
    exact congrArg Log.diagnostics (same s (.refl s)).2.2
  have all : (p.run t).2.diagnostics =
      t.diagnostics ++ ((⟨[], t.suppressed⟩ : Log).hear es).diagnostics :=
    (congrArg Log.diagnostics (same t beside).2.2).trans (Log.diagnostics_hear t.log es)
  refine ⟨es, _, said, all, ?_⟩
  rw [own]
  cases suppressed : t.suppressed with
  | false => exact .inl rfl
  | true => exact (Log.hear_suppressed_cases es).imp_right fun lost => ⟨rfl, lost⟩

end Tells

/-- A rule that reports nothing before a construct begins. -/
abbrev Begins {α : Type} (p : Parse α) : Prop :=
  Tells p fun _ es => ∀ d, es.head? ≠ some (.report d)

namespace Begins

open Parse

variable {α β : Type} {p : Parse α} {f : α → Parse β} {P : α → List Event → Prop}
  {Q : α → β → List Event → Prop} {r : Rules} {b : Bodies} {k : Problem}

theorem ofBegun (begun : Tells p fun _ es => es.head? = some .begin) : Begins p :=
  begun.mono fun _ _ first d report => by simp [first] at report

theorem pure {a : α} : Begins (pure a) := Tells.pure (by simp)

theorem bind (first : Begins p) (next : ∀ a, Begins (f a)) : Begins (p >>= f) := by
  refine Tells.bind first next fun _ _ es fs said said' d report => ?_
  rw [List.head?_append, Option.or_eq_some_iff] at report
  rcases report with here | ⟨-, later⟩
  · exact said d here
  · exact said' d later

theorem get {f : ParseState → Parse β} (blind : ∀ s x, f (s.beside x) = f s)
    (next : ∀ s, Begins (f s)) : Begins (MonadState.get >>= f) :=
  Tells.get blind next

theorem peek : Begins peek := .get (fun _ _ => rfl) fun _ => .pure

theorem skip : Begins skip :=
  fun _ => ⟨[], by simp, fun t beside => ⟨rfl, beside.advance, Quiet.log_advance t⟩⟩

theorem directive (phrases : r.Quiet) : Begins (directive r) :=
  .ofBegun ((Calm.directive phrases).begun fun _ => rfl)

theorem separatorsWithin (phrases : r.Quiet) (n : Nat) : Begins (separatorsWithin r n) := by
  induction n with
  | zero => exact .pure
  | succ n ih =>
    refine .bind .peek fun token => ?_
    split
    · exact .bind .skip fun _ => ih
    · exact .bind .skip fun _ => .bind ih fun _ => .pure
    · refine .get (fun _ _ => rfl) fun s => ?_
      split
      · exact .bind (.directive phrases) fun _ => ih
      · exact .pure
    · exact .pure

theorem separators (phrases : r.Quiet) : Begins (separators r) :=
  .get (fun _ _ => rfl) fun _ => .separatorsWithin phrases _

/-- Behind what begins a construct, anything may be reported. -/
theorem before (first : Tells p fun _ es => es.head? = some .begin) (next : ∀ a, Tells (f a) (Q a)) :
    Tells (p >>= f) fun _ es => es.head? = some .begin :=
  Tells.bind first next fun _ _ es fs said _ => by simp [List.head?_append, said]

theorem statement (order : k.isOrder = true) (bodies : b.Tallies k) (phrases : r.Quiet) :
    Tells (statement r b) fun _ es => es.head? = some .begin :=
  (Tallies.statement order bodies phrases 0).begun fun _ => rfl

/-- What is reported behind other problems before a construct begins, is lost; there is nothing. -/
theorem shown (begins : Begins p) {s t : ParseState} (beside : s.Alongside t)
    (clean : s.log = ⟨[], false⟩) :
    (p.run t).2.diagnostics = t.diagnostics ++ (p.run s).2.diagnostics := by
  obtain ⟨es, ds, said, all, own | ⟨-, d, report, -⟩⟩ := Tells.shown begins beside clean
  · rw [all, own]
  · exact absurd report (said d)

end Begins

namespace Parse

variable {r : Rules} {b : Bodies} {s t : ParseState} {k : Problem}

end Parse

end VisualBasic
