import VisualBasic.Proofs.Parse.Rule

/-!
Rules for whole statements and declarations.  They can be called at any token, also at one that no
statement starts with; they are run so that they always move on.
-/

set_option autoImplicit false

namespace VisualBasic

variable {α : Type} {s t : ParseState} {n : Node} {ns : List Node}

/-- The rule has read nothing and gives an empty node that is not yet behind what has been read. -/
structure Stalls (s t : ParseState) (n : Node) : Prop where
  so : Stretch s.here s t [] []
  still : t.remaining = s.remaining
  dirty : t.diagnostics ≠ []
  start : n.span.start.index = s.here
  finish : n.span.finish.index = s.here
  children : n.children = []
  noLoop : n.closing? = none
  owes : n.unclosed = []

/-- The rule has read its node, or it stalls.  At a token that could not be understood it leaves a
diagnostic. -/
def Attempt (s t : ParseState) (n : Node) : Prop :=
  (Stretch s.here s t [n] [] ∧ (s.kind = .lexicalError → t.diagnostics ≠ [])) ∨ Stalls s t n

theorem Attempt.runs (attempt : Attempt s t n) : s.Runs t := by
  rcases attempt with ⟨so, -⟩ | stalls
  · exact so.runs
  · exact stalls.so.runs

theorem Attempt.wf (attempt : Attempt s t n) : t.Wf := by
  rcases attempt with ⟨so, -⟩ | stalls
  · exact so.wf
  · exact stalls.so.wf

theorem Attempt.ofSolid (so : Stretch s.here s t [n] []) (solid : s.kind.isSolid = true) :
    Attempt s t n :=
  .inl ⟨so, fun fault => by simp [fault, TokenKind.isSolid] at solid⟩

/-- The tokens ahead do not start before the current one. -/
theorem Stream.here_le {k : Token} {rest : List Token} (stream : Stream (k :: rest)) :
    ∀ j ∈ k :: rest, k.span.start.index ≤ j.span.start.index := by
  induction rest generalizing k with
  | nil => simp
  | cons u rest ih =>
    cases stream with
    | cons _ wide ordered _ below =>
      intro j member
      rcases List.mem_cons.1 member with rfl | later
      · exact Nat.le_refl _
      · have := ih below j later
        omega

/-- A token that could not be understood is passed only behind a diagnostic. -/
theorem ParseState.Later.dirty (wf : t.Wf) (later : Later s t)
    (moved : t.remaining < s.remaining) (fault : s.kind = .lexicalError) : t.diagnostics ≠ [] := by
  intro none
  have ahead := later.lexical none s.current List.mem_cons_self fault
  have after : t.here ≤ s.here := wf.stream.here_le s.current ahead
  have reached := later.moved moved
  have behind := wf.behind
  omega

/-- Phrases that have been read can be taken over by what is read from here on. -/
theorem Stretch.restart {lo : Nat} {o : ParseState} (so : Stretch lo o s ns [])
    (phrases : ns.all Node.isPhrase = true) : Stretch lo s s ns [] :=
  ((refl so.wf).weaken so.lower).replace ns rfl phrases so.fits so.ascending (so.noOverlap phrases)

/-- What is read from here on goes on with the phrases that have been read. -/
theorem Stretch.goOn {lo : Nat} {o : ParseState} {p : Parse α} {nodes : α → List Node}
    (so : Stretch lo o s ns []) (phrases : ns.all Node.isPhrase = true)
    (rest : Stretch lo s s ns [] → Ensures p s fun a t => Stretch lo s t (nodes a) []) :
    Ensures p s fun a t => Stretch lo o t (nodes a) [] :=
  (rest (so.restart phrases)).mono fun _ _ more => (so.forget phrases).trans more

/-- A rule that goes on from a token which is understood. -/
theorem Stretch.attempt {p : Parse α} {node : α → Node} (so : Stretch s.here s t ns [])
    (phrases : ns.all Node.isPhrase = true) (solid : t.kind.isSolid = true)
    (rest : Stretch s.here t t ns [] → Ensures p t fun a u => Stretch s.here t u [node a] []) :
    Ensures p t fun a u => Attempt s u (node a) := by
  have guarded (fault : s.kind = .lexicalError) : t.diagnostics ≠ [] := by
    rcases Nat.lt_or_ge t.remaining s.remaining with moved | still
    · exact so.later.dirty so.wf moved fault
    · have ahead := so.later.still (Nat.le_antisymm so.later.remaining still)
      obtain ⟨current, -⟩ := List.cons.inj ahead
      rw [ParseState.kind, current, ← ParseState.kind, fault] at solid
      cases solid
  refine (rest (so.restart phrases)).mono fun a u more => .inl ⟨(so.forget phrases).trans more, ?_⟩
  exact fun fault none => guarded fault (more.later.clean none)

theorem Stretch.discard {lo : Nat} {o : ParseState} (so : Stretch lo o t ns [])
    (stops : List TokenKind) (dirty : t.diagnostics ≠ []) :
    Ensures (Parse.resync stops) t fun _ u => Stretch lo o u ns [] ∧ u.diagnostics ≠ [] :=
  ⟨so.resynced stops dirty,
    fun none => dirty (((refl so.wf).resynced stops dirty).later.clean none)⟩

theorem Stretch.skipStatement {lo : Nat} {o : ParseState} (so : Stretch lo o t ns [])
    (dirty : t.diagnostics ≠ []) :
    Ensures Parse.skipStatement t fun _ u => Stretch lo o u ns [] ∧ u.diagnostics ≠ [] :=
  ⟨so.advanceWhile ParseState.within_skipped _ dirty,
    fun none => dirty
      (((refl so.wf).advanceWhile ParseState.within_skipped _ dirty).later.clean none)⟩

/-- A rule that gives up: what it has read is no part of its node. -/
theorem Stretch.giveUp {node : α → Node} {build : Span → α} (so : Stretch s.here s t ns [])
    (phrases : ns.all Node.isPhrase = true) (dirty : t.diagnostics ≠ [])
    (span : ∀ span, (node (build span)).span = span := by intro _; rfl)
    (children : ∀ span, (node (build span)).children = [] := by intro _; rfl)
    (noLoop : ∀ span, (node (build span)).closing? = none := by intro _; rfl)
    (owes : ∀ span, (node (build span)).unclosed = [] := by intro _; rfl) :
    Ensures (Parse.spanFrom s.current.span.start >>= fun span => pure (build span)) t fun a u =>
      Attempt s u (node a) := by
  have so := so.forget phrases
  have finish := t.index_finishSince s.current.span.start
  show Attempt s t (node (build (t.spanSince s.current.span.start)))
  rcases Nat.lt_or_ge t.remaining s.remaining with moved | still
  · have reached := so.later.moved moved
    exact .inl ⟨so.wrap (Nat.le_of_lt reached) (span _) (children _) (fun none => absurd none dirty)
      (owes _) (noLoop _) (by simp) fun none => absurd none dirty, fun _ => dirty⟩
  · have still := Nat.le_antisymm so.later.remaining still
    obtain ⟨current, -⟩ := List.cons.inj (so.later.still still)
    have behind : t.limit ≤ s.here := by
      have := so.wf.behind
      rwa [ParseState.here, current] at this
    refine .inr ⟨so, still, dirty, ?_, ?_, children _, noLoop _, owes _⟩
    · rw [span]; rfl
    · rw [span, finish]; exact Nat.max_eq_left behind

/-- A stalled rule drops the token that it stands at, and its node is behind what has been read. -/
theorem Stalls.advance (stalls : Stalls s t n) (goesOn : s.kind ≠ .endOfStream)
    (inside : s.kind ≠ .lineTerminator) :
    Stretch s.here s t.advance [n] [] ∧ t.advance.remaining < s.remaining := by
  have ⟨so, still, dirty, start, finish, children, noLoop, owes⟩ := stalls
  obtain ⟨current, -⟩ := List.cons.inj (so.later.still still)
  have kind : t.kind = s.kind := by rw [ParseState.kind, ParseState.kind, current]
  have here : t.here = s.here := by rw [ParseState.here, ParseState.here, current]
  obtain ⟨reached, -, fewer⟩ := ParseState.limit_advance so.wf (kind ▸ goesOn)
  have dirty : t.advance.diagnostics ≠ [] := t.diagnostics_advance ▸ dirty
  refine ⟨(so.advance (fun _ => stalls.dirty) (kind ▸ inside)).close ?_ ?_ ?_ (by simp) children
    (fun none => absurd none dirty) owes noLoop (by simp) fun none => absurd none dirty, ?_⟩
  · omega
  · omega
  · omega
  · omega

/-- A rule that is run so that it moves on, within a line. -/
theorem Ensures.moving {p : Parse α} {node : α → Node} (goesOn : s.kind ≠ .endOfStream)
    (inside : s.kind ≠ .lineTerminator) (tries : Ensures p s fun a t => Attempt s t (node a)) :
    Ensures (Parse.moving p) s fun a t =>
      Stretch s.here s t [node a] [] ∧ t.remaining < s.remaining := by
  refine .get (tries.bind fun a t attempt => .get ?_)
  split
  next still =>
    rcases attempt with ⟨so, guarded⟩ | stalls
    · obtain ⟨current, -⟩ := List.cons.inj (so.later.still still)
      have kind : t.kind = s.kind := by rw [ParseState.kind, ParseState.kind, current]
      have fewer := (ParseState.limit_advance so.wf (kind ▸ goesOn)).2.2
      exact ⟨so.advance (kind ▸ guarded) (kind ▸ inside), Nat.lt_of_lt_of_eq fewer still⟩
    · exact stalls.advance goesOn inside
  next moved =>
    rcases attempt with ⟨so, -⟩ | stalls
    · exact ⟨so, Nat.lt_of_le_of_ne so.later.remaining moved⟩
    · exact absurd stalls.still moved

theorem Ensures.moving_result {p : Parse α} {P : α → Prop} (gives : Ensures p s fun a _ => P a) :
    Ensures (Parse.moving p) s fun a _ => P a := by
  refine .get (gives.bind fun a t holds => .get ?_)
  split <;> exact holds

/-- What it gives without a diagnostic is what the rule itself gives without one. -/
theorem Ensures.moving_clean {p : Parse α} {P : α → Prop}
    (gives : Ensures p s fun a t => t.diagnostics = [] → P a) :
    Ensures (Parse.moving p) s fun a t => t.diagnostics = [] → P a := by
  refine .get (gives.bind fun a t holds => .get ?_)
  split
  · exact fun none => holds (t.diagnostics_advance ▸ none)
  · exact holds

end VisualBasic
