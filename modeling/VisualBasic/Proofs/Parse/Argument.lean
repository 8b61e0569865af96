import VisualBasic.Parse.Argument
import VisualBasic.Proofs.Parse.Attempt
import VisualBasic.Proofs.Parse.Type

/-!
The arguments of calls.
-/

set_option autoImplicit false

namespace VisualBasic.Parse

variable {r : Rules} {s : ParseState}

/-- Behind a named argument, one that is not named has been reported. -/
theorem argument_ensures (sound : r.Sound) (named : Bool) (wf : s.Wf) :
    Ensures (argument r named) s fun a t => Stretch s.here s t [.argument a.1] [] ∧
      (t.diagnostics = [] →
        (named = true → a.1.isNamed = true) ∧ a.2 = (named || a.1.isNamed)) := by
  refine .get ?_
  extract_lets token leaveOut give
  have omitted (t : ParseState) (so : Stretch s.here s t [] [])
      (silent : t.diagnostics = [] → named = false) :
      Ensures (leaveOut ()) t fun a u => Stretch s.here s u [.argument a.1] [] ∧
        (u.diagnostics = [] →
          (named = true → a.1.isNamed = true) ∧ a.2 = (named || a.1.isNamed)) := by
    refine (so.missing (fun place => .argument ⟨none, none, none, .point place⟩) (fun _ => rfl)
      rfl).bind fun _ u facts => ⟨facts.1, fun none => ?_⟩
    rw [silent (facts.2 ▸ none)]
    exact ⟨by simp, rfl⟩
  have given (t : ParseState) (so : Stretch s.here s t [] [])
      (silent : t.diagnostics = [] → named = false) :
      Ensures (give ()) t fun a u => Stretch s.here s u [.argument a.1] [] ∧
        (u.diagnostics = [] →
          (named = true → a.1.isNamed = true) ∧ a.2 = (named || a.1.isNamed)) := by
    refine (value_yields sound so.wf).bind fun _ u more => ⟨?_, fun none => ?_⟩
    · exact (so.append more).around rfl rfl rfl
    · rw [silent (more.later.clean none)]
      exact ⟨by simp, rfl⟩
  split
  next =>
    split
    · exact ((Stretch.refl wf).reportUnexpected rfl).bind fun _ t facts =>
        omitted t facts.1 fun none => absurd none facts.2.1
    next unnamed => exact omitted s (.refl wf) fun _ => eq_false_of_ne_true unnamed
  next =>
    split
    next spelled =>
      simp only [Bool.and_eq_true, beq_iff_eq] at spelled
      have so := named_token (.refl wf) spelled.1
      have solid := isSolid_of_name? spelled.1
      have mark : s.advance.kind.isSolid = true := by
        rw [ParseState.kind_advance wf solid, spelled.2]
        rfl
      refine (Stretch.refl wf).skip solid fun _ => so.read mark fun so => ?_
      refine (so.part (value_yields sound so.wf)).bind fun value u so => ?_
      refine (so.finish (so.reached List.mem_cons_self) rfl rfl).and fun _ => ?_
      exact ⟨fun _ => rfl, (Bool.or_true named).symm⟩
    next =>
      split
      · exact ((Stretch.refl wf).report _ rfl fun _ => wf.stream.order).bind
          fun _ t facts => given t facts.1 fun none => absurd none facts.2.1
      next unnamed => exact given s (.refl wf) fun _ => eq_false_of_ne_true unnamed

theorem argument_yields (sound : r.Sound) (named : Bool) (wf : s.Wf) :
    Yields (argument r named) s fun a => [.argument a.1] :=
  (argument_ensures sound named wf).mono fun _ _ facts => facts.1

theorem separatedArguments_yields (sound : r.Sound) (wf : s.Wf) :
    Yields (separatedArguments r) s fun a => a.items.map .argument := by
  refine .get ?_
  refine (separatedFrom_yields (fun a => [.argument a]) (fun named t wf => ?_) _ _ wf).mono
    fun a t so => ?_
  · exact (argument_yields sound named wf).bind fun _ _ so => so
  · simp only [flatMap_node] at so
    exact so

/-- What holds of items that are read one behind the other without a diagnostic, given what one item
says to the next. -/
theorem separatedFrom_clean {α σ : Type} {item : σ → Parse (α × Option σ)}
    (nodes : α → List Node) {P : σ → α × Option σ → Prop} {Q : σ → List α → Prop}
    (each : ∀ state s, s.Wf → Ensures (item state) s fun a t =>
      Stretch s.here s t (nodes a.1) [] ∧ (t.diagnostics = [] → P state a))
    (last : ∀ state a, P state a → Q state [a.1])
    (cons : ∀ state a next rest, P state (a, some next) → Q next rest → Q state (a :: rest))
    (n : Nat) (state : σ) (wf : s.Wf) :
    Ensures (separatedFrom item n state) s fun a t => t.diagnostics = [] → Q state a.items := by
  induction n generalizing s state with
  | zero => exact (each state s wf).bind fun first t facts none => last state first (facts.2 none)
  | succ n ih =>
    refine (each state s wf).bind fun first t facts => ?_
    obtain ⟨so, holds⟩ := facts
    obtain ⟨first, goesOn⟩ := first
    have only (none : t.diagnostics = []) : Q state [first] := last state _ (holds none)
    cases goesOn with
    | none => exact only
    | some next =>
      refine (so.eatPlace rfl).bind fun comma u facts => ?_
      obtain ⟨passed, cases⟩ := facts
      cases comma with
      | none =>
        obtain ⟨-, rfl, -⟩ | ⟨absurd, -⟩ := cases
        · exact only
        · simp at absurd
      | some comma =>
        have yields := separatedFrom_yields nodes
          (fun state s wf => (each state s wf).mono fun _ _ facts => facts.1) n next passed.wf
        refine (yields.and (ih next passed.wf)).bind fun rest v facts none => ?_
        have clean : t.diagnostics = [] := by
          obtain ⟨absurd, -⟩ | ⟨-, rfl, -⟩ := cases
          · simp at absurd
          · exact t.diagnostics_advance ▸ facts.1.later.clean none
        exact cons state first next rest.items (holds clean) (facts.2 none)

/-- What can be said of arguments behind others, given whether one of those is named. -/
def NamesLast (named : Bool) (items : List (Argument Expression)) : Prop :=
  (named = true → ∀ a ∈ items, a.isNamed = true) ∧
    items.Pairwise fun a b => a.isNamed = true → b.isNamed = true

theorem NamesLast.cons {named : Bool} {a : Argument Expression} {rest : List (Argument Expression)}
    (first : named = true → a.isNamed = true) (behind : NamesLast (named || a.isNamed) rest) :
    NamesLast named (a :: rest) := by
  obtain ⟨all, pairs⟩ := behind
  refine ⟨fun isNamed => List.forall_mem_cons.2 ⟨first isNamed, all (by simp [isNamed])⟩,
    List.pairwise_cons.2 ⟨fun b member isNamed => all (by simp [isNamed]) b member, pairs⟩⟩

theorem separatedArguments_names (sound : r.Sound) (wf : s.Wf) :
    Ensures (separatedArguments r) s fun a t =>
      t.diagnostics = [] → NamesLast false a.items := by
  refine .get (separatedFrom_clean (fun a => [.argument a])
    (P := fun named a => (named = true → a.1.isNamed = true) ∧ a.2 = some (named || a.1.isNamed))
    (fun named s wf => ?_) (fun named a facts => .cons facts.1 ⟨by simp, .nil⟩)
    (fun named a next rest facts behind => ?_) _ _ wf)
  · exact (argument_ensures sound named wf).bind fun _ _ facts =>
      ⟨facts.1, fun none => ⟨(facts.2 none).1, congrArg some (facts.2 none).2⟩⟩
  · exact .cons facts.1 (Option.some.inj facts.2 ▸ behind)

/-- The span of an argument list is all that has been read. -/
theorem argumentList_yields (sound : r.Sound) (wf : s.Wf) (solid : s.kind.isSolid = true) :
    Ensures (argumentList r) s fun a t => Stretch s.here s t (a.arguments.items.map .argument) [] ∧
      a.span = t.spanSince s.current.span.start ∧ (t.diagnostics = [] → a.namesAreLast = true) := by
  refine (Stretch.refl wf).read solid fun so => .check ?_
  extract_lets close
  have closes (arguments : CommaList (Argument Expression)) (u : ParseState)
      (so : Stretch s.here s u (arguments.items.map .argument) [])
      (names : u.diagnostics = [] → NamesLast false arguments.items) :
      Ensures (close arguments) u fun a t =>
        Stretch s.here s t (a.arguments.items.map .argument) [] ∧
          a.span = t.spanSince s.current.span.start ∧
          (t.diagnostics = [] → a.namesAreLast = true) := by
    refine ((so.expectPlace rfl rfl).and ((Stretch.refl so.wf).expectPlace rfl rfl)).bind
      fun place v facts => ?_
    obtain ⟨⟨so, found⟩, more, -⟩ := facts
    cases place with
    | some place =>
      exact ⟨so, rfl, fun none => decide_eq_true (names (more.later.clean none)).2⟩
    | none =>
      have dirty : v.diagnostics ≠ [] := fun none => by simp at found; exact found none
      refine (so.discard _ dirty).bind fun _ w facts => ?_
      obtain ⟨so, dirty⟩ := facts
      refine ((so.eatPlace rfl).and ((Stretch.refl so.wf).eatPlace rfl)).bind fun _ x facts => ?_
      exact ⟨facts.1.1, rfl, fun none => absurd (facts.2.1.later.clean none) dirty⟩
  split
  · exact closes _ _ so fun _ => ⟨by simp, .nil⟩
  · exact ((so.part (separatedArguments_yields sound so.wf)).and
      (separatedArguments_names sound so.wf)).bind fun _ _ facts => closes _ _ facts.1 facts.2

/-- Arguments can be left out together with their parentheses. -/
theorem optionalArguments_ensures {lo : Nat} {o : ParseState} {ns : List Node} (sound : r.Sound)
    (allowed : Bool) (so : Stretch lo o s ns []) :
    Ensures (optionally (allowed && s.kind == .mark .leftParenthesis) (argumentList r)) s
      fun a t => Stretch lo o t (ns ++ Node.ofArguments a) [] ∧
        (t.diagnostics = [] → a.all ArgumentList.namesAreLast = true) := by
  unfold optionally
  split
  next starts =>
    have solid : s.kind.isSolid = true := by
      rw [beq_iff_eq.1 (Bool.and_eq_true_iff.1 starts).2]
      rfl
    refine (argumentList_yields sound so.wf solid).bind fun a t facts => .pure ⟨?_, facts.2.2⟩
    exact so.append facts.1
  next => exact .pure ⟨(List.append_nil ns).symm ▸ so, fun _ => rfl⟩

theorem bareArguments_yields (sound : r.Sound) (wf : s.Wf) :
    Yields (bareArguments r) s fun a => Node.ofArguments (some a) := by
  refine .here (.atStatementEnd ?_)
  split
  · exact Stretch.refl wf
  · exact (separatedArguments_yields sound wf).bind fun _ _ so => so

theorem bareArguments_names (sound : r.Sound) (wf : s.Wf) :
    Ensures (bareArguments r) s fun a t => t.diagnostics = [] → a.namesAreLast = true := by
  refine .here (.atStatementEnd ?_)
  split
  · exact fun _ => rfl
  · exact (separatedArguments_names sound wf).bind
      fun _ _ names none => decide_eq_true (names none).2

/-- The first argument has been read already. -/
theorem bareArgumentsFrom_yields {lo : Nat} {o : ParseState} (sound : r.Sound)
    {first : Argument Expression} (ns : List Node) (so : Stretch lo o s (ns ++ [.argument first]) []) :
    Ensures (bareArgumentsFrom r first) s fun a t =>
      Stretch lo o t (ns ++ Node.ofArguments (some a)) [] := by
  refine (so.eatPlace rfl).bind fun comma t ⟨so, _⟩ => ?_
  cases comma with
  | none => exact so
  | some comma =>
    refine (so.part (separatedArguments_yields sound so.wf)).bind fun rest u so => ?_
    rw [List.append_assoc] at so
    exact so

theorem bareArgumentsFrom_names (sound : r.Sound) {first : Argument Expression}
    (unnamed : first.isNamed = false) (wf : s.Wf) :
    Ensures (bareArgumentsFrom r first) s fun a t =>
      t.diagnostics = [] → a.namesAreLast = true := by
  have behind {rest : List (Argument Expression)} (names : NamesLast false rest) :
      NamesLast false (first :: rest) := .cons (by simp) (by simpa [unnamed] using names)
  refine ((Stretch.refl wf).eatPlace rfl).bind fun comma t facts => ?_
  cases comma with
  | none => exact fun _ => decide_eq_true (behind ⟨by simp, .nil⟩).2
  | some comma =>
    exact (separatedArguments_names sound facts.1.wf).bind
      fun _ _ names none => decide_eq_true (behind (names none)).2

end VisualBasic.Parse
