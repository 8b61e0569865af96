import VisualBasic.Proofs.Comma.Rule
import VisualBasic.Proofs.Parse.Name

/-!
Names, labels and items with commas between them.
-/

set_option autoImplicit false

namespace VisualBasic

/-- Each comma stands behind the nodes of the item before it and before those of the item behind
it. -/
def Separated.Threads {α : Type} (nodes : α → List Node) : α → List (Location × α) → Prop
  | _, [] => True
  | first, (comma, next) :: rest =>
    (∀ n ∈ nodes first, n.span.finish.index ≤ comma.index) ∧
      (∀ n ∈ nodes next, comma.index < n.span.start.index) ∧ Threads nodes next rest

namespace Separated

variable {α : Type}

theorem Threads.between {nodes : α → List Node} {a : Separated α}
    (threads : Threads nodes a.first a.rest) {i : Nat} {x y : α} {comma : Location}
    (before : a.items[i]? = some x) (there : a.separators[i]? = some comma)
    (behind : a.items[i + 1]? = some y) : (∀ n ∈ nodes x, n.span.finish.index ≤ comma.index) ∧
      ∀ n ∈ nodes y, comma.index < n.span.start.index := by
  obtain ⟨first, rest⟩ := a
  unfold items at before behind
  unfold separators at there
  induction rest generalizing first i with
  | nil => simp at there
  | cons next rest ih =>
    obtain ⟨place, item⟩ := next
    obtain ⟨early, late, threads⟩ := threads
    cases i with
    | zero =>
      simp only [List.map_cons, List.getElem?_cons_zero, List.getElem?_cons_succ,
        Option.some.injEq] at before there behind
      subst before there behind
      exact ⟨early, late⟩
    | succ i => exact ih item threads before there behind

/-- The commas of items that are nodes. -/
def punctuation (span : α → Span) (a : Separated α) : Punctuation :=
  ⟨a.items.map span, a.separators, none⟩

theorem Threads.holds {node : α → Node} {span : α → Span} {a : Separated α}
    (same : ∀ a, (node a).span = span a)
    (threads : Threads (fun a => [node a]) a.first a.rest) (clean : Prop) :
    (a.punctuation span).Holds clean := by
  refine ⟨?_, fun _ i x comma y before there behind => ?_, by simp [punctuation],
    by simp [punctuation]⟩
  · show a.separators.length = (a.items.map span).length - 1
    rw [List.length_map, ← a.length_separators, Nat.add_sub_cancel]
  · simp only [punctuation, List.getElem?_map, Option.map_eq_some_iff] at before behind
    obtain ⟨first, before, rfl⟩ := before
    obtain ⟨next, behind, rfl⟩ := behind
    have := threads.between before there behind
    simpa [same] using this

end Separated

namespace Parse

variable {α σ : Type} {s t : ParseState}

theorem missingName_writes : Writes missingName (fun n => [.simpleName n]) fun _ => [] := by
  intro s sane
  refine ((Writ.refl sane).pass (.reportUnexpected _)).bind fun _ t so => ?_
  exact (so.missing (fun place => .simpleName (.missing place)) rfl).bind fun _ _ so => so

theorem identifier_writes : Writes identifier (fun n => [.simpleName n]) fun _ => [] := by
  intro s sane
  refine .peek ?_
  split
  next => exact (Writ.refl sane).name
  next =>
    have reported := (Writ.refl sane).onto (sane.report .invalidUseOfKeyword s.current.span).1
    have same : (s.report .invalidUseOfKeyword s.current.span).current = s.current :=
      (List.cons.inj (s.ahead_report _ _)).1
    have named := reported.name
    rw [same] at named
    exact named
  next => exact missingName_writes s sane

theorem memberName_writes : Writes memberName (fun n => [.simpleName n]) fun _ => [] := by
  intro s sane
  refine .peek ?_
  split
  · exact (Writ.refl sane).name
  · exact missingName_writes s sane

/-- A name with a part behind it is a name. -/
theorem qualified_writ {o : ParseState} {name : Name} {part : SimpleName}
    (so : Writ o s [.ofName name] []) (more : Writ s t [.simpleName part] []) (dot : Location) :
    Writ o t [.ofName (.qualified name dot part (name.span.upTo part.span))] [] := by
  have named := so.spans (.ofName name) List.mem_cons_self (Node.isPhrase_ofName name)
  have parted := more.spans (.simpleName part) List.mem_cons_self rfl
  rw [Node.span_ofName] at named
  have ordered := Nat.le_trans named.order (Nat.le_trans named.finish parted.start)
  exact (so.append more).node
    (fun _ => ⟨named.start, Nat.le_trans ordered parted.order, parted.finish⟩) rfl rfl

/-- A name grows to the right, part by part. -/
theorem nameParts_writes {o : ParseState} (n : Nat) {name : Name} (so : Writ o s [.ofName name] []) :
    Ensures (nameParts n name) s fun a t => Writ o t [.ofName a] [] := by
  induction n generalizing s name with
  | zero => exact so
  | succ n ih =>
    refine (so.pass (.eatPlace _)).bind fun dot t so => ?_
    cases dot with
    | none => exact so
    | some dot =>
      refine (memberName_writes t so.sane).bind fun part u more => ?_
      have qualified := qualified_writ so more dot
      extract_lets grown
      split
      · exact qualified
      · exact ih qualified

theorem name_writes : Writes name (fun n => [.ofName n]) fun _ => [] := by
  intro s sane
  refine .peek ?_
  split
  next =>
    have first : Writ s s.advance [.ofName (.simple (.ofToken s.current))] [] := (Writ.refl sane).name
    exact nameParts_writes _ first
  next =>
    have first : Writ s s.advance [.ofName (.globalNamespace s.current.span)] [] :=
      (Writ.refl sane).token rfl rfl
    refine .skip (.check ?_)
    extract_lets rest
    split
    · exact nameParts_writes _ first
    · exact (first.pass (.reportUnexpected _)).bind fun _ t so => nameParts_writes _ so
  next => exact (missingName_writes s sane).bind fun _ _ so => so

theorem stringLiteral_proceeds : Proceeds stringLiteral := by
  refine .bind .peek fun token => ?_
  split
  · exact .bind .skip fun _ => .pure
  · exact .bind (.reportUnexpected _) fun _ => .pure

theorem label_writes : Writes label Node.ofLabel fun _ => [] := by
  intro s sane
  refine .peek ?_
  split
  next => exact (Writ.refl sane).name
  next => exact (Writ.refl sane).onto sane.advance
  next =>
    refine ((Writ.refl sane).pass (.reportUnexpected _)).bind fun _ t so => ?_
    exact (so.missing (fun place => .simpleName (.missing place)) rfl).bind fun _ _ so => so

-- Items with commas between them

/-- An item before a comma that stands here, and items behind it. -/
theorem Threads.cons {nodes : α → List Node} {first : α} {rest : Separated α}
    (phrases : ∀ a, ∀ n ∈ nodes a, n.isPhrase = true) (sane : s.Sane)
    (before : ∀ n ∈ nodes first, n.span.finish.index ≤ s.here) (comma : s.kind = .mark .comma)
    (more : Writ s.advance t (rest.items.flatMap nodes) [])
    (threads : Separated.Threads nodes rest.first rest.rest) :
    Separated.Threads nodes first ((s.current.span.start, rest.first) :: rest.rest) := by
  refine ⟨before, fun n member => ?_, threads⟩
  have passed := sane.passed.2 (by rw [comma]; simp)
  have lies := more.spans n (List.mem_flatMap.2 ⟨rest.first, List.mem_cons_self, member⟩)
    (phrases rest.first n member)
  exact Nat.lt_of_lt_of_le passed lies.start

theorem separatedFrom_threads {item : σ → Parse (α × Option σ)} {nodes : α → List Node}
    (phrases : ∀ a, ∀ n ∈ nodes a, n.isPhrase = true)
    (each : ∀ state, Writes (item state) (fun a => nodes a.1) fun _ => []) (n : Nat) (state : σ)
    (sane : s.Sane) :
    Ensures (separatedFrom item n state) s fun a t => Writ s t (a.items.flatMap nodes) [] ∧
      Separated.Threads nodes a.first a.rest := by
  induction n generalizing s state with
  | zero =>
    refine (each state s sane).bind fun first t so => .pure ⟨?_, trivial⟩
    simpa [Separated.items] using so
  | succ n ih =>
    refine (each state s sane).bind fun first t so => ?_
    obtain ⟨first, goesOn⟩ := first
    have only : Writ s t ((⟨first, []⟩ : Separated α).items.flatMap nodes) [] := by
      simpa [Separated.items] using so
    cases goesOn with
    | none => exact ⟨only, trivial⟩
    | some state =>
      refine .eatPlace (fun comma => ?_) fun _ => ⟨only, trivial⟩
      refine (ih state so.sane.advance.sane).bind fun rest u facts => .pure ?_
      obtain ⟨more, threads⟩ := facts
      constructor
      · have passed := so.onto so.sane.advance
        simpa [Separated.items, Separated.cons] using passed.append more
      · have before (n : Node) (member : n ∈ nodes first) : n.span.finish.index ≤ t.here :=
          (so.spans n member (phrases first n member)).finish
        exact Threads.cons phrases so.sane before comma more threads

theorem separated_threads {item : Parse α} {nodes : α → List Node}
    (phrases : ∀ a, ∀ n ∈ nodes a, n.isPhrase = true) (each : Writes item nodes fun _ => [])
    (sane : s.Sane) :
    Ensures (separated item) s fun a t => Writ s t (a.items.flatMap nodes) [] ∧
      Separated.Threads nodes a.first a.rest :=
  .get (separatedFrom_threads phrases
    (fun _ s sane => (each s sane).bind fun _ _ so => .pure so) _ () sane)

section

variable {node : α → Node} {span : α → Span}
  (shape : ∀ a, (node a).span = span a ∧ (node a).isPhrase = true)

include shape

theorem separatedFrom_writes {item : σ → Parse (α × Option σ)}
    (each : ∀ state, Writes (item state) (fun a => [node a.1]) fun _ => []) (n : Nat) (state : σ) :
    Writes (separatedFrom item n state) (fun a => a.items.map node) fun a => [a.punctuation span] := by
  intro s sane
  have phrases (a : α) : ∀ n ∈ [node a], n.isPhrase = true :=
    List.forall_mem_singleton.2 (shape a).2
  refine (separatedFrom_threads phrases each n state sane).mono fun a t facts => ?_
  obtain ⟨so, threads⟩ := facts
  rw [flatMap_node] at so
  exact so.listed (threads.holds (fun a => (shape a).1) _)

theorem separated_writes {item : Parse α} (each : Writes item (fun a => [node a]) fun _ => []) :
    Writes (separated item) (fun a => a.items.map node) fun a => [a.punctuation span] :=
  fun s sane => .get (separatedFrom_writes shape
    (fun _ s sane => (each s sane).bind fun _ _ so => .pure so) _ () s sane)

theorem commaList_writes {item : Parse α} (each : Writes item (fun a => [node a]) fun _ => []) :
    Writes (commaList span item) (fun a => a.items.map node) fun a => [.ofList span a] :=
  fun s sane => (separated_writes shape each s sane).bind fun _ _ so => .pure so

end

end Parse

end VisualBasic
