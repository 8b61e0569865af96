import VisualBasic.Parse.Lookahead
import VisualBasic.Parse.Name
import VisualBasic.Parse.Sequence
import VisualBasic.Proofs.Parse.Rule

/-!
Names, labels and items with commas between them.
-/

set_option autoImplicit false

namespace VisualBasic.Parse

variable {s : ParseState}

theorem missingName_yields (wf : s.Wf) : Yields missingName s fun n => [.simpleName n] := by
  refine ((Stretch.refl wf).reportUnexpected rfl).bind fun _ t ⟨so, dirty, _⟩ => ?_
  refine (so.missing (fun place => .simpleName (.missing place))
    (fun none => absurd none dirty) rfl).bind fun place u ⟨so, _⟩ => ?_
  exact so

/-- A name token is a name that is not missing. -/
theorem ofToken_whole (wf : s.Wf) (named : s.current.name?.isSome = true) :
    (SimpleName.ofToken s.current).span = s.current.span ∧
      (Node.simpleName (.ofToken s.current)).isProper = true := by
  obtain ⟨name, spells⟩ := Option.isSome_iff_exists.1 named
  have text := wf.stream.isNamed name spells
  refine ⟨by simp [SimpleName.ofToken, spells], Node.isProper_of_isWhole rfl ?_⟩
  simp [SimpleName.ofToken, spells, Node.isWhole, Node.isBad, SimpleName.isMissing, text]

theorem isSolid_of_name? {k : Token} (named : k.name?.isSome = true) : k.kind.isSolid = true := by
  unfold Token.name? at named
  unfold Token.kind
  split at named <;> simp_all [Lexeme.kind, TokenKind.isSolid]

theorem name?_of_kind {k : Token} (kind : k.kind = .identifier ∨ ∃ w, k.kind = .word w) :
    k.name?.isSome = true := by
  unfold Token.kind at kind
  unfold Token.name?
  cases lexeme : k.lexeme with
  | identifier | keyword => rfl
  | literal value =>
    rw [lexeme] at kind
    simp only [Lexeme.kind, Literal.tokenKind] at kind
    split at kind <;> simp at kind
  | _ => simp [lexeme, Lexeme.kind] at kind

/-- Passing a name token. -/
theorem named_token {lo : Nat} {o : ParseState} {ns : List Node} {owed : List (BlockKind × Nat)}
    (so : Stretch lo o s ns owed) (named : s.current.name?.isSome = true) :
    Stretch lo o s.advance (ns ++ [.simpleName (.ofToken s.current)]) owed := by
  obtain ⟨span, whole⟩ := ofToken_whole so.wf named
  exact so.token (isSolid_of_name? named) span rfl (fun _ => whole) rfl

theorem identifier_yields (wf : s.Wf) : Yields identifier s fun n => [.simpleName n] := by
  refine .peek ?_
  split
  next kind => exact named_token (.refl wf) (name?_of_kind (.inl kind))
  next word kind =>
    refine ((Stretch.refl wf).report _ rfl fun _ => wf.stream.order).bind
      fun _ t ⟨so, dirty, ahead⟩ => ?_
    obtain ⟨current, -⟩ := List.cons.inj ahead
    rw [← current] at kind ⊢
    exact named_token so (name?_of_kind (.inr ⟨word, kind⟩))
  next => exact missingName_yields wf

theorem memberName_yields (wf : s.Wf) : Yields memberName s fun n => [.simpleName n] := by
  refine .peek ?_
  split
  next named => exact named_token (.refl wf) named
  next => exact missingName_yields wf

/-- A name with a part behind it is a name. -/
theorem qualified_name {lo : Nat} {o t : ParseState} {name : Name} {part : SimpleName}
    (so : Stretch lo o s [.ofName name] []) (more : Stretch s.here s t [.simpleName part] [])
    (dot : Location) :
    Stretch lo o t [.ofName (.qualified name dot part (name.span.upTo part.span))] [] := by
  have named := so.fits _ (List.mem_singleton.2 rfl)
  have parted := more.fits _ (List.mem_singleton.2 rfl)
  have behind := so.wf.behind
  have order := named.order
  have ordered := parted.order
  have start := named.start
  have finish := named.finish
  have nextStart := parted.start
  have nextFinish := parted.finish
  rw [Node.span_ofName] at order start finish
  simp only [Node.span] at ordered nextStart nextFinish
  refine (so.append more).close ?_ ?_ ?_ (fun c member => ?_) rfl (fun _ => rfl) rfl rfl
    (fun _ _ => rfl) fun _ => Node.orderly_of_flat rfl _
  · exact start
  · show name.span.start.index ≤ part.span.finish.index
    omega
  · exact nextFinish
  · show name.span.start.index ≤ c.span.start.index ∧ c.span.finish.index ≤ part.span.finish.index
    rcases List.mem_cons.1 member with rfl | last
    · rw [Node.span_ofName]
      omega
    · rw [List.mem_singleton.1 last]
      show name.span.start.index ≤ part.span.start.index ∧ _
      exact ⟨by omega, Nat.le_refl _⟩

/-- A name grows to the right, part by part. -/
theorem nameParts_yields {lo : Nat} {o : ParseState} (n : Nat) {name : Name}
    (so : Stretch lo o s [.ofName name] []) :
    Ensures (nameParts n name) s fun a t => Stretch lo o t [.ofName a] [] := by
  induction n generalizing s name with
  | zero => exact so
  | succ n ih =>
    refine (so.eatPlace rfl).bind fun dot t ⟨so, _⟩ => ?_
    cases dot with
    | none => exact so
    | some dot =>
      refine (memberName_yields so.wf).bind fun part u more => ?_
      have qualified := qualified_name so more dot
      extract_lets grown
      split
      · exact qualified
      · exact ih qualified

theorem name_yields (wf : s.Wf) : Yields name s fun n => [.ofName n] := by
  refine .peek ?_
  split
  next kind =>
    have first := named_token (.refl wf) (name?_of_kind (.inl kind))
    exact nameParts_yields _ first
  next kind =>
    have solid : s.kind.isSolid = true := by rw [ParseState.kind, kind]; rfl
    have first : Stretch s.here s s.advance [.ofName (.globalNamespace s.current.span)] [] :=
      (Stretch.refl wf).token solid rfl rfl (fun _ => rfl) rfl
    refine (Stretch.refl wf).skip solid fun _ => .check ?_
    extract_lets rest
    split
    · exact nameParts_yields _ first
    · refine (first.reportUnexpected rfl).bind fun _ t facts => ?_
      exact nameParts_yields _ facts.1
  next => exact (missingName_yields wf).bind fun _ _ so => so

theorem stringLiteral_yields (wf : s.Wf) : Yields stringLiteral s fun _ => [] := by
  refine .peek ?_
  split
  next text lexeme =>
    refine (Stretch.refl wf).pass ?_
    simp [ParseState.kind, Token.kind, lexeme, Lexeme.kind, Literal.tokenKind, TokenKind.isSolid]
  next => exact ((Stretch.refl wf).reportUnexpected rfl).bind fun _ _ facts => facts.1

theorem isSolid_of_integerOf? {k : Token} {value : Int} (number : integerOf? k = some value) :
    k.kind.isSolid = true := by
  unfold integerOf? at number
  split at number
  next lexeme => simp [Token.kind, lexeme, Lexeme.kind, Literal.tokenKind, TokenKind.isSolid]
  next => simp at number

theorem label_yields (wf : s.Wf) : Yields label s Node.ofLabel := by
  refine .peek ?_
  split
  next kind => exact named_token (.refl wf) (name?_of_kind (.inl kind))
  next value _ number _ => exact (Stretch.refl wf).pass (isSolid_of_integerOf? number)
  next =>
    refine ((Stretch.refl wf).reportUnexpected rfl).bind fun _ t ⟨so, dirty, _⟩ => ?_
    exact (so.missing (fun place => .simpleName (.missing place))
      (fun none => absurd none dirty) rfl).bind fun _ _ facts => facts.1

-- Items with commas between them

theorem separatedFrom_yields {α σ : Type} {item : σ → Parse (α × Option σ)} (nodes : α → List Node)
    (each : ∀ state s, s.Wf → Yields (item state) s fun a => nodes a.1) (n : Nat) (state : σ)
    (wf : s.Wf) : Yields (separatedFrom item n state) s fun a => a.items.flatMap nodes := by
  induction n generalizing s state with
  | zero =>
    refine (each state s wf).bind fun first t so => .pure ?_
    simpa [Separated.items] using so
  | succ n ih =>
    refine (each state s wf).bind fun first t so => ?_
    obtain ⟨first, goesOn⟩ := first
    have only : Stretch s.here s t ((⟨first, []⟩ : Separated α).items.flatMap nodes) [] := by
      simpa [Separated.items] using so
    cases goesOn with
    | none => exact only
    | some state =>
      refine (so.eatPlace rfl).bind fun comma u facts => ?_
      obtain ⟨so, cases⟩ := facts
      cases comma with
      | none =>
        obtain ⟨-, rfl, -⟩ | ⟨absurd, -⟩ := cases
        · exact only
        · simp at absurd
      | some comma =>
        refine (so.part (ih state so.wf)).bind fun rest v so => .pure ?_
        simpa [Separated.items, Separated.cons] using so

theorem separated_yields {α : Type} {item : Parse α} {nodes : α → List Node}
    (each : ∀ s, s.Wf → Yields item s nodes) (wf : s.Wf) :
    Yields (separated item) s fun a => a.items.flatMap nodes := by
  refine .get (separatedFrom_yields nodes (fun _ s wf => ?_) _ () wf)
  exact (each s wf).bind fun _ _ so => so

theorem flatMap_node {α : Type} (node : α → Node) (items : List α) :
    items.flatMap (fun a => [node a]) = items.map node := by
  induction items with
  | nil => rfl
  | cons a rest ih => simp [ih]

theorem commaList_yields {α : Type} {item : Parse α} (node : α → Node) (span : α → Span)
    (each : ∀ s, s.Wf → Yields item s fun a => [node a]) (wf : s.Wf) :
    Yields (commaList span item) s fun a => a.items.map node := by
  refine (separated_yields each wf).bind fun found t so => .pure ?_
  simp only [flatMap_node] at so
  exact so

/-- There is an item before every comma and behind the last. -/
theorem commaList_nonempty {α : Type} {item : Parse α} (span : α → Span) (s : ParseState) :
    Ensures (commaList span item) s fun a _ => a.items ≠ [] :=
  List.cons_ne_nil _ _

end VisualBasic.Parse
