import VisualBasic.Parse.Type
import VisualBasic.Proofs.Comma.Sequence
import VisualBasic.Proofs.Parse.Type

/-!
Type names, type arguments and parameters, and the bounds of arrays.
-/

set_option autoImplicit false

namespace VisualBasic

/-- The rules for nested phrases write the nodes of what they give. -/
structure Rules.Punctuates (r : Rules) : Prop where
  expression : ∀ pending, Writes (r.expression pending) (fun e => [.expression e]) fun _ => []
  operand : Writes r.operand (fun e => [.expression e]) fun _ => []
  typeName : Writes r.typeName (fun t => [.typeName t]) fun _ => []
  elements : Writes r.elements (fun a => [.aggregate a]) fun _ => []

namespace Parse

variable {r : Rules} {s t : ParseState}

theorem value_writes (rules : r.Punctuates) : Writes r.value (fun e => [.expression e]) fun _ => [] :=
  rules.expression _

theorem badType_writes (problem : Problem) :
    Writes (badType problem) (fun t => [.typeName t]) fun _ => [] := by
  intro s sane
  refine ((Writ.refl sane).pass (.reportUnexpected _)).bind fun _ t so => ?_
  exact (so.missing (fun place => .typeName (.bad (.point place))) rfl).bind fun _ _ so => so

theorem genericList_writes {α : Type} {node : α → Node} {span : α → Span} {item : Parse α}
    (shape : ∀ a, (node a).span = span a ∧ (node a).isPhrase = true)
    (each : Writes item (fun a => [node a]) fun _ => []) :
    Writes (genericList span item) (fun a => a.2.2.1.items.map node)
      fun a => [.ofList span a.2.2.1] := by
  intro s sane
  have so := ((Writ.refl sane).onto sane.advance).onto sane.advance.sane.advance
  refine .read (.read ((so.part (separated_writes shape each)).bind fun items t so => .spanFrom ?_))
  exact (so.pass .closeParenthesis).bind fun _ _ so => .pure so

theorem typeArguments_writes (rules : r.Punctuates) :
    Writes (typeArguments r) (fun a => a.arguments.items.map .typeName)
      fun a => Punctuation.ofTypeArguments (some a) :=
  fun s sane => (genericList_writes (fun _ => ⟨rfl, rfl⟩) rules.typeName s sane).bind
    fun _ _ so => .spanFrom (.pure so)

theorem elementType_writes (rules : r.Punctuates) :
    Writes (elementType r) (fun t => [.typeName t]) fun _ => [] := by
  intro s sane
  refine .peek ?_
  split
  next type _ =>
    exact (Writ.refl sane).token (n := .typeName (.intrinsic type s.current.span)) rfl rfl
  next =>
    split
    · refine (name_writes s sane).bind fun name t so => .get ?_
      split
      · refine (so.part (typeArguments_writes rules)).bind fun arguments u so => ?_
        exact so.finish rfl rfl
      · exact so.around (Node.span_ofName name).symm (Node.isPhrase_ofName name) rfl rfl
    · exact badType_writes _ s sane

theorem arrayBound_writes (rules : r.Punctuates) :
    Writes (arrayBound r) (fun b => [.arrayBound b]) fun _ => [] := by
  intro s sane
  refine (value_writes rules s sane).bind fun first t so => ?_
  refine .eatPlace (fun _ => ?_) fun _ => ?_
  · refine ((so.onto so.sane.advance).part (value_writes rules)).bind fun upper u so => ?_
    exact so.finishBehind rfl rfl rfl rfl rfl
  · exact so.around rfl rfl rfl rfl

theorem dimension_writes (rules : r.Punctuates) :
    Writes (dimension r) (Node.ofOption .arrayBound) fun _ => [] :=
  fun _ sane => .get ((Writ.refl sane).optionally (Node.ofOption .arrayBound) (fun _ => []) rfl
    (arrayBound_writes rules))

/-- Where every dimension has bounds, the bounds are the dimensions. -/
theorem map_some_filterMap {α : Type} {items : List (Option α)}
    (full : (items.filterMap id).length = items.length) : (items.filterMap id).map some = items := by
  induction items with
  | nil => rfl
  | cons first rest ih =>
    cases first with
    | none =>
      have := List.length_filterMap_le id rest
      simp only [List.filterMap_cons_none (show id none = none from rfl), List.length_cons] at full
      omega
    | some a => simpa using ih (by simpa using full)

/-- The commas of the bounds that are given, of all dimensions.  Unless none or all are given, that is
reported. -/
theorem bounds_hold {dimensions : Separated (Option (ArrayBound Expression))} {clean : Prop}
    (threads : Separated.Threads (Node.ofOption .arrayBound) dimensions.first dimensions.rest)
    (full : clean → (dimensions.items.filterMap id).length = dimensions.items.length) :
    Punctuation.Holds ⟨(dimensions.items.filterMap id).map ArrayBound.span,
      dimensions.separators.take ((dimensions.items.filterMap id).length - 1),
      some dimensions.items.length⟩ clean := by
  have fewer := List.length_filterMap_le id dimensions.items
  have commas := dimensions.length_separators
  refine ⟨?_, fun is i x comma y before there behind => ?_, fun rank member => ?_,
    fun is rank member _ => ?_⟩
  · simp only [List.length_take, List.length_map]
    omega
  · have items := map_some_filterMap (full is)
    simp only [List.getElem?_map, Option.map_eq_some_iff] at before behind
    obtain ⟨first, before, rfl⟩ := before
    obtain ⟨next, behind, rfl⟩ := behind
    have given (j : Nat) (b : ArrayBound Expression)
        (at_ : (dimensions.items.filterMap id)[j]? = some b) :
        dimensions.items[j]? = some (some b) := by
      rw [← items, List.getElem?_map, at_]
      rfl
    have there : dimensions.separators[i]? = some comma := by
      rw [List.getElem?_take] at there
      split at there
      · exact there
      · simp at there
    have := threads.between (given i first before) there (given (i + 1) next behind)
    simpa [Node.ofOption, Node.span] using this
  · cases Option.mem_some.1 member
    exact ⟨by omega, by simpa using fewer⟩
  · cases Option.mem_some.1 member
    simpa using full is

theorem arrayBounds_writes (rules : r.Punctuates) (allowBounds : Bool) :
    Writes (arrayBounds r allowBounds) (fun b => b.bounds.items.map .arrayBound)
      fun b => Punctuation.ofBounds (some b) := by
  intro s sane
  have so := (Writ.refl sane).onto sane.advance
  have phrases (a : Option (ArrayBound Expression)) :
      ∀ n ∈ Node.ofOption .arrayBound a, n.isPhrase = true := by
    cases a <;> simp [Node.ofOption, Node.isPhrase]
  refine .read ((separated_threads phrases (dimension_writes rules) so.sane).bind
    fun dimensions t facts => ?_)
  obtain ⟨more, threads⟩ := facts
  have so := so.append more
  rw [flatMap_ofOption, List.nil_append] at so
  extract_lets rank bounds close
  have closes (list : CommaList (ArrayBound Expression)) (u : ParseState)
      (so : Writ s u (list.items.map .arrayBound) [])
      (holds : Punctuation.Holds ⟨list.items.map ArrayBound.span, list.separators, some rank⟩
        (u.diagnostics = [])) :
      Ensures (close list) u fun b v =>
        Writ s v (b.bounds.items.map .arrayBound) (Punctuation.ofBounds (some b)) :=
    ((so.listed holds).pass .closeParenthesis).bind fun _ _ so => .spanFrom (.pure so)
  split
  next first last isFirst _ =>
    extract_lets span give check
    have checked (u : ParseState) (so : Writ s u (bounds.map .arrayBound) [])
        (full : u.diagnostics = [] → bounds.length = rank) :
        Ensures (check ()) u fun b v =>
          Writ s v (b.bounds.items.map .arrayBound) (Punctuation.ofBounds (some b)) := by
      unfold check
      split
      · exact closes _ u so (bounds_hold threads full)
      · have reported := so.sane.report .arrayBoundsNotAllowed span
        exact closes _ _ (so.onto reported.1)
          (bounds_hold threads fun none => absurd none reported.2)
    split
    · have marked := so.onto so.sane.mark
      have reported := marked.sane.report .expectedExpression (.point t.current.span.start)
      exact checked _ (marked.onto reported.1) fun none => absurd none reported.2
    next all => exact checked t so fun _ => by simpa using all
  next none =>
    have empty : bounds = [] := by
      cases found : bounds with
      | nil => rfl
      | cons first rest =>
        have last := List.getLast?_eq_some_getLast (l := first :: rest) (by simp)
        exact (none first _ (by rw [found]; rfl) (by rw [found, last])).elim
    rw [show dimensions.items.filterMap id = [] from empty] at so
    refine closes _ t so ⟨rfl, by simp [CommaList.empty], fun given member => ?_, ?_⟩
    · cases Option.mem_some.1 member
      exact ⟨Nat.succ_le_succ (Nat.zero_le _), Nat.zero_le _⟩
    · exact fun _ _ _ some => absurd rfl some

/-- A type with bounds behind it is an array type. -/
theorem array_writ {o : ParseState} {element : TypeName} {bounds : ArrayBounds Expression}
    (so : Writ o s [.typeName element] [])
    (more : Writ s t (bounds.bounds.items.map .arrayBound) (Punctuation.ofBounds (some bounds))) :
    Writ o t [.typeName (arrayOver element bounds (t.spanSince element.span.start))] [] := by
  have lies := so.spans _ List.mem_cons_self rfl
  have reached := Nat.le_trans (Nat.le_trans lies.order lies.finish) more.onward.here
  have spanned := more.sane.spanSince lies.start reached
  have long := so.append more
  have children := children_arrayOver element bounds (t.spanSince element.span.start)
  unfold arrayOver at children ⊢
  split at children
  next rankOnly =>
    rw [if_pos rankOnly]
    exact long.unlisted.node (fun _ => spanned) children rfl
  next bounded =>
    rw [if_neg bounded]
    exact long.node (fun _ => spanned) children rfl

theorem arraySuffixes_writes {o : ParseState} (rules : r.Punctuates) (n : Nat) {element : TypeName}
    (so : Writ o s [.typeName element] []) :
    Ensures (arraySuffixes r n element) s fun a t => Writ o t [.typeName a] [] := by
  induction n generalizing s element with
  | zero => exact so
  | succ n ih =>
    refine .get ?_
    split
    · refine (arrayBounds_writes rules false s so.sane).bind fun bounds t more => .spanFrom ?_
      exact ih (array_writ so more)
    · exact so

theorem typeName_writes (rules : r.Punctuates) :
    Writes (typeName r) (fun t => [.typeName t]) fun _ => [] := by
  intro s sane
  refine (elementType_writes rules s sane).bind fun element t so => ?_
  split
  · exact so
  · exact .get (arraySuffixes_writes rules _ so)

-- Type parameters

theorem constraint_writes (rules : r.Punctuates) :
    Writes (constraint r) (fun c => [.constraint c]) fun _ => [] := by
  intro s sane
  have word (c : Constraint) (span : c.span = s.current.span)
      (bare : ((Node.constraint c).children, (Node.constraint c).punctuation,
        (Node.constraint c).closing?) = ([], [], none)) : Writ s s.advance [.constraint c] [] :=
    (Writ.refl sane).token span bare
  have type {p : Parse TypeName} (writes : Writes p (fun t => [.typeName t]) fun _ => []) :
      Ensures (Constraint.type <$> p) s fun c t => Writ s t [.constraint c] [] :=
    (writes s sane).map fun _ _ so => so.around rfl rfl rfl rfl
  refine .peek ?_
  split
  · exact word (.isClass _) rfl rfl
  · exact word (.isStructure _) rfl rfl
  · exact word (.hasNew _) rfl rfl
  · exact type (elementType_writes rules)
  · exact type (elementType_writes rules)
  · split
    · exact type (elementType_writes rules)
    · exact type (badType_writes _)

theorem constraints_writes (rules : r.Punctuates) (place : Location) :
    Writes (constraints r place) (fun l => l.constraints.items.map .constraint)
      fun l => Punctuation.ofConstraints (some l) := by
  intro s sane
  refine ((Writ.refl sane).pass (.eatPlace _)).bind fun brace t so => ?_
  cases brace with
  | none =>
    refine (so.nodePart (constraint_writes rules)).bind fun only u so => .spanFrom (.pure ?_)
    exact so.listed (Punctuation.holds_single Constraint.span only _ _)
  | some brace =>
    refine (so.part (separated_writes (fun _ => ⟨rfl, rfl⟩) (constraint_writes rules))).bind
      fun items u so => .spanFrom ?_
    exact (so.pass (.expectPlace _ _)).bind fun _ _ so => .spanFrom (.pure so)

theorem typeParameter_writes (rules : r.Punctuates) :
    Writes (typeParameter r) (fun p => [.typeParameter p]) fun _ => [] := by
  intro s sane
  refine (identifier_writes s sane).bind fun name t so => ?_
  refine (so.pass (.eatPlace _)).bind fun place u so => ?_
  cases place with
  | none => exact so.finishBehind rfl rfl rfl rfl rfl
  | some place =>
    refine (so.part (constraints_writes rules place)).mapBind fun constraints v so => ?_
    exact so.finishBehind rfl rfl rfl rfl rfl

theorem typeParameters_writes (rules : r.Punctuates) :
    Writes (typeParameters r) Node.ofTypeParameters Punctuation.ofTypeParameters := by
  intro s sane
  refine .get ?_
  split
  · exact (genericList_writes (fun _ => ⟨rfl, rfl⟩) (typeParameter_writes rules) s sane).bind
      fun _ _ so => .spanFrom (.pure so)
  · exact Writ.refl sane

end Parse

end VisualBasic
