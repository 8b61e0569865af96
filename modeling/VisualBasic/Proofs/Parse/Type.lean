import VisualBasic.Parse.Type
import VisualBasic.Proofs.Parse.Name

/-!
Type names, type arguments and parameters, and the bounds of arrays.
-/

set_option autoImplicit false

namespace VisualBasic

/-- The rules for nested phrases read what they give, wherever they start. -/
structure Rules.Sound (r : Rules) : Prop where
  expression : ∀ pending s, s.Wf → Yields (r.expression pending) s fun e => [.expression e]
  operand : ∀ s, s.Wf → Yields r.operand s fun e => [.expression e]
  typeName : ∀ s, s.Wf → Yields r.typeName s fun t => [.typeName t]
  elements : ∀ s, s.Wf → Yields r.elements s fun a => [.aggregate a]

namespace Parse

variable {r : Rules} {s : ParseState}

theorem value_yields (sound : r.Sound) (wf : s.Wf) : Yields r.value s fun e => [.expression e] :=
  sound.expression _ s wf

theorem badType_yields {problem : Problem} (quiet : problem.isQuiet = true) (wf : s.Wf) :
    Yields (badType problem) s fun t => [.typeName t] := by
  refine ((Stretch.refl wf).reportUnexpected quiet).bind fun _ t ⟨so, dirty, _⟩ => ?_
  exact (so.missing (fun place => .typeName (.bad (.point place)))
    (fun none => absurd none dirty) rfl).bind fun _ _ facts => facts.1

theorem genericList_yields {α : Type} {span : α → Span} {item : Parse α} (node : α → Node)
    (each : ∀ s, s.Wf → Yields item s fun a => [node a]) (wf : s.Wf)
    (first : s.kind.isSolid = true) (second : s.kindAfter.isSolid = true) :
    Yields (genericList span item) s fun a => a.2.2.1.items.map node := by
  have second : s.advance.kind.isSolid = true := by rwa [ParseState.kind_advance wf first]
  refine (Stretch.refl wf).read first fun so => so.read second fun so => ?_
  refine (so.part (separated_yields each so.wf)).bind fun items t so => .spanFrom ?_
  refine so.closeParenthesis.bind fun _ _ so => .pure ?_
  simp only [flatMap_node] at so
  exact so

theorem isSolid_of_atTypeArguments (starts : s.atTypeArguments = true) :
    s.kind.isSolid = true ∧ s.kindAfter.isSolid = true := by
  simp only [ParseState.atTypeArguments, Bool.and_eq_true, beq_iff_eq] at starts
  rw [starts.1, starts.2]
  exact ⟨rfl, rfl⟩

theorem typeArguments_yields (sound : r.Sound) (wf : s.Wf) (starts : s.atTypeArguments = true) :
    Yields (typeArguments r) s fun a => a.arguments.items.map .typeName := by
  obtain ⟨first, second⟩ := isSolid_of_atTypeArguments starts
  exact (genericList_yields .typeName sound.typeName wf first second).bind fun _ _ so => so

theorem isSolid_of_intrinsic {kind : TokenKind} (named : (IntrinsicType.ofKind? kind).isSome = true) :
    kind.isSolid = true := by
  cases kind <;> first | rfl | simp [IntrinsicType.ofKind?] at named

theorem elementType_yields (sound : r.Sound) (wf : s.Wf) :
    Yields (elementType r) s fun t => [.typeName t] := by
  refine .peek ?_
  split
  next type named =>
    have solid : s.kind.isSolid = true := isSolid_of_intrinsic (by rw [ParseState.kind, named]; rfl)
    exact (Stretch.refl wf).token (n := .typeName (.intrinsic type s.current.span)) solid rfl rfl
      (fun _ => rfl) rfl
  next =>
    split
    · refine (name_yields wf).bind fun name t so => .get ?_
      split
      next starts =>
        refine (so.part (typeArguments_yields sound so.wf starts)).bind fun arguments u so => ?_
        exact so.finish (so.reached List.mem_cons_self) rfl rfl
      next => exact so.around (Node.span_ofName name).symm rfl rfl
    · exact badType_yields rfl wf

theorem arrayBound_yields (sound : r.Sound) (wf : s.Wf) :
    Yields (arrayBound r) s fun b => [.arrayBound b] := by
  refine (value_yields sound wf).bind fun first t so => ?_
  have lower := (so.fits _ (List.mem_singleton.2 rfl)).start
  refine (so.rebase.eatPlace rfl).bind fun toKeyword u ⟨long, cases⟩ => ?_
  cases toKeyword with
  | some toKeyword =>
    refine (long.part (value_yields sound long.wf)).bind fun upper v long => ?_
    exact long.finishFrom lower (long.reached List.mem_cons_self) rfl rfl
  | none =>
    obtain ⟨-, rfl, -⟩ | ⟨absurd, -⟩ := cases
    · exact so.around rfl rfl rfl
    · simp at absurd

theorem dimension_yields (sound : r.Sound) (wf : s.Wf) :
    Yields (dimension r) s (Node.ofOption .arrayBound) := by
  refine .get ?_
  exact (Stretch.refl wf).optionally (Node.ofOption .arrayBound) rfl
    fun _ => arrayBound_yields sound wf

/-- The bounds that are given, of all dimensions. -/
theorem flatMap_ofOption {α : Type} (node : α → Node) (items : List (Option α)) :
    items.flatMap (Node.ofOption node) = (items.filterMap id).map node := by
  induction items with
  | nil => rfl
  | cons first rest ih => cases first <;> simp [Node.ofOption, ih]

theorem arrayBounds_yields (sound : r.Sound) (allowBounds : Bool) (wf : s.Wf)
    (solid : s.kind.isSolid = true) :
    Yields (arrayBounds r allowBounds) s fun b => b.bounds.items.map .arrayBound := by
  refine (Stretch.refl wf).read solid fun so => ?_
  refine (so.part (separated_yields (fun _ wf => dimension_yields sound wf) so.wf)).bind
    fun dimensions t so => ?_
  rw [flatMap_ofOption, List.nil_append] at so
  extract_lets rank bounds close
  have closes (list : CommaList (ArrayBound Expression)) (u : ParseState)
      (so : Stretch s.here s u (list.items.map .arrayBound) []) :
      Ensures (close list) u fun b v => Stretch s.here s v (b.bounds.items.map .arrayBound) [] :=
    so.closeParenthesis.bind fun _ _ so => so
  split
  next first last isFirst _ =>
    extract_lets span give check
    have checked (u : ParseState) (so : Stretch s.here s u (bounds.map .arrayBound) []) :
        Ensures (check ()) u fun b v =>
          Stretch s.here s v (b.bounds.items.map .arrayBound) [] := by
      unfold check
      split
      · exact closes _ u so
      · have fits := so.fits (.arrayBound first) (List.mem_map_of_mem (List.mem_of_mem_head? isFirst))
        exact (so.report _ rfl fun _ => fits.order.merge _).bind fun _ v facts => closes _ v facts.1
    split
    · refine so.placeholder.bind fun place u ⟨_, so, _⟩ => ?_
      exact (so.report _ rfl fun _ => Nat.le_refl _).bind fun _ v facts => checked v facts.1
    · exact checked t so
  next none =>
    have empty : bounds = [] := by
      cases found : bounds with
      | nil => rfl
      | cons first rest =>
        have last := List.getLast?_eq_some_getLast (l := first :: rest) (by simp)
        exact (none first _ (by rw [found]; rfl) (by rw [found, last])).elim
    rw [show dimensions.items.filterMap id = [] from empty] at so
    exact closes _ t so

/-- An array type has its element type and its bounds below it. -/
theorem children_arrayOver (element : TypeName) (bounds : ArrayBounds Expression) (span : Span) :
    (Node.typeName (arrayOver element bounds span)).children
      = .typeName element :: bounds.bounds.items.map .arrayBound := by
  unfold arrayOver
  split
  next rankOnly =>
    have none : bounds.bounds.items = [] := List.isEmpty_iff.1 rankOnly
    rw [none]
    rfl
  next => rfl

/-- A type with bounds behind it is an array type. -/
theorem array_type {lo : Nat} {o t : ParseState} {element : TypeName}
    {bounds : ArrayBounds Expression} (so : Stretch lo o s [.typeName element] [])
    (more : Stretch s.here s t (bounds.bounds.items.map .arrayBound) []) :
    Stretch lo o t [.typeName (arrayOver element bounds (t.spanSince element.span.start))] [] := by
  have lower := (so.fits _ (List.mem_singleton.2 rfl)).start
  have long := so.rebase.append more
  exact (long.wrap (long.reached List.mem_cons_self) rfl (children_arrayOver _ _ _) (fun _ => rfl)
    rfl rfl (fun _ _ => rfl) fun _ => Node.orderly_of_flat rfl _).weaken lower

theorem arraySuffixes_yields {lo : Nat} {o : ParseState} (sound : r.Sound) (n : Nat)
    {element : TypeName} (so : Stretch lo o s [.typeName element] []) :
    Ensures (arraySuffixes r n element) s fun a t => Stretch lo o t [.typeName a] [] := by
  induction n generalizing s element with
  | zero => exact so
  | succ n ih =>
    refine .get ?_
    split
    next starts =>
      have solid : s.kind.isSolid = true := by
        simp only [Bool.and_eq_true, beq_iff_eq] at starts
        rw [starts.1]
        rfl
      refine (arrayBounds_yields sound false so.wf solid).bind fun bounds t more => .spanFrom ?_
      exact ih (array_type so more)
    next => exact so

theorem typeName_yields (sound : r.Sound) (wf : s.Wf) :
    Yields (typeName r) s fun t => [.typeName t] := by
  refine (elementType_yields sound wf).bind fun element t so => ?_
  split
  · exact so
  · exact .get (arraySuffixes_yields sound _ so)

-- Type parameters

theorem constraint_yields (sound : r.Sound) (wf : s.Wf) :
    Yields (constraint r) s fun c => [.constraint c] := by
  have word (c : Constraint) (span : c.span = s.current.span)
      (children : (Node.constraint c).children = []) (solid : s.kind.isSolid = true) :
      Stretch s.here s s.advance [.constraint c] [] :=
    (Stretch.refl wf).token solid span children (fun _ => rfl) rfl
  have type {p : Parse TypeName} (yields : Yields p s fun t => [.typeName t]) :
      Yields (Constraint.type <$> p) s fun c => [.constraint c] :=
    yields.map fun _ _ so => so.around rfl rfl rfl
  refine .peek ?_
  split
  next kind => exact word (.isClass _) rfl rfl (by rw [ParseState.kind, kind]; rfl)
  next kind => exact word (.isStructure _) rfl rfl (by rw [ParseState.kind, kind]; rfl)
  next kind => exact word (.hasNew _) rfl rfl (by rw [ParseState.kind, kind]; rfl)
  · exact type (elementType_yields sound wf)
  · exact type (elementType_yields sound wf)
  · split
    · exact type (elementType_yields sound wf)
    · exact type (badType_yields rfl wf)

theorem constraints_yields (sound : r.Sound) (place : Location) (wf : s.Wf) :
    Yields (constraints r place) s fun l => l.constraints.items.map .constraint := by
  refine ((Stretch.refl wf).eatPlace rfl).bind fun brace t ⟨so, _⟩ => ?_
  cases brace with
  | none => exact (so.part (constraint_yields sound so.wf)).bind fun _ _ so => so
  | some brace =>
    refine (so.part (separated_yields (fun _ wf => constraint_yields sound wf) so.wf)).bind
      fun items u so => .spanFrom ?_
    simp only [flatMap_node] at so
    exact (so.expectPlace rfl rfl).bind fun _ _ facts => facts.1

theorem typeParameter_yields (sound : r.Sound) (wf : s.Wf) :
    Yields (typeParameter r) s fun p => [.typeParameter p] := by
  refine (identifier_yields wf).bind fun name t so => ?_
  have lower := (so.fits _ (List.mem_singleton.2 rfl)).start
  refine (so.rebase.eatPlace rfl).bind fun place u ⟨so, _⟩ => ?_
  cases place with
  | none => exact so.finishFrom lower (so.reached List.mem_cons_self) rfl rfl
  | some place =>
    refine (so.part (constraints_yields sound place so.wf)).mapBind fun constraints v so => ?_
    exact so.finishFrom lower (so.reached List.mem_cons_self) rfl rfl

theorem typeParameters_yields (sound : r.Sound) (wf : s.Wf) :
    Yields (typeParameters r) s Node.ofTypeParameters := by
  refine .get ?_
  split
  next starts =>
    obtain ⟨first, second⟩ := isSolid_of_atTypeArguments starts
    exact (genericList_yields .typeParameter (fun _ wf => typeParameter_yields sound wf) wf first
      second).bind fun _ _ so => so
  next => exact Stretch.refl wf

end Parse

end VisualBasic
