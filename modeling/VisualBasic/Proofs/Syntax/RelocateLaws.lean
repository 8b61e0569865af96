import VisualBasic.Proofs.Syntax.RelocateStatement

/-!
A tree whose locations all stay where they are stays as it is, and a tree that is moved twice is moved
once, by both functions.
-/

set_option autoImplicit false

namespace VisualBasic

class LawfulRelocate (α : Type) [Relocate α] : Prop where
  relocate_id : ∀ a : α, relocate id a = a
  relocate_comp : ∀ (f g : Location → Location) (a : α),
    relocate f (relocate g a) = relocate (f ∘ g) a

export LawfulRelocate (relocate_id relocate_comp)

section Laws

variable {α β : Type} [Relocate α] [Relocate β] [LawfulRelocate α] [LawfulRelocate β]

instance : LawfulRelocate Location := ⟨fun _ => rfl, fun _ _ _ => rfl⟩
instance : LawfulRelocate Span := ⟨fun _ => rfl, fun _ _ _ => rfl⟩
instance : LawfulRelocate Comment := ⟨fun _ => rfl, fun _ _ _ => rfl⟩

instance : LawfulRelocate (Option α) where
  relocate_id a := by
    cases a with
    | none => rfl
    | some a => exact congrArg some (relocate_id a)
  relocate_comp f g a := by
    cases a with
    | none => rfl
    | some a => exact congrArg some (relocate_comp f g a)

instance : LawfulRelocate (List α) where
  relocate_id l := by
    induction l with
    | nil => rfl
    | cons a rest ih =>
      show relocate id a :: relocate id rest = _
      rw [relocate_id, ih]
  relocate_comp f g l := by
    induction l with
    | nil => rfl
    | cons a rest ih =>
      show relocate f (relocate g a) :: relocate f (relocate g rest) = _
      rw [relocate_comp, ih]
      rfl

instance : LawfulRelocate (CommaList α) where
  relocate_id _ := (CommaList.mk.injEq ..).mpr (by and_intros <;> exact relocate_id _)
  relocate_comp f g _ := (CommaList.mk.injEq ..).mpr (by and_intros <;> exact relocate_comp f g _)

instance : LawfulRelocate Unit := ⟨fun _ => rfl, fun _ _ _ => rfl⟩
instance : LawfulRelocate Bool := ⟨fun _ => rfl, fun _ _ _ => rfl⟩
instance : LawfulRelocate Nat := ⟨fun _ => rfl, fun _ _ _ => rfl⟩
instance : LawfulRelocate Int := ⟨fun _ => rfl, fun _ _ _ => rfl⟩
instance : LawfulRelocate String := ⟨fun _ => rfl, fun _ _ _ => rfl⟩
instance : LawfulRelocate TokenKind := ⟨fun _ => rfl, fun _ _ _ => rfl⟩
instance : LawfulRelocate Problem := ⟨fun _ => rfl, fun _ _ _ => rfl⟩
instance : LawfulRelocate BlockKind := ⟨fun _ => rfl, fun _ _ _ => rfl⟩
instance : LawfulRelocate Terminator := ⟨fun _ => rfl, fun _ _ _ => rfl⟩
instance : LawfulRelocate Modifier := ⟨fun _ => rfl, fun _ _ _ => rfl⟩
instance : LawfulRelocate ParameterModifier := ⟨fun _ => rfl, fun _ _ _ => rfl⟩
instance : LawfulRelocate AttributeTarget := ⟨fun _ => rfl, fun _ _ _ => rfl⟩
instance : LawfulRelocate TypeListKind := ⟨fun _ => rfl, fun _ _ _ => rfl⟩
instance : LawfulRelocate OptionKind := ⟨fun _ => rfl, fun _ _ _ => rfl⟩
instance : LawfulRelocate OptionSetting := ⟨fun _ => rfl, fun _ _ _ => rfl⟩
instance : LawfulRelocate Charset := ⟨fun _ => rfl, fun _ _ _ => rfl⟩
instance : LawfulRelocate OverloadableOperator := ⟨fun _ => rfl, fun _ _ _ => rfl⟩
instance : LawfulRelocate CompoundOperator := ⟨fun _ => rfl, fun _ _ _ => rfl⟩
instance : LawfulRelocate BinaryOperator := ⟨fun _ => rfl, fun _ _ _ => rfl⟩
instance : LawfulRelocate MethodKind := ⟨fun _ => rfl, fun _ _ _ => rfl⟩
instance : LawfulRelocate AccessorKind := ⟨fun _ => rfl, fun _ _ _ => rfl⟩
instance : LawfulRelocate TypeKind := ⟨fun _ => rfl, fun _ _ _ => rfl⟩
instance : LawfulRelocate ObjectBlockKind := ⟨fun _ => rfl, fun _ _ _ => rfl⟩
instance : LawfulRelocate InstanceKind := ⟨fun _ => rfl, fun _ _ _ => rfl⟩
instance : LawfulRelocate Token := ⟨fun _ => rfl, fun _ _ _ => rfl⟩
instance : LawfulRelocate Diagnostic := ⟨fun _ => rfl, fun _ _ _ => rfl⟩
instance : LawfulRelocate SimpleName := ⟨fun _ => rfl, fun _ _ _ => rfl⟩
instance : LawfulRelocate EndBlock := ⟨fun _ => rfl, fun _ _ _ => rfl⟩
instance : LawfulRelocate Label := ⟨fun a => by cases a <;> rfl, fun _ _ a => by cases a <;> rfl⟩
instance : LawfulRelocate (Placed α) := ⟨fun _ => rfl, fun _ _ _ => rfl⟩

theorem Name.moved_id (n : Name) : n.moved id = n := by
  induction n with
  | qualified q dot n s ih => exact congrArg (Name.qualified · _ _ _) ih
  | _ => rfl

theorem Name.moved_comp (f g : Location → Location) (n : Name) :
    (n.moved g).moved f = n.moved (f ∘ g) := by
  induction n with
  | qualified q dot n s ih => exact congrArg (Name.qualified · _ _ _) ih
  | _ => rfl

instance : LawfulRelocate Name := ⟨Name.moved_id, Name.moved_comp⟩

section Expressions

mutual

theorem Expression.moved_id : (e : Expression) → e.moved id = e
  | .literal _ _ | .currentInstance _ _ | .globalNamespace _ | .nothing _ | .bad _ => rfl
  | .simpleName _ a _ => by
    simp only [Expression.moved, relocate_id, movedTypeArguments_id a]
  | .qualified q _ _ a _ => by
    simp only [Expression.moved, relocate_id, movedQualifier_id q,
      movedTypeArguments_id a, id_eq]
  | .dictionaryLookup q _ _ _ => by
    simp only [Expression.moved, relocate_id, movedQualifier_id q, id_eq]
  | .callOrIndex e a _ => by
    simp only [Expression.moved, relocate_id, e.moved_id, movedArguments_id a]
  | .parenthesized e _ _ | .unary _ e _ | .intrinsicCast _ e _ _ | .addressOf e _ => by
    simp only [Expression.moved, relocate_id, e.moved_id]
  | .binary l _ _ r _ => by
    simp only [Expression.moved, relocate_id, l.moved_id, r.moved_id]
  | .typeOf e _ t _ | .cast _ e _ t _ _ => by
    simp only [Expression.moved, relocate_id, e.moved_id, t.moved_id]
  | .getType t _ _ | .newObject t none _ => by
    simp only [Expression.moved, relocate_id, t.moved_id]
  | .newObject t (some a) _ => by
    simp only [Expression.moved, relocate_id, t.moved_id, movedArguments_id a]
  | .newArray t a _ => by
    simp only [Expression.moved, relocate_id, t.moved_id, movedAggregate_id a]

theorem TypeName.moved_id : (t : TypeName) → t.moved id = t
  | .intrinsic _ _ | .bad _ => rfl
  | .named _ _ => by simp only [TypeName.moved, relocate_id]
  | .constructed _ a _ => by
    simp only [TypeName.moved, relocate_id, movedTypeArgumentList_id a]
  | .array e _ b _ => by
    simp only [TypeName.moved, relocate_id, e.moved_id, movedArrayBounds_id b]

theorem Initializer.moved_id : (i : Initializer) → i.moved id = i
  | .expression e => by simp only [Initializer.moved, e.moved_id]
  | .aggregate a => by simp only [Initializer.moved, movedAggregate_id a]

theorem movedQualifier_id : (e : Option Expression) → movedQualifier id e = e
  | none => rfl
  | some e => by simp only [movedQualifier, e.moved_id]

theorem movedTypeArguments_id : (a : Option TypeArguments) → movedTypeArguments id a = a
  | none => rfl
  | some a => by simp only [movedTypeArguments, movedTypeArgumentList_id a]

theorem movedTypeArgumentList_id : (a : TypeArguments) → movedTypeArgumentList id a = a
  | ⟨_, _, ⟨types, _, _⟩, _, _⟩ => by
    simp only [movedTypeArgumentList, relocate_id, movedTypes_id types, id_eq]

theorem movedTypes_id : (types : List TypeName) → movedTypes id types = types
  | [] => rfl
  | t :: rest => by simp only [movedTypes, t.moved_id, movedTypes_id rest]

theorem movedArguments_id : (a : Arguments) → movedArguments id a = a
  | ⟨_, ⟨items, _, _⟩, _, _⟩ => by
    simp only [movedArguments, relocate_id, movedArgumentItems_id items]

theorem movedArgumentItems_id :
    (items : List (Argument Expression)) → movedArgumentItems id items = items
  | [] => rfl
  | ⟨_, _, value, _⟩ :: rest => by
    simp only [movedArgumentItems, relocate_id, movedQualifier_id value,
      movedArgumentItems_id rest]

theorem movedArrayBounds_id : (b : Option (ArrayBounds Expression)) → movedArrayBounds id b = b
  | none => rfl
  | some ⟨_, _, ⟨items, _, _⟩, _, _⟩ => by
    simp only [movedArrayBounds, relocate_id, movedBoundItems_id items, id_eq]

theorem movedBoundItems_id :
    (items : List (ArrayBound Expression)) → movedBoundItems id items = items
  | [] => rfl
  | ⟨lower, _, upper, _⟩ :: rest => by
    simp only [movedBoundItems, relocate_id, movedQualifier_id lower, upper.moved_id,
      movedBoundItems_id rest]

theorem movedAggregate_id : (a : Aggregate) → movedAggregate id a = a
  | ⟨_, ⟨items, _, _⟩, _, _⟩ => by
    simp only [movedAggregate, relocate_id, movedInitializers_id items, id_eq]

theorem movedInitializers_id : (items : List Initializer) → movedInitializers id items = items
  | [] => rfl
  | i :: rest => by simp only [movedInitializers, i.moved_id, movedInitializers_id rest]

end

variable (f g : Location → Location)

mutual

theorem Expression.moved_comp : (e : Expression) → (e.moved g).moved f = e.moved (f ∘ g)
  | .literal _ _ | .currentInstance _ _ | .globalNamespace _ | .nothing _ | .bad _ => rfl
  | .simpleName _ a _ => by
    simp only [Expression.moved, relocate_comp, movedTypeArguments_comp a]
  | .qualified q _ _ a _ => by
    simp only [Expression.moved, relocate_comp, movedQualifier_comp q,
      movedTypeArguments_comp a, Function.comp_apply]
  | .dictionaryLookup q _ _ _ => by
    simp only [Expression.moved, relocate_comp, movedQualifier_comp q, Function.comp_apply]
  | .callOrIndex e a _ => by
    simp only [Expression.moved, relocate_comp, e.moved_comp, movedArguments_comp a]
  | .parenthesized e _ _ | .unary _ e _ | .intrinsicCast _ e _ _ | .addressOf e _ => by
    simp only [Expression.moved, relocate_comp, e.moved_comp]
  | .binary l _ _ r _ => by
    simp only [Expression.moved, relocate_comp, l.moved_comp, r.moved_comp]
  | .typeOf e _ t _ | .cast _ e _ t _ _ => by
    simp only [Expression.moved, relocate_comp, e.moved_comp, t.moved_comp]
  | .getType t _ _ | .newObject t none _ => by
    simp only [Expression.moved, relocate_comp, t.moved_comp]
  | .newObject t (some a) _ => by
    simp only [Expression.moved, relocate_comp, t.moved_comp, movedArguments_comp a]
  | .newArray t a _ => by
    simp only [Expression.moved, relocate_comp, t.moved_comp, movedAggregate_comp a]

theorem TypeName.moved_comp : (t : TypeName) → (t.moved g).moved f = t.moved (f ∘ g)
  | .intrinsic _ _ | .bad _ => rfl
  | .named _ _ => by simp only [TypeName.moved, relocate_comp]
  | .constructed _ a _ => by
    simp only [TypeName.moved, relocate_comp, movedTypeArgumentList_comp a]
  | .array e _ b _ => by
    simp only [TypeName.moved, relocate_comp, e.moved_comp, movedArrayBounds_comp b]

theorem Initializer.moved_comp : (i : Initializer) → (i.moved g).moved f = i.moved (f ∘ g)
  | .expression e => by simp only [Initializer.moved, e.moved_comp]
  | .aggregate a => by simp only [Initializer.moved, movedAggregate_comp a]

theorem movedQualifier_comp : (e : Option Expression) →
    movedQualifier f (movedQualifier g e) = movedQualifier (f ∘ g) e
  | none => rfl
  | some e => by simp only [movedQualifier, e.moved_comp]

theorem movedTypeArguments_comp : (a : Option TypeArguments) →
    movedTypeArguments f (movedTypeArguments g a) = movedTypeArguments (f ∘ g) a
  | none => rfl
  | some a => by simp only [movedTypeArguments, movedTypeArgumentList_comp a]

theorem movedTypeArgumentList_comp : (a : TypeArguments) →
    movedTypeArgumentList f (movedTypeArgumentList g a) = movedTypeArgumentList (f ∘ g) a
  | ⟨_, _, ⟨types, _, _⟩, _, _⟩ => by
    simp only [movedTypeArgumentList, relocate_comp, movedTypes_comp types, Function.comp_apply]

theorem movedTypes_comp : (types : List TypeName) →
    movedTypes f (movedTypes g types) = movedTypes (f ∘ g) types
  | [] => rfl
  | t :: rest => by simp only [movedTypes, t.moved_comp, movedTypes_comp rest]

theorem movedArguments_comp : (a : Arguments) →
    movedArguments f (movedArguments g a) = movedArguments (f ∘ g) a
  | ⟨_, ⟨items, _, _⟩, _, _⟩ => by
    simp only [movedArguments, relocate_comp, movedArgumentItems_comp items]

theorem movedArgumentItems_comp :
    (items : List (Argument Expression)) →
      movedArgumentItems f (movedArgumentItems g items) = movedArgumentItems (f ∘ g) items
  | [] => rfl
  | ⟨_, _, value, _⟩ :: rest => by
    simp only [movedArgumentItems, relocate_comp, movedQualifier_comp value,
      movedArgumentItems_comp rest]

theorem movedArrayBounds_comp : (b : Option (ArrayBounds Expression)) →
    movedArrayBounds f (movedArrayBounds g b) = movedArrayBounds (f ∘ g) b
  | none => rfl
  | some ⟨_, _, ⟨items, _, _⟩, _, _⟩ => by
    simp only [movedArrayBounds, relocate_comp, movedBoundItems_comp items, Function.comp_apply]

theorem movedBoundItems_comp :
    (items : List (ArrayBound Expression)) →
      movedBoundItems f (movedBoundItems g items) = movedBoundItems (f ∘ g) items
  | [] => rfl
  | ⟨lower, _, upper, _⟩ :: rest => by
    simp only [movedBoundItems, relocate_comp, movedQualifier_comp lower, upper.moved_comp,
      movedBoundItems_comp rest]

theorem movedAggregate_comp : (a : Aggregate) →
    movedAggregate f (movedAggregate g a) = movedAggregate (f ∘ g) a
  | ⟨_, ⟨items, _, _⟩, _, _⟩ => by
    simp only [movedAggregate, relocate_comp, movedInitializers_comp items, Function.comp_apply]

theorem movedInitializers_comp : (items : List Initializer) →
    movedInitializers f (movedInitializers g items) = movedInitializers (f ∘ g) items
  | [] => rfl
  | i :: rest => by simp only [movedInitializers, i.moved_comp, movedInitializers_comp rest]

end

end Expressions

instance : LawfulRelocate Expression := ⟨Expression.moved_id, Expression.moved_comp⟩
instance : LawfulRelocate TypeName := ⟨TypeName.moved_id, TypeName.moved_comp⟩
instance : LawfulRelocate Initializer := ⟨Initializer.moved_id, Initializer.moved_comp⟩

instance : LawfulRelocate (ArrayBound α) where
  relocate_id _ := (ArrayBound.mk.injEq ..).mpr (by and_intros <;> exact relocate_id _)
  relocate_comp f g _ := (ArrayBound.mk.injEq ..).mpr (by and_intros <;> exact relocate_comp f g _)

instance : LawfulRelocate (ArrayBounds α) where
  relocate_id _ := (ArrayBounds.mk.injEq ..).mpr (by and_intros <;> exact relocate_id _)
  relocate_comp f g _ := (ArrayBounds.mk.injEq ..).mpr (by and_intros <;> exact relocate_comp f g _)

instance : LawfulRelocate (Argument α) where
  relocate_id _ := (Argument.mk.injEq ..).mpr (by and_intros <;> exact relocate_id _)
  relocate_comp f g _ := (Argument.mk.injEq ..).mpr (by and_intros <;> exact relocate_comp f g _)

instance : LawfulRelocate (ArgumentList α) where
  relocate_id _ := (ArgumentList.mk.injEq ..).mpr (by and_intros <;> exact relocate_id _)
  relocate_comp f g _ := (ArgumentList.mk.injEq ..).mpr
    (by and_intros <;> exact relocate_comp f g _)

instance : LawfulRelocate (TypeArgumentList α) where
  relocate_id _ := (TypeArgumentList.mk.injEq ..).mpr (by and_intros <;> exact relocate_id _)
  relocate_comp f g _ := (TypeArgumentList.mk.injEq ..).mpr
    (by and_intros <;> exact relocate_comp f g _)

instance : LawfulRelocate (AggregateInitializer α) where
  relocate_id _ := (AggregateInitializer.mk.injEq ..).mpr (by and_intros <;> exact relocate_id _)
  relocate_comp f g _ := (AggregateInitializer.mk.injEq ..).mpr
    (by and_intros <;> exact relocate_comp f g _)

instance : LawfulRelocate ModifierList where
  relocate_id _ := (ModifierList.mk.injEq ..).mpr (by and_intros <;> exact relocate_id _)
  relocate_comp f g _ := (ModifierList.mk.injEq ..).mpr
    (by and_intros <;> exact relocate_comp f g _)

instance : LawfulRelocate Constraint where
  relocate_id a := by
    cases a with
    | type t => exact congrArg Constraint.type (relocate_id t)
    | _ => rfl
  relocate_comp f g a := by
    cases a with
    | type t => exact congrArg Constraint.type (relocate_comp f g t)
    | _ => rfl

instance : LawfulRelocate VariableName where
  relocate_id _ := (VariableName.mk.injEq ..).mpr (by and_intros <;> exact relocate_id _)
  relocate_comp f g _ := (VariableName.mk.injEq ..).mpr
    (by and_intros <;> exact relocate_comp f g _)

instance : LawfulRelocate AsClause where
  relocate_id _ := (AsClause.mk.injEq ..).mpr (by and_intros <;> exact relocate_id _)
  relocate_comp f g _ := (AsClause.mk.injEq ..).mpr (by and_intros <;> exact relocate_comp f g _)

instance : LawfulRelocate VariableDeclarator where
  relocate_id _ := (VariableDeclarator.mk.injEq ..).mpr (by and_intros <;> exact relocate_id _)
  relocate_comp f g _ := (VariableDeclarator.mk.injEq ..).mpr
    (by and_intros <;> exact relocate_comp f g _)

instance : LawfulRelocate Attribute where
  relocate_id _ := (Attribute.mk.injEq ..).mpr (by and_intros <;> exact relocate_id _)
  relocate_comp f g _ := (Attribute.mk.injEq ..).mpr (by and_intros <;> exact relocate_comp f g _)

instance : LawfulRelocate AttributeBlock where
  relocate_id _ := (AttributeBlock.mk.injEq ..).mpr (by and_intros <;> exact relocate_id _)
  relocate_comp f g _ := (AttributeBlock.mk.injEq ..).mpr
    (by and_intros <;> exact relocate_comp f g _)

instance : LawfulRelocate Parameter where
  relocate_id _ := (Parameter.mk.injEq ..).mpr (by and_intros <;> exact relocate_id _)
  relocate_comp f g _ := (Parameter.mk.injEq ..).mpr (by and_intros <;> exact relocate_comp f g _)

instance : LawfulRelocate ParameterList where
  relocate_id _ := (ParameterList.mk.injEq ..).mpr (by and_intros <;> exact relocate_id _)
  relocate_comp f g _ := (ParameterList.mk.injEq ..).mpr
    (by and_intros <;> exact relocate_comp f g _)

instance : LawfulRelocate ReturnType where
  relocate_id _ := (ReturnType.mk.injEq ..).mpr (by and_intros <;> exact relocate_id _)
  relocate_comp f g _ := (ReturnType.mk.injEq ..).mpr (by and_intros <;> exact relocate_comp f g _)

instance : LawfulRelocate ConstraintList where
  relocate_id _ := (ConstraintList.mk.injEq ..).mpr (by and_intros <;> exact relocate_id _)
  relocate_comp f g _ := (ConstraintList.mk.injEq ..).mpr
    (by and_intros <;> exact relocate_comp f g _)

instance : LawfulRelocate TypeParameter where
  relocate_id _ := (TypeParameter.mk.injEq ..).mpr (by and_intros <;> exact relocate_id _)
  relocate_comp f g _ := (TypeParameter.mk.injEq ..).mpr
    (by and_intros <;> exact relocate_comp f g _)

instance : LawfulRelocate TypeParameterList where
  relocate_id _ := (TypeParameterList.mk.injEq ..).mpr (by and_intros <;> exact relocate_id _)
  relocate_comp f g _ := (TypeParameterList.mk.injEq ..).mpr
    (by and_intros <;> exact relocate_comp f g _)

instance : LawfulRelocate HandlesItem where
  relocate_id _ := (HandlesItem.mk.injEq ..).mpr (by and_intros <;> exact relocate_id _)
  relocate_comp f g _ := (HandlesItem.mk.injEq ..).mpr (by and_intros <;> exact relocate_comp f g _)

instance : LawfulRelocate HandlesClause where
  relocate_id _ := (HandlesClause.mk.injEq ..).mpr (by and_intros <;> exact relocate_id _)
  relocate_comp f g _ := (HandlesClause.mk.injEq ..).mpr
    (by and_intros <;> exact relocate_comp f g _)

instance : LawfulRelocate ImplementsClause where
  relocate_id _ := (ImplementsClause.mk.injEq ..).mpr (by and_intros <;> exact relocate_id _)
  relocate_comp f g _ := (ImplementsClause.mk.injEq ..).mpr
    (by and_intros <;> exact relocate_comp f g _)

instance : LawfulRelocate ImportsClause where
  relocate_id _ := (ImportsClause.mk.injEq ..).mpr (by and_intros <;> exact relocate_id _)
  relocate_comp f g _ := (ImportsClause.mk.injEq ..).mpr
    (by and_intros <;> exact relocate_comp f g _)

instance : LawfulRelocate OnErrorAction where
  relocate_id a := by
    cases a with
    | goToLabel l => exact congrArg OnErrorAction.goToLabel (relocate_id l)
    | _ => rfl
  relocate_comp f g a := by
    cases a with
    | goToLabel l => exact congrArg OnErrorAction.goToLabel (relocate_comp f g l)
    | _ => rfl

instance : LawfulRelocate ResumeTarget where
  relocate_id a := by
    cases a with
    | label l => exact congrArg ResumeTarget.label (relocate_id l)
    | _ => rfl
  relocate_comp f g a := by
    cases a with
    | label l => exact congrArg ResumeTarget.label (relocate_comp f g l)
    | _ => rfl

instance : LawfulRelocate ForControl where
  relocate_id a := by
    cases a with
    | expression e => exact congrArg ForControl.expression (relocate_id e)
    | declarator d => exact congrArg ForControl.declarator (relocate_id d)
  relocate_comp f g a := by
    cases a with
    | expression e => exact congrArg ForControl.expression (relocate_comp f g e)
    | declarator d => exact congrArg ForControl.declarator (relocate_comp f g d)

instance : LawfulRelocate UsingResource where
  relocate_id a := by
    cases a with
    | expression e => exact congrArg UsingResource.expression (relocate_id e)
    | declarators d => exact congrArg UsingResource.declarators (relocate_id d)
  relocate_comp f g a := by
    cases a with
    | expression e => exact congrArg UsingResource.expression (relocate_comp f g e)
    | declarators d => exact congrArg UsingResource.declarators (relocate_comp f g d)

instance : LawfulRelocate CaseClause where
  relocate_id a := by
    cases a with
    | value e => exact congrArg CaseClause.value (relocate_id e)
    | range lower toKeyword upper s =>
      refine (CaseClause.range.injEq ..).mpr ?_
      and_intros <;> exact relocate_id _
    | relational isKeyword op e s =>
      refine (CaseClause.relational.injEq ..).mpr ?_
      and_intros <;> exact relocate_id _
  relocate_comp f g a := by
    cases a with
    | value e => exact congrArg CaseClause.value (relocate_comp f g e)
    | range lower toKeyword upper s =>
      refine (CaseClause.range.injEq ..).mpr ?_
      and_intros <;> exact relocate_comp f g _
    | relational isKeyword op e s =>
      refine (CaseClause.relational.injEq ..).mpr ?_
      and_intros <;> exact relocate_comp f g _

instance : LawfulRelocate Assignment where
  relocate_id _ := (Assignment.mk.injEq ..).mpr (by and_intros <;> exact relocate_id _)
  relocate_comp f g _ := (Assignment.mk.injEq ..).mpr (by and_intros <;> exact relocate_comp f g _)

instance : LawfulRelocate CompoundAssignment where
  relocate_id _ := (CompoundAssignment.mk.injEq ..).mpr (by and_intros <;> exact relocate_id _)
  relocate_comp f g _ := (CompoundAssignment.mk.injEq ..).mpr
    (by and_intros <;> exact relocate_comp f g _)

instance : LawfulRelocate MidAssignment where
  relocate_id _ := (MidAssignment.mk.injEq ..).mpr (by and_intros <;> exact relocate_id _)
  relocate_comp f g _ := (MidAssignment.mk.injEq ..).mpr
    (by and_intros <;> exact relocate_comp f g _)

instance : LawfulRelocate CallStatement where
  relocate_id _ := (CallStatement.mk.injEq ..).mpr (by and_intros <;> exact relocate_id _)
  relocate_comp f g _ := (CallStatement.mk.injEq ..).mpr
    (by and_intros <;> exact relocate_comp f g _)

instance : LawfulRelocate LocalDeclaration where
  relocate_id _ := (LocalDeclaration.mk.injEq ..).mpr (by and_intros <;> exact relocate_id _)
  relocate_comp f g _ := (LocalDeclaration.mk.injEq ..).mpr
    (by and_intros <;> exact relocate_comp f g _)

instance : LawfulRelocate HandlerStatement where
  relocate_id _ := (HandlerStatement.mk.injEq ..).mpr (by and_intros <;> exact relocate_id _)
  relocate_comp f g _ := (HandlerStatement.mk.injEq ..).mpr
    (by and_intros <;> exact relocate_comp f g _)

instance : LawfulRelocate ElseIfStatement where
  relocate_id _ := (ElseIfStatement.mk.injEq ..).mpr (by and_intros <;> exact relocate_id _)
  relocate_comp f g _ := (ElseIfStatement.mk.injEq ..).mpr
    (by and_intros <;> exact relocate_comp f g _)

instance : LawfulRelocate LoopCondition where
  relocate_id _ := (LoopCondition.mk.injEq ..).mpr (by and_intros <;> exact relocate_id _)
  relocate_comp f g _ := (LoopCondition.mk.injEq ..).mpr
    (by and_intros <;> exact relocate_comp f g _)

instance : LawfulRelocate LoopStatement where
  relocate_id _ := (LoopStatement.mk.injEq ..).mpr (by and_intros <;> exact relocate_id _)
  relocate_comp f g _ := (LoopStatement.mk.injEq ..).mpr
    (by and_intros <;> exact relocate_comp f g _)

instance : LawfulRelocate NextStatement where
  relocate_id _ := (NextStatement.mk.injEq ..).mpr (by and_intros <;> exact relocate_id _)
  relocate_comp f g _ := (NextStatement.mk.injEq ..).mpr
    (by and_intros <;> exact relocate_comp f g _)

instance : LawfulRelocate CatchStatement where
  relocate_id _ := (CatchStatement.mk.injEq ..).mpr (by and_intros <;> exact relocate_id _)
  relocate_comp f g _ := (CatchStatement.mk.injEq ..).mpr
    (by and_intros <;> exact relocate_comp f g _)

instance : LawfulRelocate CaseStatement where
  relocate_id _ := (CaseStatement.mk.injEq ..).mpr (by and_intros <;> exact relocate_id _)
  relocate_comp f g _ := (CaseStatement.mk.injEq ..).mpr
    (by and_intros <;> exact relocate_comp f g _)

instance : LawfulRelocate DeclarationHead where
  relocate_id _ := (DeclarationHead.mk.injEq ..).mpr (by and_intros <;> exact relocate_id _)
  relocate_comp f g _ := (DeclarationHead.mk.injEq ..).mpr
    (by and_intros <;> exact relocate_comp f g _)

instance : LawfulRelocate EnumValue where
  relocate_id _ := (EnumValue.mk.injEq ..).mpr (by and_intros <;> exact relocate_id _)
  relocate_comp f g _ := (EnumValue.mk.injEq ..).mpr (by and_intros <;> exact relocate_comp f g _)

instance : LawfulRelocate TypeList where
  relocate_id _ := (TypeList.mk.injEq ..).mpr (by and_intros <;> exact relocate_id _)
  relocate_comp f g _ := (TypeList.mk.injEq ..).mpr (by and_intros <;> exact relocate_comp f g _)

instance : LawfulRelocate VariableListDeclaration where
  relocate_id _ := (VariableListDeclaration.mk.injEq ..).mpr (by and_intros <;> exact relocate_id _)
  relocate_comp f g _ := (VariableListDeclaration.mk.injEq ..).mpr
    (by and_intros <;> exact relocate_comp f g _)

instance : LawfulRelocate ExternalDeclaration where
  relocate_id _ := (ExternalDeclaration.mk.injEq ..).mpr (by and_intros <;> exact relocate_id _)
  relocate_comp f g _ := (ExternalDeclaration.mk.injEq ..).mpr
    (by and_intros <;> exact relocate_comp f g _)

instance : LawfulRelocate DelegateDeclaration where
  relocate_id _ := (DelegateDeclaration.mk.injEq ..).mpr (by and_intros <;> exact relocate_id _)
  relocate_comp f g _ := (DelegateDeclaration.mk.injEq ..).mpr
    (by and_intros <;> exact relocate_comp f g _)

instance : LawfulRelocate EventDeclaration where
  relocate_id _ := (EventDeclaration.mk.injEq ..).mpr (by and_intros <;> exact relocate_id _)
  relocate_comp f g _ := (EventDeclaration.mk.injEq ..).mpr
    (by and_intros <;> exact relocate_comp f g _)

instance : LawfulRelocate CaseHeader where
  relocate_id a := by
    cases a with
    | case s => exact congrArg CaseHeader.case (relocate_id s)
    | caseElse => rfl
  relocate_comp f g a := by
    cases a with
    | case s => exact congrArg CaseHeader.case (relocate_comp f g s)
    | caseElse => rfl

section Trees

mutual

theorem Statement.moved_id : (s : Statement) → s.moved id = s
  | .stop _ | .endProgram _ | .elsePart _ | .caseElse _ | .finallyPart _ | .bad _ => rfl
  | .assignment _ | .compoundAssignment _ | .midAssignment _ | .call _ | .localDeclaration _
  | .label _ _ | .goTo _ _ | .exitBlock _ _ | .continueBlock _ _ | .returnValue _ _
  | .throwException _ _ | .raiseError _ _ | .raiseEvent _ _ _ | .handler _ | .onError _ _
  | .resume _ _ | .reDim _ _ _ | .erase _ _ | .endBlock _ | .loop _ | .next _ | .elseIf _
  | .case _ | .catchPart _ => by
    simp only [Statement.moved, relocate_id]
  | .ifBlock ⟨_, _, body, parts, _, _⟩ => by
    simp only [Statement.moved, relocate_id, movedStatements_id body,
      movedIfParts_id parts]
  | .lineIf ⟨_, _, body, _, others, _, _⟩ => by
    simp only [Statement.moved, relocate_id, movedStatements_id body,
      movedElse_id others, id_eq]
  | .doBlock ⟨_, body, _, _⟩ | .forBlock ⟨_, _, _, _, _, _, body, _, _, _⟩
  | .forEachBlock ⟨_, _, _, body, _, _, _⟩ | .whileBlock ⟨_, body, _, _⟩
  | .objectBlock ⟨_, _, body, _, _⟩ | .usingBlock ⟨_, body, _, _⟩ => by
    simp only [Statement.moved, relocate_id, movedStatements_id body]
  | .tryBlock ⟨body, parts, _, _⟩ => by
    simp only [Statement.moved, relocate_id, movedStatements_id body,
      movedTryParts_id parts]
  | .selectBlock ⟨_, _, leading, cases, _, _⟩ => by
    simp only [Statement.moved, relocate_id, movedStatements_id leading,
      movedCases_id cases]
  | .declaration d => by simp only [Statement.moved, d.moved_id]

theorem Declaration.moved_id : (d : Declaration) → d.moved id = d
  | .bad _ => rfl
  | .option _ _ _ | .imports _ _ | .attributes _ _ | .enumValue _ | .typeList _
  | .variableList _ | .external _ | .delegate _ | .event _ | .endBlock _ => by
    simp only [Declaration.moved, relocate_id]
  | .namespaceBlock ⟨_, members, _, _⟩ | .type ⟨_, _, _, _, members, _, _⟩
  | .enum ⟨_, _, _, members, _, _⟩ | .customEvent ⟨_, _, _, _, _, members, _, _⟩ => by
    simp only [Declaration.moved, relocate_id, movedDeclarations_id members]
  | .method ⟨_, _, _, _, _, _, _, _, body, _, _⟩ => by
    simp only [Declaration.moved, relocate_id, movedElse_id body]
  | .operator ⟨_, _, _, _, _, body, _, _⟩ | .accessor ⟨_, _, _, body, _, _⟩ => by
    simp only [Declaration.moved, relocate_id, movedStatements_id body]
  | .property ⟨_, _, _, _, _, members, _, _⟩ => by
    simp only [Declaration.moved, relocate_id, movedAccessors_id members]

theorem movedStatements_id : (b : Statements) → movedStatements id b = b
  | ⟨items, _, _⟩ => by
    simp only [movedStatements, relocate_id, movedStatementItems_id items]

theorem movedStatementItems_id : (items : List Statement) → movedStatementItems id items = items
  | [] => rfl
  | s :: rest => by simp only [movedStatementItems, s.moved_id, movedStatementItems_id rest]

theorem movedElse_id : (b : Option Statements) → movedElse id b = b
  | none => rfl
  | some b => by simp only [movedElse, movedStatements_id b]

theorem movedIfParts_id : (parts : List (IfPart Statement)) → movedIfParts id parts = parts
  | [] => rfl
  | .elseIf _ body _ :: rest | .elsePart _ body _ :: rest => by
    simp only [movedIfParts, relocate_id, movedStatements_id body,
      movedIfParts_id rest]

theorem movedTryParts_id : (parts : List (TryPart Statement)) → movedTryParts id parts = parts
  | [] => rfl
  | .catchPart _ body _ :: rest | .finallyPart _ body _ :: rest => by
    simp only [movedTryParts, relocate_id, movedStatements_id body,
      movedTryParts_id rest]

theorem movedCases_id : (cases : List (CaseBlock Statement)) → movedCases id cases = cases
  | [] => rfl
  | ⟨_, body, _⟩ :: rest => by
    simp only [movedCases, relocate_id, movedStatements_id body, movedCases_id rest]

theorem movedDeclarations_id : (b : Declarations) → movedDeclarations id b = b
  | ⟨items, _⟩ => by
    simp only [movedDeclarations, relocate_id, movedDeclarationItems_id items]

theorem movedDeclarationItems_id :
    (items : List Declaration) → movedDeclarationItems id items = items
  | [] => rfl
  | d :: rest => by
    simp only [movedDeclarationItems, d.moved_id, movedDeclarationItems_id rest]

theorem movedAccessors_id : (b : Option Declarations) → movedAccessors id b = b
  | none => rfl
  | some b => by simp only [movedAccessors, movedDeclarations_id b]

end

variable (f g : Location → Location)

mutual

theorem Statement.moved_comp : (s : Statement) → (s.moved g).moved f = s.moved (f ∘ g)
  | .stop _ | .endProgram _ | .elsePart _ | .caseElse _ | .finallyPart _ | .bad _ => rfl
  | .assignment _ | .compoundAssignment _ | .midAssignment _ | .call _ | .localDeclaration _
  | .label _ _ | .goTo _ _ | .exitBlock _ _ | .continueBlock _ _ | .returnValue _ _
  | .throwException _ _ | .raiseError _ _ | .raiseEvent _ _ _ | .handler _ | .onError _ _
  | .resume _ _ | .reDim _ _ _ | .erase _ _ | .endBlock _ | .loop _ | .next _ | .elseIf _
  | .case _ | .catchPart _ => by
    simp only [Statement.moved, relocate_comp]
  | .ifBlock ⟨_, _, body, parts, _, _⟩ => by
    simp only [Statement.moved, relocate_comp, movedStatements_comp body,
      movedIfParts_comp parts]
  | .lineIf ⟨_, _, body, _, others, _, _⟩ => by
    simp only [Statement.moved, relocate_comp, movedStatements_comp body,
      movedElse_comp others, Function.comp_apply]
  | .doBlock ⟨_, body, _, _⟩ | .forBlock ⟨_, _, _, _, _, _, body, _, _, _⟩
  | .forEachBlock ⟨_, _, _, body, _, _, _⟩ | .whileBlock ⟨_, body, _, _⟩
  | .objectBlock ⟨_, _, body, _, _⟩ | .usingBlock ⟨_, body, _, _⟩ => by
    simp only [Statement.moved, relocate_comp, movedStatements_comp body]
  | .tryBlock ⟨body, parts, _, _⟩ => by
    simp only [Statement.moved, relocate_comp, movedStatements_comp body,
      movedTryParts_comp parts]
  | .selectBlock ⟨_, _, leading, cases, _, _⟩ => by
    simp only [Statement.moved, relocate_comp, movedStatements_comp leading,
      movedCases_comp cases]
  | .declaration d => by simp only [Statement.moved, d.moved_comp]

theorem Declaration.moved_comp : (d : Declaration) → (d.moved g).moved f = d.moved (f ∘ g)
  | .bad _ => rfl
  | .option _ _ _ | .imports _ _ | .attributes _ _ | .enumValue _ | .typeList _
  | .variableList _ | .external _ | .delegate _ | .event _ | .endBlock _ => by
    simp only [Declaration.moved, relocate_comp]
  | .namespaceBlock ⟨_, members, _, _⟩ | .type ⟨_, _, _, _, members, _, _⟩
  | .enum ⟨_, _, _, members, _, _⟩ | .customEvent ⟨_, _, _, _, _, members, _, _⟩ => by
    simp only [Declaration.moved, relocate_comp, movedDeclarations_comp members]
  | .method ⟨_, _, _, _, _, _, _, _, body, _, _⟩ => by
    simp only [Declaration.moved, relocate_comp, movedElse_comp body]
  | .operator ⟨_, _, _, _, _, body, _, _⟩ | .accessor ⟨_, _, _, body, _, _⟩ => by
    simp only [Declaration.moved, relocate_comp, movedStatements_comp body]
  | .property ⟨_, _, _, _, _, members, _, _⟩ => by
    simp only [Declaration.moved, relocate_comp, movedAccessors_comp members]

theorem movedStatements_comp : (b : Statements) →
    movedStatements f (movedStatements g b) = movedStatements (f ∘ g) b
  | ⟨items, _, _⟩ => by
    simp only [movedStatements, relocate_comp, movedStatementItems_comp items]

theorem movedStatementItems_comp : (items : List Statement) →
    movedStatementItems f (movedStatementItems g items) = movedStatementItems (f ∘ g) items
  | [] => rfl
  | s :: rest => by simp only [movedStatementItems, s.moved_comp, movedStatementItems_comp rest]

theorem movedElse_comp : (b : Option Statements) → movedElse f (movedElse g b) = movedElse (f ∘ g) b
  | none => rfl
  | some b => by simp only [movedElse, movedStatements_comp b]

theorem movedIfParts_comp : (parts : List (IfPart Statement)) →
    movedIfParts f (movedIfParts g parts) = movedIfParts (f ∘ g) parts
  | [] => rfl
  | .elseIf _ body _ :: rest | .elsePart _ body _ :: rest => by
    simp only [movedIfParts, relocate_comp, movedStatements_comp body,
      movedIfParts_comp rest]

theorem movedTryParts_comp : (parts : List (TryPart Statement)) →
    movedTryParts f (movedTryParts g parts) = movedTryParts (f ∘ g) parts
  | [] => rfl
  | .catchPart _ body _ :: rest | .finallyPart _ body _ :: rest => by
    simp only [movedTryParts, relocate_comp, movedStatements_comp body,
      movedTryParts_comp rest]

theorem movedCases_comp : (cases : List (CaseBlock Statement)) →
    movedCases f (movedCases g cases) = movedCases (f ∘ g) cases
  | [] => rfl
  | ⟨_, body, _⟩ :: rest => by
    simp only [movedCases, relocate_comp, movedStatements_comp body, movedCases_comp rest]

theorem movedDeclarations_comp : (b : Declarations) →
    movedDeclarations f (movedDeclarations g b) = movedDeclarations (f ∘ g) b
  | ⟨items, _⟩ => by
    simp only [movedDeclarations, relocate_comp, movedDeclarationItems_comp items]

theorem movedDeclarationItems_comp :
    (items : List Declaration) →
      movedDeclarationItems f (movedDeclarationItems g items) = movedDeclarationItems (f ∘ g) items
  | [] => rfl
  | d :: rest => by
    simp only [movedDeclarationItems, d.moved_comp, movedDeclarationItems_comp rest]

theorem movedAccessors_comp : (b : Option Declarations) →
    movedAccessors f (movedAccessors g b) = movedAccessors (f ∘ g) b
  | none => rfl
  | some b => by simp only [movedAccessors, movedDeclarations_comp b]

end

end Trees

instance : LawfulRelocate Statement := ⟨Statement.moved_id, Statement.moved_comp⟩
instance : LawfulRelocate Declaration := ⟨Declaration.moved_id, Declaration.moved_comp⟩

instance : LawfulRelocate (StatementList α) where
  relocate_id _ := (StatementList.mk.injEq ..).mpr (by and_intros <;> exact relocate_id _)
  relocate_comp f g _ := (StatementList.mk.injEq ..).mpr
    (by and_intros <;> exact relocate_comp f g _)

instance : LawfulRelocate (DeclarationList α) where
  relocate_id _ := (DeclarationList.mk.injEq ..).mpr (by and_intros <;> exact relocate_id _)
  relocate_comp f g _ := (DeclarationList.mk.injEq ..).mpr
    (by and_intros <;> exact relocate_comp f g _)

instance : LawfulRelocate SourceFile where
  relocate_id _ := (SourceFile.mk.injEq ..).mpr ⟨relocate_id _, relocate_id _, relocate_id _⟩
  relocate_comp f g _ := (SourceFile.mk.injEq ..).mpr
    ⟨relocate_comp f g _, relocate_comp f g _, relocate_comp f g _⟩

instance : LawfulRelocate Script where
  relocate_id _ := (Script.mk.injEq ..).mpr ⟨relocate_id _, relocate_id _, relocate_id _⟩
  relocate_comp f g _ := (Script.mk.injEq ..).mpr
    ⟨relocate_comp f g _, relocate_comp f g _, relocate_comp f g _⟩

end Laws

end VisualBasic
