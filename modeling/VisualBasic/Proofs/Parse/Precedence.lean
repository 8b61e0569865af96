import VisualBasic.Proofs.Parse.Source

/-!
How operators group.  Wherever the parser is in an expression, it has taken in exactly the
operators that bind tighter than what it is reading for; from this every binary and unary
expression of a tree can be checked against the operators at the edges of its operands.
-/

set_option autoImplicit false

namespace VisualBasic

namespace Expression

/-- The levels of the operators that are still open to the right: the right operand of a binary
operator and the operand of a unary one could take in what follows. -/
def rightEdge : Expression → List Precedence
  | .binary _ op _ right _ => op.precedence :: right.rightEdge
  | .unary op operand _ => op.operandPrecedence :: operand.rightEdge
  | _ => []

/-- The levels of the binary operators that are open to the left. -/
def leftEdge : Expression → List Precedence
  | .binary left op _ _ _ => op.precedence :: left.leftEdge
  | _ => []

end Expression

namespace Node

/-- The operands of an operator bind at least as tightly as the operator, and tighter to the
right of it. -/
def Grouped : Node → Prop
  | .expression (.binary left op _ right _) =>
    (∀ level ∈ left.rightEdge, op.precedence ≤ level) ∧
      ∀ level ∈ right.leftEdge, op.precedence < level
  | .expression (.unary op operand _) => ∀ level ∈ operand.leftEdge, op.operandPrecedence < level
  | _ => True

def Neat (n : Node) : Prop := n.Everywhere Grouped

/-- The node is an operator with its operands. -/
def isOperation : Node → Bool
  | .expression (.binary ..) | .expression (.unary ..) => true
  | _ => false

theorem grouped_of_not_isOperation {n : Node} (plain : n.isOperation = false) : n.Grouped := by
  unfold Grouped
  split
  · simp [isOperation] at plain
  · simp [isOperation] at plain
  · trivial

theorem Neat.of {n : Node} {ns : List Node} (plain : n.isOperation = false)
    (children : n.children = ns) (below : ∀ c ∈ ns, c.Neat) : n.Neat :=
  everywhere_iff.2 ⟨grouped_of_not_isOperation plain, children ▸ below⟩

theorem Neat.leaf {n : Node} (plain : n.isOperation = false) (children : n.children = []) :
    n.Neat :=
  .of plain children (by simp)

theorem neat_cons {n : Node} {ns : List Node} (first : n.Neat) (rest : ∀ m ∈ ns, m.Neat) :
    ∀ m ∈ n :: ns, m.Neat :=
  List.forall_mem_cons.2 ⟨first, rest⟩

theorem neat_nil : ∀ n ∈ ([] : List Node), n.Neat := by simp

theorem neat_append {ns ms : List Node} (first : ∀ n ∈ ns, n.Neat) (rest : ∀ m ∈ ms, m.Neat) :
    ∀ m ∈ ns ++ ms, m.Neat :=
  List.forall_mem_append.2 ⟨first, rest⟩

end Node

/-- The expression is no operator with operands, and the operators within it are grouped. -/
structure Expression.Plain (e : Expression) : Prop where
  neat : (Node.expression e).Neat
  left : e.leftEdge = []
  right : e.rightEdge = []

/-- Where an expression ends that was read for `pending`: it has taken in all operators that bind
tighter, and the next operator does not bind tighter than any that is open to it. -/
structure Expression.Settled (e : Expression) (pending : Precedence) (t : ParseState) : Prop where
  neat : (Node.expression e).Neat
  left : ∀ level ∈ e.leftEdge, pending < level
  right : ∀ op, BinaryOperator.ofKind? t.kind = some op →
    op.precedence ≤ pending ∧ ∀ level ∈ e.rightEdge, op.precedence ≤ level

/-- An expression that could take in the next operator: it does not bind tighter than any operator
that is open to it. -/
structure Expression.Open (e : Expression) (t : ParseState) : Prop where
  neat : (Node.expression e).Neat
  right : ∀ op, BinaryOperator.ofKind? t.kind = some op → ∀ level ∈ e.rightEdge, op.precedence ≤ level

/-- Phrases that start here are nested less than `k` deep. -/
structure ParseState.Within (k : Nat) (s : ParseState) : Prop where
  wf : s.Wf
  fewer : s.remaining < k

/-- The rules for nested phrases group operators, for phrases nested less than `k` deep. -/
structure Rules.Neat (r : Rules) (k : Nat) : Prop where
  sound : r.Sound
  expression : ∀ pending s, s.Within k →
    Ensures (r.expression pending) s fun e t => e.Settled pending t
  operand : ∀ s, s.Within k → Ensures r.operand s fun e _ => (Node.expression e).Neat
  typeName : ∀ s, s.Within k → Ensures r.typeName s fun t _ => (Node.typeName t).Neat
  elements : ∀ s, s.Within k → Ensures r.elements s fun a _ => (Node.aggregate a).Neat

section Within

variable {α β : Type} {k : Nat} {s t : ParseState} {p : Parse α} {Q : β → ParseState → Prop}

/-- Behind a token, phrases are nested one less deep. -/
theorem ParseState.Within.advance (wf : s.Wf) (bound : s.remaining ≤ k)
    (solid : s.kind.isSolid = true) : s.advance.Within k := by
  have fewer := (limit_advance wf (kind_ne_endOfStream solid)).2.2
  exact ⟨((Stretch.refl wf).pass solid).wf, by omega⟩

theorem ParseState.Within.later {lo : Nat} {ns : List Node} {owed : List (BlockKind × Nat)}
    (within : s.Within k) (so : Stretch lo s t ns owed) : t.Within k :=
  ⟨so.wf, Nat.lt_of_le_of_lt so.later.remaining within.fewer⟩

theorem ParseState.Within.bound (within : s.Within k) : s.remaining ≤ k := Nat.le_of_lt within.fewer

theorem Ensures.enter {f : Token → Parse β} (wf : s.Wf) (bound : s.remaining ≤ k)
    (solid : s.kind.isSolid = true)
    (rest : s.advance.Within k → Ensures (f s.current) s.advance Q) :
    Ensures (Parse.read >>= f) s Q :=
  rest (.advance wf bound solid)

theorem Ensures.pass {f : Unit → Parse β} (wf : s.Wf) (bound : s.remaining ≤ k)
    (solid : s.kind.isSolid = true) (rest : s.advance.Within k → Ensures (f ()) s.advance Q) :
    Ensures (Parse.skip >>= f) s Q :=
  rest (.advance wf bound solid)

/-- A part of a phrase that has been started. -/
theorem Ensures.next {nodes : α → List Node} {P : α → Prop} {f : α → Parse β}
    (within : s.Within k) (yields : Yields p s nodes) (holds : Ensures p s fun a _ => P a)
    (rest : ∀ a t, t.Within k → P a → Ensures (f a) t Q) : Ensures (p >>= f) s Q :=
  (yields.and holds).bind fun a t ⟨so, holds⟩ => rest a t (within.later so) holds

theorem Ensures.step {f : α → Parse β} (within : s.Within k)
    (yields : Ensures p s fun _ t => Stretch s.here s t [] [])
    (rest : ∀ a t, t.Within k → Ensures (f a) t Q) : Ensures (p >>= f) s Q :=
  yields.bind fun a t so => rest a t (within.later so)

theorem Ensures.optional {c : Bool} {P : Option α → Prop} (none : P none)
    (some : c = true → Ensures p s fun a _ => P (some a)) :
    Ensures (Parse.optionally c p) s fun a _ => P a := by
  unfold Parse.optionally
  split
  next holds => exact (some holds).bind fun _ _ neat => neat
  next => exact none

end Within

theorem Expression.Plain.of {e : Expression} {ns : List Node}
    (plain : (Node.expression e).isOperation = false)
    (children : (Node.expression e).children = ns) (below : ∀ c ∈ ns, c.Neat) : e.Plain := by
  refine ⟨.of plain children below, ?_, ?_⟩
  all_goals cases e <;> first | rfl | simp [Node.isOperation] at plain

namespace Parse

variable {k : Nat} {r : Rules} {s : ParseState}

theorem separatedFrom_neat {α σ : Type} {item : σ → Parse (α × Option σ)} (nodes : α → List Node)
    (yields : ∀ state s, s.Wf → Yields (item state) s fun a => nodes a.1)
    (each : ∀ state s, s.Within k → Ensures (item state) s fun a _ => ∀ n ∈ nodes a.1, n.Neat)
    (n : Nat) (state : σ) (within : s.Within k) :
    Ensures (separatedFrom item n state) s fun a _ => ∀ m ∈ a.items.flatMap nodes, m.Neat := by
  induction n generalizing s state with
  | zero =>
    refine (each state s within).bind fun first t neat => .pure ?_
    simpa [Separated.items] using neat
  | succ n ih =>
    refine .next within (yields state s within.wf) (each state s within) fun first t within neat => ?_
    obtain ⟨first, goesOn⟩ := first
    have only : ∀ m ∈ (⟨first, []⟩ : Separated α).items.flatMap nodes, m.Neat := by
      simpa [Separated.items] using neat
    cases goesOn with
    | none => exact only
    | some state =>
      refine .step within (((Stretch.refl within.wf).eatPlace rfl).mono fun _ _ so => so.1)
        fun comma u within => ?_
      cases comma with
      | none => exact only
      | some comma =>
        refine (ih state within).bind fun rest v more => .pure ?_
        simp only [Separated.items, Separated.cons, List.map_cons, List.flatMap_cons,
          List.mem_append] at more ⊢
        rintro m (early | late)
        · exact neat m early
        · exact more m late

theorem separated_neat {α : Type} {item : Parse α} {nodes : α → List Node}
    (yields : ∀ s, s.Wf → Yields item s nodes)
    (each : ∀ s, s.Within k → Ensures item s fun a _ => ∀ n ∈ nodes a, n.Neat)
    (within : s.Within k) :
    Ensures (separated item) s fun a _ => ∀ m ∈ a.items.flatMap nodes, m.Neat := by
  refine .get (separatedFrom_neat nodes (fun _ s wf => ?_) (fun _ s within => ?_) _ () within)
  · exact (yields s wf).bind fun _ _ so => so
  · exact (each s within).bind fun _ _ neat => neat

-- Types

theorem typeArguments_neat (neat : r.Neat k) (wf : s.Wf) (bound : s.remaining ≤ k)
    (starts : s.atTypeArguments = true) :
    Ensures (typeArguments r) s fun a _ => ∀ n ∈ Node.ofTypeArguments (some a), n.Neat := by
  obtain ⟨first, second⟩ := isSolid_of_atTypeArguments starts
  have items : Ensures (genericList TypeName.span r.typeName) s fun a _ =>
      ∀ n ∈ a.2.2.1.items.map Node.typeName, n.Neat := by
    refine .enter wf bound first fun within => ?_
    refine .enter within.wf within.bound (by rwa [ParseState.kind_advance wf first]) fun within => ?_
    refine (separated_neat neat.sound.typeName (fun s within => ?_) within).bind
      fun items t facts => ?_
    · exact (neat.typeName s within).mono fun a _ own => by simpa using own
    · rw [flatMap_node] at facts
      exact facts
  exact items.bind fun _ _ facts => facts

theorem simpleName_neat (name : SimpleName) : (Node.simpleName name).Neat := .leaf rfl rfl

theorem name_neat (name : Name) : (Node.ofName name).Neat := by
  induction name with
  | simple n => exact simpleName_neat n
  | special | globalNamespace => exact .leaf rfl rfl
  | qualified qualifier dot part span ih =>
    exact .of rfl rfl (Node.neat_cons ih (Node.neat_cons (simpleName_neat part) Node.neat_nil))

theorem badType_neat (problem : Problem) (s : ParseState) :
    Ensures (badType problem) s fun t _ => (Node.typeName t).Neat :=
  Ensures.any.bind fun _ _ _ => Ensures.any.bind fun _ _ _ => .pure (.leaf rfl rfl)

theorem elementType_neat (neat : r.Neat k) (wf : s.Wf) (bound : s.remaining ≤ k) :
    Ensures (elementType r) s fun t _ => (Node.typeName t).Neat := by
  refine .peek ?_
  split
  · exact Node.Neat.leaf rfl rfl
  · split
    · refine (name_yields wf).bind fun name t so => .get ?_
      split
      next starts =>
        have fewer := so.later.remaining
        refine (typeArguments_neat neat so.wf (by omega) starts).bind fun arguments u more => ?_
        exact Node.Neat.of rfl rfl (Node.neat_cons (name_neat name) more)
      next => exact Node.Neat.of rfl rfl (Node.neat_cons (name_neat name) Node.neat_nil)
    · exact badType_neat _ s

theorem arrayBound_neat (neat : r.Neat k) (within : s.Within k) :
    Ensures (arrayBound r) s fun b _ => (Node.arrayBound b).Neat := by
  refine .next within (value_yields neat.sound within.wf)
    ((neat.expression _ s within).mono fun _ _ facts => facts.neat) fun first t within own => ?_
  refine .step within (((Stretch.refl within.wf).eatPlace rfl).mono fun _ _ so => so.1)
    fun toKeyword u within => ?_
  cases toKeyword with
  | some toKeyword =>
    refine (neat.expression _ u within).bind fun upper v facts => ?_
    exact Node.Neat.of rfl rfl (Node.neat_cons own (Node.neat_cons facts.neat Node.neat_nil))
  | none => exact Node.Neat.of rfl rfl (Node.neat_cons own Node.neat_nil)

theorem dimension_neat (neat : r.Neat k) (within : s.Within k) :
    Ensures (dimension r) s fun b _ => ∀ n ∈ Node.ofOption .arrayBound b, n.Neat := by
  refine .get (Ensures.optional Node.neat_nil fun _ => ?_)
  exact (arrayBound_neat neat within).mono fun _ _ own => Node.neat_cons own Node.neat_nil

theorem arrayBounds_neat (neat : r.Neat k) (allowBounds : Bool) (wf : s.Wf)
    (bound : s.remaining ≤ k) (solid : s.kind.isSolid = true) :
    Ensures (arrayBounds r allowBounds) s fun b _ =>
      ∀ n ∈ b.bounds.items.map Node.arrayBound, n.Neat := by
  refine .enter wf bound solid fun within => ?_
  refine (separated_neat (fun _ wf => dimension_yields neat.sound wf)
    (fun _ within => dimension_neat neat within) within).bind fun dimensions t facts => ?_
  rw [flatMap_ofOption] at facts
  extract_lets rank bounds close
  have closes (list : CommaList (ArrayBound Expression)) (u : ParseState)
      (facts : ∀ n ∈ list.items.map Node.arrayBound, n.Neat) :
      Ensures (close list) u fun b _ => ∀ n ∈ b.bounds.items.map Node.arrayBound, n.Neat :=
    Ensures.any.bind fun _ _ _ => facts
  split
  · extract_lets span give check
    have checked (u : ParseState) : Ensures (check ()) u fun b _ =>
        ∀ n ∈ b.bounds.items.map Node.arrayBound, n.Neat := by
      unfold check
      split
      · exact closes _ u facts
      · exact Ensures.any.bind fun _ v _ => closes _ v facts
    split
    · exact Ensures.any.bind fun _ u _ => Ensures.any.bind fun _ v _ => checked v
    · exact checked t
  · exact closes _ t Node.neat_nil

theorem arrayOver_neat {element : TypeName} {bounds : ArrayBounds Expression}
    (own : (Node.typeName element).Neat)
    (more : ∀ n ∈ bounds.bounds.items.map Node.arrayBound, n.Neat) (span : Span) :
    (Node.typeName (arrayOver element bounds span)).Neat :=
  .of rfl (children_arrayOver element bounds span) (Node.neat_cons own more)

theorem arraySuffixes_neat (neat : r.Neat k) (n : Nat) {element : TypeName} (wf : s.Wf)
    (bound : s.remaining ≤ k) (own : (Node.typeName element).Neat) :
    Ensures (arraySuffixes r n element) s fun t _ => (Node.typeName t).Neat := by
  induction n generalizing s element with
  | zero => exact own
  | succ n ih =>
    refine .get ?_
    split
    next starts =>
      have solid : s.kind.isSolid = true := by
        simp only [Bool.and_eq_true, beq_iff_eq] at starts
        rw [starts.1]
        rfl
      refine ((arrayBounds_yields neat.sound false wf solid).and
        (arrayBounds_neat neat false wf bound solid)).bind fun bounds t ⟨so, more⟩ => .spanFrom ?_
      have fewer := so.later.remaining
      exact ih so.wf (by omega) (arrayOver_neat own more _)
    next => exact own

theorem typeName_neat (neat : r.Neat k) (wf : s.Wf) (bound : s.remaining ≤ k) :
    Ensures (typeName r) s fun t _ => (Node.typeName t).Neat := by
  refine ((elementType_yields neat.sound wf).and (elementType_neat neat wf bound)).bind
    fun element t ⟨so, own⟩ => ?_
  have fewer := so.later.remaining
  split
  · exact own
  · exact .get (arraySuffixes_neat neat _ so.wf (by omega) own)

-- Arguments

theorem argument_neat (neat : r.Neat k) (named : Bool) (within : s.Within k) :
    Ensures (argument r named) s fun a _ => (Node.argument a.1).Neat := by
  refine .get ?_
  extract_lets token leaveOut give
  have given (t : ParseState) (within : t.Within k) :
      Ensures (give ()) t fun a _ => (Node.argument a.1).Neat :=
    (neat.expression _ t within).bind fun _ _ facts =>
      .pure (.of rfl rfl (Node.neat_cons facts.neat Node.neat_nil))
  split
  · split
    · exact Ensures.any.bind fun _ _ _ => Node.Neat.leaf rfl rfl
    · exact Node.Neat.leaf rfl rfl
  · split
    next spelled =>
      simp only [Bool.and_eq_true, beq_iff_eq] at spelled
      have solid := isSolid_of_name? spelled.1
      have mark : s.advance.kind.isSolid = true := by
        rw [ParseState.kind_advance within.wf solid, spelled.2]
        rfl
      refine .pass within.wf within.bound solid fun within => ?_
      refine .enter within.wf within.bound mark fun within => ?_
      refine (neat.expression _ _ within).bind fun value u facts => ?_
      exact Node.Neat.of rfl rfl
        (Node.neat_cons (simpleName_neat _) (Node.neat_cons facts.neat Node.neat_nil))
    next =>
      split
      · exact .step within (((Stretch.refl within.wf).report _ rfl fun _ => within.wf.stream.order).mono
          fun _ _ so => so.1)
          fun _ t within => given t within
      · exact given s within

theorem argumentList_neat (neat : r.Neat k) (wf : s.Wf) (bound : s.remaining ≤ k)
    (solid : s.kind.isSolid = true) :
    Ensures (argumentList r) s fun a _ => ∀ n ∈ Node.ofArguments (some a), n.Neat := by
  have items (t : ParseState) (within : t.Within k) : Ensures (separatedArguments r) t fun a _ =>
      ∀ n ∈ a.items.map Node.argument, n.Neat := by
    refine .get ?_
    refine (separatedFrom_neat (fun a => [.argument a]) (fun named t wf => ?_)
      (fun named t within => ?_) _ _ within).mono fun a u facts => ?_
    · exact (argument_yields neat.sound named wf).bind fun _ _ so => so
    · exact (argument_neat neat named within).bind fun _ _ own => Node.neat_cons own Node.neat_nil
    · rwa [flatMap_node] at facts
  refine .enter wf bound solid fun within => .check ?_
  extract_lets close
  have closes (arguments : CommaList (Argument Expression)) (u : ParseState)
      (facts : ∀ n ∈ arguments.items.map Node.argument, n.Neat) :
      Ensures (close arguments) u fun a _ => ∀ n ∈ Node.ofArguments (some a), n.Neat := by
    refine Ensures.any.bind fun place v _ => ?_
    cases place with
    | some place => exact facts
    | none => exact Ensures.any.bind fun _ w _ => Ensures.any.bind fun _ _ _ => facts
  split
  · exact closes _ _ Node.neat_nil
  · exact (items _ within).bind fun _ _ facts => closes _ _ facts

-- Operands

theorem nameExpression_neat (neat : r.Neat k) (token : Token) (within : s.Within k) :
    Ensures (nameExpression r token) s fun e _ => e.Plain := by
  refine .get ?_
  refine (Ensures.optional (P := fun a => ∀ n ∈ Node.ofTypeArguments a, n.Neat) Node.neat_nil
    fun starts => typeArguments_neat neat within.wf within.bound starts).bind fun arguments t more => ?_
  exact Expression.Plain.of rfl rfl (Node.neat_cons (simpleName_neat _) more)

theorem qualifier_neat {qualifier : Option Expression}
    (own : ∀ q, qualifier = some q → (Node.expression q).Neat) :
    ∀ n ∈ Node.ofOption Node.expression qualifier, n.Neat := by
  cases qualifier with
  | none => exact Node.neat_nil
  | some q => exact Node.neat_cons (own q rfl) Node.neat_nil

theorem memberAccess_neat (neat : r.Neat k) {qualifier : Option Expression} (dot : Location)
    (own : ∀ q, qualifier = some q → (Node.expression q).Neat) (within : s.Within k) :
    Ensures (memberAccess r qualifier dot) s fun e _ => e.Plain := by
  refine .next within (memberName_yields within.wf) .any fun name t within _ => .get ?_
  refine (Ensures.optional (P := fun a => ∀ n ∈ Node.ofTypeArguments a, n.Neat) Node.neat_nil
    fun starts => ?_).bind fun arguments u more => ?_
  · exact typeArguments_neat neat within.wf within.bound (Bool.and_eq_true _ _ ▸ starts).2
  · exact Expression.Plain.of rfl rfl
      (Node.neat_append (qualifier_neat own) (Node.neat_cons (simpleName_neat _) more))

theorem dictionaryLookup_neat {qualifier : Option Expression} (bang : Location)
    (own : ∀ q, qualifier = some q → (Node.expression q).Neat) (s : ParseState) :
    Ensures (dictionaryLookup qualifier bang) s fun e _ => e.Plain := by
  refine Ensures.any.bind fun name t _ => ?_
  exact Expression.Plain.of rfl rfl
    (Node.neat_append (qualifier_neat own) (Node.neat_cons (simpleName_neat _) Node.neat_nil))

theorem parenthesized_neat (neat : r.Neat k) (wf : s.Wf) (bound : s.remaining ≤ k)
    (solid : s.kind.isSolid = true) : Ensures (parenthesized r) s fun e _ => e.Plain := by
  refine .enter wf bound solid fun within => ?_
  refine (neat.expression _ _ within).bind fun operand t facts => ?_
  exact Ensures.any.bind fun _ _ _ => Expression.Plain.of rfl rfl (Node.neat_cons facts.neat Node.neat_nil)

theorem bad_neat (span : Span) : (Node.typeName (.bad span)).Neat := .leaf rfl rfl

theorem typeTest_neat (neat : r.Neat k) (wf : s.Wf) (bound : s.remaining ≤ k)
    (solid : s.kind.isSolid = true) : Ensures (typeTest r) s fun e _ => e.Plain := by
  refine .enter wf bound solid fun within => ?_
  refine .next within (neat.sound.expression _ _ within.wf)
    ((neat.expression _ _ within).mono fun _ _ facts => facts.neat) fun operand t within own => ?_
  refine .step within (((Stretch.refl within.wf).expectPlace rfl rfl).mono fun _ _ so => so.1)
    fun isKeyword u within => ?_
  extract_lets finish
  have finishes (type : TypeName) (v : ParseState) (also : (Node.typeName type).Neat) :
      Ensures (finish type) v fun e _ => e.Plain :=
    Expression.Plain.of rfl rfl (Node.neat_cons own (Node.neat_cons also Node.neat_nil))
  split
  · exact (neat.typeName _ within).bind fun type v also => finishes type v also
  · exact Ensures.any.bind fun _ v _ => finishes _ v (bad_neat _)

/-- After the keyword of a conversion, a parenthesis is expected. -/
theorem openParenthesis_within {α : Type} {f : Unit → Parse α} {Q : α → ParseState → Prop}
    (within : s.Within k) (rest : ∀ t, t.Within k → Ensures (f ()) t Q) :
    Ensures (openParenthesis >>= f) s Q :=
  .step within (openParenthesis_stretch (.refl within.wf)) fun _ t within => rest t within

theorem typeObject_neat (neat : r.Neat k) (wf : s.Wf) (bound : s.remaining ≤ k)
    (solid : s.kind.isSolid = true) : Ensures (typeObject r) s fun e _ => e.Plain := by
  refine .enter wf bound solid fun within => openParenthesis_within within fun t within => ?_
  refine (neat.typeName _ within).bind fun type u own => ?_
  exact Ensures.any.bind fun _ _ _ => Expression.Plain.of rfl rfl (Node.neat_cons own Node.neat_nil)

theorem cast_neat (neat : r.Neat k) (kind : CastKind) (wf : s.Wf) (bound : s.remaining ≤ k)
    (solid : s.kind.isSolid = true) : Ensures (cast r kind) s fun e _ => e.Plain := by
  refine .enter wf bound solid fun within => openParenthesis_within within fun t within => ?_
  refine .next within (value_yields neat.sound within.wf)
    ((neat.expression _ _ within).mono fun _ _ facts => facts.neat) fun operand u within own => ?_
  refine .step within (((Stretch.refl within.wf).expectPlace rfl rfl).mono fun _ _ so => so.1)
    fun comma v within => ?_
  refine (neat.typeName _ within).bind fun type w also => ?_
  exact Ensures.any.bind fun _ _ _ =>
    Expression.Plain.of rfl rfl (Node.neat_cons own (Node.neat_cons also Node.neat_nil))

theorem intrinsicCast_neat (neat : r.Neat k) (target : IntrinsicType) (wf : s.Wf)
    (bound : s.remaining ≤ k) (solid : s.kind.isSolid = true) :
    Ensures (intrinsicCast r target) s fun e _ => e.Plain := by
  refine .enter wf bound solid fun within => openParenthesis_within within fun t within => ?_
  refine (neat.expression _ _ within).bind fun operand u facts => ?_
  exact Ensures.any.bind fun _ _ _ => Expression.Plain.of rfl rfl (Node.neat_cons facts.neat Node.neat_nil)

theorem initializer_neat (neat : r.Neat k) (within : s.Within k) :
    Ensures (initializer r) s fun i _ => (Node.ofInitializer i).Neat := by
  refine .check ?_
  split
  · exact (neat.elements s within).bind fun _ _ own => own
  · exact (neat.expression _ s within).bind fun _ _ facts => facts.neat

theorem elements_neat (neat : r.Neat k) (wf : s.Wf) (bound : s.remaining ≤ k) :
    Ensures (elements r) s fun a _ => (Node.aggregate a).Neat := by
  refine ((Stretch.refl wf).eatPlace rfl).bind fun openBrace t ⟨so, cases⟩ => ?_
  rcases cases with ⟨rfl, -, -⟩ | ⟨rfl, rfl, isBrace⟩
  · exact Ensures.any.bind fun _ _ _ => Ensures.any.bind fun _ _ _ => Node.Neat.leaf rfl rfl
  · have within := ParseState.Within.advance wf bound (by rw [isBrace]; rfl)
    refine .check ?_
    extract_lets close
    have closes (elements : CommaList Initializer) (u : ParseState)
        (facts : ∀ n ∈ elements.items.map Node.ofInitializer, n.Neat) :
        Ensures (close elements) u fun a _ => (Node.aggregate a).Neat :=
      Ensures.any.bind fun _ _ _ => Node.Neat.of rfl rfl facts
    split
    · exact closes _ _ Node.neat_nil
    · refine Ensures.bind (P := fun a _ => ∀ n ∈ a.items.map Node.ofInitializer, n.Neat) ?_
        fun elements u facts => closes elements u facts
      refine (separated_neat (fun _ wf => initializer_yields neat.sound wf) (fun s within => ?_)
        within).bind fun found u facts => ?_
      · exact (initializer_neat neat within).mono fun _ _ own => Node.neat_cons own Node.neat_nil
      · rw [flatMap_node] at facts
        exact facts

theorem creation_neat (neat : r.Neat k) (wf : s.Wf) (bound : s.remaining ≤ k)
    (solid : s.kind.isSolid = true) : Ensures (creation r) s fun e _ => e.Plain := by
  refine .enter wf bound solid fun within => ?_
  refine ((elementType_yields neat.sound within.wf).and
    (elementType_neat neat within.wf within.bound)).bind fun type t ⟨typed, own⟩ => .get ?_
  have atType := within.later typed
  split
  next array =>
    have starts := isSolid_of_atArraySize (Bool.and_eq_true _ _ ▸ array).2
    refine ((arrayBounds_yields neat.sound true atType.wf starts).and
      (arrayBounds_neat neat true atType.wf atType.bound starts)).bind
      fun bounds u ⟨so, more⟩ => .spanFrom (.get ?_)
    have atBounds := atType.later so
    refine ((arraySuffixes_yields neat.sound _ (array_type typed so)).and
      (arraySuffixes_neat neat _ atBounds.wf atBounds.bound (arrayOver_neat own more _))).bind
      fun array v ⟨typed, own⟩ => ?_
    have atElements := within.later typed
    refine (elements_neat neat atElements.wf atElements.bound).bind fun elements w also => ?_
    exact Expression.Plain.of rfl rfl (Node.neat_cons own (Node.neat_cons also Node.neat_nil))
  next =>
    refine .check ?_
    refine (Ensures.optional (P := fun a => ∀ n ∈ Node.ofArguments a, n.Neat) Node.neat_nil
      fun starts => ?_).bind fun arguments u more => ?_
    · have paren := (Bool.and_eq_true _ _ ▸ starts).2
      exact argumentList_neat neat atType.wf atType.bound (by rw [beq_iff_eq.1 paren]; rfl)
    · exact Expression.Plain.of rfl rfl (Node.neat_cons own more)

theorem badExpression_plain (s : ParseState) :
    Ensures badExpression s fun e _ => e.Plain :=
  Ensures.any.bind fun _ _ _ => Ensures.any.bind fun _ _ _ => .pure (.of rfl rfl Node.neat_nil)

theorem keywordExpression_neat (neat : r.Neat k) {keyword : Keyword} (wf : s.Wf)
    (bound : s.remaining ≤ k) (kind : s.kind = .word keyword) :
    Ensures (keywordExpression r s.current keyword) s fun e _ => e.Plain := by
  have solid : s.kind.isSolid = true := by rw [kind]; rfl
  unfold keywordExpression
  split
  · refine Ensures.any.bind fun _ t _ => .check ?_
    extract_lets give
    split
    · exact Expression.Plain.of rfl rfl Node.neat_nil
    · exact Ensures.any.bind fun _ _ _ => Expression.Plain.of rfl rfl Node.neat_nil
  · exact Expression.Plain.of rfl rfl Node.neat_nil
  · exact typeTest_neat neat wf bound solid
  · exact typeObject_neat neat wf bound solid
  · exact cast_neat neat _ wf bound solid
  · exact cast_neat neat _ wf bound solid
  · exact cast_neat neat _ wf bound solid
  · exact creation_neat neat wf bound solid
  · refine .pass wf bound solid fun within => ?_
    refine (neat.operand _ within).bind fun operand t own => ?_
    exact Expression.Plain.of rfl rfl (Node.neat_cons own Node.neat_nil)
  · split
    · exact Expression.Plain.of rfl rfl Node.neat_nil
    next target _ _ => exact intrinsicCast_neat neat target wf bound solid
    next =>
      refine .kindAfter ?_
      split
      · exact .pass wf bound solid fun within => nameExpression_neat neat _ within
      · exact badExpression_plain s

theorem primary_neat (neat : r.Neat k) (wf : s.Wf) (bound : s.remaining ≤ k) :
    Ensures (primary r) s fun e _ => e.Plain := by
  refine .peek ?_
  split
  · exact Expression.Plain.of rfl rfl Node.neat_nil
  · split
    next kind =>
      exact .pass wf bound (by rw [ParseState.kind, kind]; rfl) fun within =>
        nameExpression_neat neat _ within
    next keyword kind => exact keywordExpression_neat neat wf bound kind
    next kind => exact parenthesized_neat neat wf bound (by rw [ParseState.kind, kind]; rfl)
    next kind =>
      exact .pass wf bound (by rw [ParseState.kind, kind]; rfl) fun within =>
        memberAccess_neat neat _ (by simp) within
    next kind => exact Ensures.any.bind fun _ t _ => dictionaryLookup_neat _ (by simp) t
    next => exact Ensures.any.bind fun _ _ _ => Expression.Plain.of rfl rfl Node.neat_nil
    next => exact badExpression_plain s

/-- The target has been read since `o`, so what follows it is nested as deep. -/
theorem postfixes_neat {lo : Nat} {o : ParseState} (neat : r.Neat k) (n : Nat) {target : Expression}
    (bound : o.remaining ≤ k) (so : Stretch lo o s [.expression target] []) (plain : target.Plain) :
    Ensures (postfixes r n target) s fun e _ => e.Plain := by
  induction n generalizing s target with
  | zero => exact plain
  | succ n ih =>
    have lower := (so.fits _ (List.mem_singleton.2 rfl)).start
    have here : s.remaining ≤ k := so.later.remaining.trans bound
    have qualifies (q : Expression) (same : some target = some q) : (Node.expression q).Neat := by
      cases same
      exact plain.neat
    have goOn (t : ParseState) (e : Expression) (so : Stretch lo o t [.expression e] [])
        (plain : e.Plain) :
        Ensures (if endsInMissingName e then pure e else postfixes r n e) t fun e _ => e.Plain := by
      split
      · exact plain
      · exact ih so plain
    refine .peek ?_
    split
    next kind =>
      have solid : s.kind.isSolid = true := by rw [ParseState.kind, kind]; rfl
      have within := ParseState.Within.advance so.wf here solid
      have member := memberAccess_yields (some target) s.current.span.start neat.sound
        (so.rebase.pass solid) lower
      exact goOn _ _ member (memberAccess_neat neat s.current.span.start qualifies within)
    next kind =>
      have solid : s.kind.isSolid = true := by rw [ParseState.kind, kind]; rfl
      have member := dictionaryLookup_yields (some target) s.current.span.start
        (so.rebase.pass solid) lower
      exact goOn _ _ member (dictionaryLookup_neat s.current.span.start qualifies s.advance)
    next kind =>
      have solid : s.kind.isSolid = true := by rw [ParseState.kind, kind]; rfl
      refine ((argumentList_yields neat.sound so.wf solid).and
        (argumentList_neat neat so.wf here solid)).bind fun arguments t facts => ?_
      obtain ⟨⟨more, -, names⟩, neatly⟩ := facts
      have long := so.rebase.append more
      have call := (long.wrap (n := .expression (.callOrIndex target arguments _))
        (long.reached List.mem_cons_self) rfl rfl
        (fun none => Node.isProper_of_arguments (names none) rfl) rfl rfl (fun _ _ => rfl)
        fun _ => Node.orderly_of_flat rfl _).weaken lower
      exact ih call (.of rfl rfl (Node.neat_cons plain.neat neatly))
    next => exact plain

theorem operand_neat (neat : r.Neat k) (wf : s.Wf) (bound : s.remaining ≤ k) :
    Ensures (operand r) s fun e _ => e.Plain := by
  refine ((primary_yields neat.sound wf).and (primary_neat neat wf bound)).bind
    fun target t ⟨so, plain⟩ => ?_
  split
  · exact plain
  · exact .get (postfixes_neat neat _ bound so plain)

-- Operators

theorem ofKind?_endOfStream (wf : s.Wf) (atEnd : s.remaining = 0) :
    BinaryOperator.ofKind? s.kind = none := by
  rw [(ParseState.remaining_eq_zero_iff wf).1 atEnd]
  rfl

theorem unary_neat (neat : r.Neat k) (wf : s.Wf) (bound : s.remaining ≤ k) :
    Ensures (unary r) s fun e t => e.Open t ∧ e.leftEdge = [] := by
  refine .peek ?_
  split
  · refine (operand_neat neat wf bound).mono fun e t plain => ⟨⟨plain.neat, ?_⟩, plain.left⟩
    simp [plain.right]
  next op denotes =>
    refine .pass wf bound (isSolid_of_unary denotes) fun within => ?_
    refine (neat.expression _ _ within).bind fun operand t settled => .spanFrom ?_
    refine .pure ⟨⟨?_, ?_⟩, rfl⟩
    · exact Node.everywhere_iff.2
        ⟨settled.left, Node.neat_cons settled.neat Node.neat_nil⟩
    · intro next denotes level member
      obtain ⟨looser, below⟩ := settled.right next denotes
      rcases List.mem_cons.1 member with rfl | inside
      · exact looser
      · exact below level inside

/-- One more operator: the left operand binds at least as tightly, since the operator did not bind
tighter than what is open to the right of it, and the right operand was read for the operator. -/
theorem binary_neat {left right : Expression} {op : BinaryOperator} {t : ParseState}
    (opSpan span : Span) (before : left.Open s) (denotes : BinaryOperator.ofKind? s.kind = some op)
    (settled : right.Settled op.precedence t) :
    (Expression.binary left op opSpan right span).Open t := by
  constructor
  · refine Node.everywhere_iff.2 ⟨⟨before.right op denotes, settled.left⟩, ?_⟩
    exact Node.neat_cons before.neat (Node.neat_cons settled.neat Node.neat_nil)
  · intro next denotes level member
    obtain ⟨looser, below⟩ := settled.right next denotes
    rcases List.mem_cons.1 member with rfl | inside
    · exact looser
    · exact below level inside

theorem binaries_neat (neat : r.Neat k) (pending : Precedence) (n : Nat) {left : Expression}
    (wf : s.Wf) (bound : s.remaining ≤ k) (fuel : s.remaining ≤ n) (before : left.Open s)
    (tight : ∀ level ∈ left.leftEdge, pending < level) :
    Ensures (binaries r pending n left) s fun e t => e.Settled pending t := by
  induction n generalizing s left with
  | zero =>
    show Ensures (pure left) s _
    refine .pure ⟨before.neat, tight, fun op denotes => ?_⟩
    rw [ofKind?_endOfStream wf (by omega)] at denotes
    contradiction
  | succ n ih =>
    refine .peek ?_
    split
    next none =>
      refine .pure ⟨before.neat, tight, fun op denotes => ?_⟩
      rw [ParseState.kind, none] at denotes
      contradiction
    next op denotes =>
      split
      next looser =>
        refine ⟨before.neat, tight, fun next also => ?_⟩
        obtain rfl : op = next := Option.some.inj (denotes.symm.trans also)
        exact ⟨looser, before.right op also⟩
      next tighter =>
        have solid := isSolid_of_binary denotes
        have fewer := (ParseState.limit_advance wf (ParseState.kind_ne_endOfStream solid)).2.2
        refine .pass wf bound solid fun within => ?_
        refine ((neat.sound.expression _ _ within.wf).and (neat.expression _ _ within)).bind
          fun right t facts => .spanFrom ?_
        obtain ⟨so, settled⟩ := facts
        have left := so.later.remaining
        refine ih so.wf (by omega) (by omega) (binary_neat _ _ before denotes settled) ?_
        intro level member
        rcases List.mem_cons.1 member with rfl | inside
        · exact Nat.lt_of_not_le tighter
        · exact tight level inside

theorem expression_neat (neat : r.Neat k) (pending : Precedence) (wf : s.Wf)
    (bound : s.remaining ≤ k) :
    Ensures (expression r pending) s fun e t => e.Settled pending t := by
  refine ((unary_yields neat.sound wf).and (unary_neat neat wf bound)).bind
    fun left t ⟨so, before, closed⟩ => .get ?_
  have fewer := so.later.remaining
  exact binaries_neat neat pending _ so.wf (by omega) (Nat.le_refl _) before (by simp [closed])

end Parse

open Parse in
/-- The rules for a depth of nesting group operators where the tokens do not nest deeper. -/
theorem Rules.ofDepth_neat (version : Version) (k : Nat) : (Rules.ofDepth version k).Neat k := by
  induction k with
  | zero =>
    have none (s : ParseState) (within : s.Within 0) : False := absurd within.fewer (by omega)
    exact ⟨ofDepth_sound version 0, fun _ s w => (none s w).elim, fun s w => (none s w).elim,
      fun s w => (none s w).elim, fun s w => (none s w).elim⟩
  | succ k neat =>
    have bound (s : ParseState) (within : s.Within (k + 1)) : s.remaining ≤ k :=
      Nat.lt_succ_iff.1 within.fewer
    refine ⟨ofDepth_sound version (k + 1), ?_, ?_, ?_, ?_⟩
    · exact fun pending s within => expression_neat neat pending within.wf (bound s within)
    · exact fun s within => (operand_neat neat within.wf (bound s within)).mono
        fun _ _ plain => plain.neat
    · exact fun s within => typeName_neat neat within.wf (bound s within)
    · exact fun s within => elements_neat neat within.wf (bound s within)

/-- In the tree of every text, and in all expressions within it, operators group by how tightly
they bind, and those of one level to the left. -/
theorem operators_group (o : ScanOptions) (text : String) :
    (Node.expression (parseExpression o text).tree).Everywhere Node.Grouped := by
  have stream := stream_tokenize o text
  unfold parseExpression
  generalize o.tokenize text = tokens at stream ⊢
  have few := (ParseState.start_frame (tokens.filterMap Token.comment?)
    (tokens.filter fun t => !t.isComment)).1
  exact (Parse.expression_neat (Rules.ofDepth_neat o.version _) .lowest
    (ParseState.wf_start _ stream) (Nat.le_succ_of_le few)).neat

end VisualBasic
