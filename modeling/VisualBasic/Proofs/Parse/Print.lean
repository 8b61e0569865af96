import VisualBasic.Proofs.Parse.Precedence
import VisualBasic.Proofs.Scan.Words
import VisualBasic.Proofs.Syntax.Relocate

/-!
Writing operator expressions and reading them back.  A formula is made of names, numbers,
parentheses and operators.  Its tokens, written in order with blanks between them, say how it is
nested as long as its operators group by how tightly they bind.
-/

set_option autoImplicit false

namespace VisualBasic

-- Formulas and how they are written

/-- The name is scanned as a name: it is in brackets, has a type character or is no reserved
word. -/
structure SimpleName.IsWritable (version : Version) (n : SimpleName) : Prop where
  named : IsName n.text.toList
  symbols : ∀ t ∈ n.typeCharacter, t.isSymbol = true
  free : n.escaped = false → n.typeCharacter = none →
    ∀ k ∈ Keyword.ofWord? version n.text.toList, k.isReserved = false
  joined : n.escaped = false → n.text.toList.map halfWidth ≠ ['_']

def SimpleName.written (n : SimpleName) : List Char :=
  if n.escaped then '[' :: (n.text.toList ++ ']' :: suffixSymbol n.typeCharacter)
  else n.text.toList ++ suffixSymbol n.typeCharacter

/-- The version of the language has the operator. -/
def BinaryOperator.IsKnown (version : Version) (op : BinaryOperator) : Prop :=
  op = .isNotSame → version.supportsV8 = true

namespace Expression

/-- Names, decimal numbers that a signed 64-bit integer can hold, and operators over them. -/
inductive IsFormula (version : Version) : Expression → Prop where
  | name {n : SimpleName} (span : Span) : n.IsWritable version →
      IsFormula version (.simpleName n none span)
  | number {n : Nat} (span : Span) : n < 2 ^ 63 →
      IsFormula version (.literal (.literal (.integer (.signed n) .decimal none)) span)
  | parenthesized {e : Expression} (close : Location) (span : Span) : IsFormula version e →
      IsFormula version (.parenthesized e (some close) span)
  | unary {e : Expression} (op : UnaryOperator) (span : Span) : IsFormula version e →
      IsFormula version (.unary op e span)
  | binary {left right : Expression} {op : BinaryOperator} (opSpan span : Span) :
      op.IsKnown version → IsFormula version left → IsFormula version right →
      IsFormula version (.binary left op opSpan right span)

/-- The tokens of a formula as they are written. -/
def words : Expression → List (List Char)
  | .simpleName n _ _ => [n.written]
  | .literal (.literal (.integer (.signed n) _ _)) _ => [Nat.toDigits 10 n.toNat]
  | .parenthesized e _ _ => ['('] :: (e.words ++ [[')']])
  | .unary op e _ => op.spelling.toList :: e.words
  | .binary left op _ right _ => left.words ++ op.spelling.toList :: right.words
  | _ => []

/-- The tokens of a formula with a blank between any two of them. -/
def print (e : Expression) : String := String.ofList ([' '].intercalate e.words)

end Expression

-- The tokens of formulas

def UnaryOperator.lexeme : UnaryOperator → Lexeme
  | negate => .punctuator .minus
  | unaryPlus => .punctuator .plus
  | complement => .keyword .kwNot "Not"

def BinaryOperator.lexeme : BinaryOperator → Lexeme
  | plus => .punctuator .plus
  | minus => .punctuator .minus
  | multiply => .punctuator .star
  | divide => .punctuator .forwardSlash
  | integralDivide => .punctuator .backwardSlash
  | modulus => .keyword .kwMod "Mod"
  | power => .punctuator .caret
  | concatenate => .punctuator .ampersand
  | shiftLeft => .punctuator .lessThanLessThan
  | shiftRight => .punctuator .greaterThanGreaterThan
  | equals => .punctuator .equals
  | notEquals => .punctuator .notEquals
  | lessThan => .punctuator .lessThan
  | lessThanEquals => .punctuator .lessThanEquals
  | greaterThan => .punctuator .greaterThan
  | greaterThanEquals => .punctuator .greaterThanEquals
  | isSame => .keyword .kwIs "Is"
  | isNotSame => .keyword .kwIsNot "IsNot"
  | like => .keyword .kwLike "Like"
  | conjunction => .keyword .kwAnd "And"
  | andAlso => .keyword .kwAndAlso "AndAlso"
  | disjunction => .keyword .kwOr "Or"
  | orElse => .keyword .kwOrElse "OrElse"
  | exclusiveOr => .keyword .kwXor "Xor"

def SimpleName.lexeme (version : Version) (n : SimpleName) : Lexeme :=
  .identifier ⟨n.text, n.typeCharacter, n.escaped,
    if n.escaped then none else Keyword.ofWord? version n.text.toList⟩

theorem SimpleName.ofToken_of_lexeme {version : Version} {n : SimpleName} {t : Token}
    (spells : t.lexeme = n.lexeme version) : SimpleName.ofToken t = { n with span := t.span } := by
  simp [ofToken, Token.name?, spells, lexeme]

def Expression.lexemes (version : Version) : Expression → List Lexeme
  | .simpleName n _ _ => [n.lexeme version]
  | .literal (.literal value) _ => [.literal value]
  | .parenthesized e _ _ =>
    .punctuator .leftParenthesis :: (e.lexemes version ++ [.punctuator .rightParenthesis])
  | .unary op e _ => op.lexeme :: e.lexemes version
  | .binary left op _ right _ => left.lexemes version ++ op.lexeme :: right.lexemes version
  | _ => []

section

variable {version : Version}

/-- The keywords among the operators. -/
def operatorWords : List Keyword :=
  [.kwNot, .kwMod, .kwIs, .kwIsNot, .kwLike, .kwAnd, .kwAndAlso, .kwOr, .kwOrElse, .kwXor]

theorem spells_operatorWord {k : Keyword} (member : k ∈ operatorWords)
    (known : k.sinceV8 = true → version.supportsV8 = true) :
    Spells version k.spelling.toList (.keyword k k.spelling) := by
  have reserved : ∀ k ∈ operatorWords, k.isReserved = true ∧ k ≠ .kwRem := by decide
  have table : ∀ k ∈ operatorWords, keywordByteLimit ≥ utf8Length k.spelling.toList ∧
      (foldWord k.spelling.toList).bind (List.lookup · keywordTable) = some k := by
    decide +kernel
  obtain ⟨plain, code⟩ := reserved k member
  obtain ⟨short, listed⟩ := table k member
  exact (spells_reserved plain code short listed known).spells

theorem spells_unary (op : UnaryOperator) : Spells version op.spelling.toList op.lexeme := by
  cases op with
  | negate => exact spells_punctuator version (p := .minus) (by decide)
  | unaryPlus => exact spells_punctuator version (p := .plus) (by decide)
  | complement => exact spells_operatorWord (k := .kwNot) (by decide) (by simp [Keyword.sinceV8])

theorem spells_binary {op : BinaryOperator} (known : op.IsKnown version) :
    Spells version op.spelling.toList op.lexeme := by
  have word (k : Keyword) (member : k ∈ operatorWords) (old : k.sinceV8 = false) :
      Spells version k.spelling.toList (.keyword k k.spelling) :=
    spells_operatorWord member (by simp [old])
  cases op with
  | plus => exact spells_punctuator version (p := .plus) (by decide)
  | minus => exact spells_punctuator version (p := .minus) (by decide)
  | multiply => exact spells_punctuator version (p := .star) (by decide)
  | divide => exact spells_punctuator version (p := .forwardSlash) (by decide)
  | integralDivide => exact spells_punctuator version (p := .backwardSlash) (by decide)
  | power => exact spells_punctuator version (p := .caret) (by decide)
  | concatenate => exact spells_punctuator version (p := .ampersand) (by decide)
  | shiftLeft => exact spells_punctuator version (p := .lessThanLessThan) (by decide)
  | shiftRight => exact spells_punctuator version (p := .greaterThanGreaterThan) (by decide)
  | equals => exact spells_punctuator version (p := .equals) (by decide)
  | notEquals => exact spells_punctuator version (p := .notEquals) (by decide)
  | lessThan => exact spells_punctuator version (p := .lessThan) (by decide)
  | lessThanEquals => exact spells_punctuator version (p := .lessThanEquals) (by decide)
  | greaterThan => exact spells_punctuator version (p := .greaterThan) (by decide)
  | greaterThanEquals => exact spells_punctuator version (p := .greaterThanEquals) (by decide)
  | modulus => exact word .kwMod (by decide) rfl
  | isSame => exact word .kwIs (by decide) rfl
  | like => exact word .kwLike (by decide) rfl
  | conjunction => exact word .kwAnd (by decide) rfl
  | andAlso => exact word .kwAndAlso (by decide) rfl
  | disjunction => exact word .kwOr (by decide) rfl
  | orElse => exact word .kwOrElse (by decide) rfl
  | exclusiveOr => exact word .kwXor (by decide) rfl
  | isNotSame => exact spells_operatorWord (k := .kwIsNot) (by decide) fun _ => known rfl

theorem spells_written {n : SimpleName} (writable : n.IsWritable version) :
    SpellsBefore version EndsWord n.written (n.lexeme version) := by
  obtain ⟨named, symbols, free, joined⟩ := writable
  unfold SimpleName.written SimpleName.lexeme
  cases escaped : n.escaped with
  | true => simpa using spells_escaped named symbols
  | false =>
    simpa using spells_name named symbols (free escaped) (joined escaped)

theorem Expression.IsFormula.spells {e : Expression} (formula : e.IsFormula version) :
    List.Forall₂ (Spells version) e.words (e.lexemes version) := by
  induction formula with
  | name span writable => exact .cons (spells_written writable).spells .nil
  | number span small => exact .cons (spells_number version small) .nil
  | parenthesized close span _ ih =>
    have opens := spells_punctuator version (p := .leftParenthesis) (by decide)
    have closes := spells_punctuator version (p := .rightParenthesis) (by decide)
    exact .cons opens (List.rel_append ih (.cons closes .nil))
  | unary op span _ ih => exact .cons (spells_unary op) ih
  | binary opSpan span known _ _ left right =>
    exact List.rel_append left (.cons (spells_binary known) right)

/-- The text of a formula is scanned into its tokens. -/
theorem Expression.IsFormula.tokenize {e : Expression} {o : ScanOptions}
    (formula : e.IsFormula o.version) :
    (o.tokenize e.print).map Token.lexeme = e.lexemes o.version ++ [.endOfStream] := by
  rw [ScanOptions.tokenize, print, String.toList_ofList]
  exact lexemes_tokenize _ formula.spells

end

-- Reading a formula

/-- The lexemes ahead of a parser that has found no problem. -/
structure ParseState.Faces (s : ParseState) (ls : List Lexeme) : Prop where
  ahead : s.ahead.map Token.lexeme = ls
  clean : s.diagnostics = []

/-- The binary operator that comes first. -/
def operatorAt? (ls : List Lexeme) : Option BinaryOperator :=
  ls.head?.bind fun l => BinaryOperator.ofKind? l.kind

/-- No member, key or argument follows an operand. -/
def ClosesOperand : List Lexeme → Prop
  | [] => False
  | l :: _ => l.kind ∉ [.mark .period, .mark .exclamation, .mark .leftParenthesis]

theorem ClosesOperand.ne_nil {ls : List Lexeme} (closes : ClosesOperand ls) : ls ≠ [] := by
  rintro rfl
  exact closes

namespace ParseState.Faces

variable {s : ParseState} {l m : Lexeme} {ls : List Lexeme}

theorem lexeme (faces : s.Faces (l :: ls)) : s.current.lexeme = l := by
  have ahead := faces.ahead
  simp only [ParseState.ahead, List.map_cons, List.cons.injEq] at ahead
  exact ahead.1

theorem kind (faces : s.Faces (l :: ls)) : s.kind = l.kind := by
  rw [ParseState.kind, Token.kind, faces.lexeme]

theorem advance (faces : s.Faces (l :: ls)) (more : ls ≠ []) : s.advance.Faces ls := by
  have ahead := faces.ahead
  simp only [ParseState.ahead, List.map_cons, List.cons.injEq] at ahead
  cases follows : s.following with
  | nil => exact absurd (by simpa [follows] using ahead.2.symm) more
  | cons t rest =>
    rw [advance_of_cons follows]
    exact ⟨by rw [← ahead.2, follows]; rfl, faces.clean⟩

theorem exists_following (faces : s.Faces (l :: m :: ls)) :
    ∃ t rest, s.following = t :: rest ∧ t.lexeme = m := by
  have ahead := faces.ahead
  simp only [ParseState.ahead, List.map_cons, List.cons.injEq] at ahead
  obtain ⟨-, behind⟩ := ahead
  cases follows : s.following with
  | nil => simp [follows] at behind
  | cons t rest =>
    rw [follows, List.map_cons, List.cons.injEq] at behind
    exact ⟨t, rest, rfl, behind.1⟩

theorem kindAfter (faces : s.Faces (l :: m :: ls)) : s.kindAfter = m.kind := by
  obtain ⟨t, rest, follows, lexeme⟩ := faces.exists_following
  rw [ParseState.kindAfter, follows, ← lexeme]
  rfl

theorem remaining (faces : s.Faces ls) : s.remaining + 1 = ls.length := by
  simp [← faces.ahead, ParseState.ahead, ParseState.remaining]

theorem operatorAt (faces : s.Faces ls) : BinaryOperator.ofKind? s.kind = operatorAt? ls := by
  cases ls with
  | nil => simpa [ParseState.ahead] using faces.ahead
  | cons l ls => rw [faces.kind]; rfl

end ParseState.Faces

namespace Parse

variable {version : Version} {r : Rules} {s : ParseState} {e : Expression} {rest : List Lexeme}

theorem ensures_skip {α : Type} {f : Unit → Parse α} {Q : α → ParseState → Prop}
    (rest : Ensures (f ()) s.advance Q) : Ensures (skip >>= f) s Q := rest

theorem ensures_read {α : Type} {f : Token → Parse α} {Q : α → ParseState → Prop}
    (rest : Ensures (f s.current) s.advance Q) : Ensures (read >>= f) s Q := rest

theorem eat_present {kind : TokenKind} (present : s.kind = kind) :
    Ensures (eat kind) s fun token t => token = some s.current ∧ t = s.advance := by
  refine .check ?_
  rw [beq_iff_eq.2 present]
  exact ensures_read ⟨rfl, rfl⟩

theorem eat_absent {kind : TokenKind} (absent : s.kind ≠ kind) :
    Ensures (eat kind) s fun token t => token = none ∧ t = s := by
  refine .check ?_
  rw [beq_false_of_ne absent]
  exact ⟨rfl, rfl⟩

theorem eatPlace_present {kind : TokenKind} (present : s.kind = kind) :
    Ensures (eatPlace kind) s fun place t => (∃ found, place = some found) ∧ t = s.advance := by
  refine (eat_present present).map fun token t eaten => ?_
  obtain ⟨rfl, rfl⟩ := eaten
  exact ⟨⟨_, rfl⟩, rfl⟩

theorem eatPlace_absent {kind : TokenKind} (absent : s.kind ≠ kind) :
    Ensures (eatPlace kind) s fun place t => place = none ∧ t = s := by
  refine (eat_absent absent).map fun token t eaten => ?_
  obtain ⟨rfl, rfl⟩ := eaten
  exact ⟨rfl, rfl⟩

theorem expectPlace_present {kind : TokenKind} {problem : Problem} (present : s.kind = kind) :
    Ensures (expectPlace kind problem) s fun place t =>
      (∃ found, place = some found) ∧ t = s.advance := by
  have expects : Ensures (expect kind problem) s fun token t =>
      token = some s.current ∧ t = s.advance := by
    refine (eat_present present).bind fun token t eaten => ?_
    obtain ⟨rfl, rfl⟩ := eaten
    exact ⟨rfl, rfl⟩
  refine expects.map fun token t eaten => ?_
  obtain ⟨rfl, rfl⟩ := eaten
  exact ⟨⟨_, rfl⟩, rfl⟩

/-- The rule reads the formula and leaves what follows it. -/
abbrev Reads (p : Parse Expression) (s : ParseState) (e : Expression) (rest : List Lexeme) : Prop :=
  Ensures p s fun found t => found.Alike e ∧ t.Faces rest

theorem postfixes_stop (n : Nat) (target : Expression) (faces : s.Faces rest)
    (closes : ClosesOperand rest) :
    Ensures (postfixes r n target) s fun found t => found = target ∧ t = s := by
  cases n with
  | zero => exact ⟨rfl, rfl⟩
  | succ n =>
    cases rest with
    | nil => exact closes.elim
    | cons l rest =>
      have kind := faces.kind
      simp only [ClosesOperand, ← kind, List.mem_cons, not_or] at closes
      refine .peek ?_
      split
      next same => exact absurd same closes.1
      next same => exact absurd same closes.2.1
      next same => exact absurd same closes.2.2.1
      next => exact ⟨rfl, rfl⟩

theorem postfixes_reads (n : Nat) {target : Expression} (alike : target.Alike e)
    (faces : s.Faces rest) (closes : ClosesOperand rest) :
    Reads (postfixes r n target) s e rest := by
  refine (postfixes_stop n target faces closes).mono fun found t stops => ?_
  obtain ⟨rfl, rfl⟩ := stops
  exact ⟨alike, faces⟩

/-- An operand without members and arguments behind it. -/
theorem operand_reads (primary : Ensures (primary r) s fun found t =>
      (found.Alike e ∧ found.isBad = false) ∧ t.Faces rest)
    (closes : ClosesOperand rest) : Reads (operand r) s e rest := by
  refine primary.bind fun found t ⟨⟨alike, good⟩, faces⟩ => ?_
  rw [good]
  exact .get (postfixes_reads _ alike faces closes)

theorem atTypeArguments_eq_false (faces : s.Faces rest) (closes : ClosesOperand rest) :
    s.atTypeArguments = false := by
  cases rest with
  | nil => exact closes.elim
  | cons l rest =>
    simp only [ClosesOperand, ← faces.kind, List.mem_cons, not_or] at closes
    simp [ParseState.atTypeArguments, closes.2.2.1]

theorem primary_name_advance {n : SimpleName} (span : Span)
    (faces : s.Faces (n.lexeme version :: rest)) (closes : ClosesOperand rest) :
    Ensures (primary r) s fun found t =>
      (found.Alike (.simpleName n none span) ∧ found.isBad = false) ∧ t = s.advance := by
  have after := faces.advance closes.ne_nil
  have constant : Constant.ofToken? s.current = none := by
    simp [Constant.ofToken?, faces.lexeme, SimpleName.lexeme]
  have kind : s.current.kind = .identifier := faces.kind
  have named := SimpleName.ofToken_of_lexeme faces.lexeme
  refine .peek ?_
  rw [constant, kind]
  refine ensures_skip (.get ?_)
  rw [atTypeArguments_eq_false after closes]
  refine ⟨⟨?_, rfl⟩, rfl⟩
  rw [named]
  rfl

theorem primary_name {n : SimpleName} (span : Span) (faces : s.Faces (n.lexeme version :: rest))
    (closes : ClosesOperand rest) :
    Ensures (primary r) s fun found t =>
      (found.Alike (.simpleName n none span) ∧ found.isBad = false) ∧ t.Faces rest := by
  refine (primary_name_advance span faces closes).mono fun found t named => ?_
  obtain ⟨named, rfl⟩ := named
  exact ⟨named, faces.advance closes.ne_nil⟩

theorem primary_number {value : Literal} (span : Span) (faces : s.Faces (.literal value :: rest))
    (closes : ClosesOperand rest) :
    Ensures (primary r) s fun found t =>
      (found.Alike (.literal (.literal value) span) ∧ found.isBad = false) ∧ t.Faces rest := by
  have constant : Constant.ofToken? s.current = some (.literal value) := by
    simp [Constant.ofToken?, faces.lexeme]
  refine .peek ?_
  rw [constant]
  exact ⟨⟨rfl, rfl⟩, faces.advance closes.ne_nil⟩

theorem closeParenthesis_reads (faces : s.Faces (.punctuator .rightParenthesis :: rest))
    (more : rest ≠ []) :
    Ensures closeParenthesis s fun close t => (∃ place, close = some place) ∧ t.Faces rest := by
  refine (expectPlace_present faces.kind).mono fun close t closed => ?_
  obtain ⟨found, rfl⟩ := closed
  exact ⟨found, faces.advance more⟩

/-- The operand of parentheses is an expression of its own, which the closing one ends. -/
theorem primary_parenthesized (close : Location) (span : Span)
    (faces : s.Faces (.punctuator .leftParenthesis :: (e.lexemes version ++
      .punctuator .rightParenthesis :: rest)))
    (closes : ClosesOperand rest)
    (inside : Reads r.value s.advance e (.punctuator .rightParenthesis :: rest)) :
    Ensures (primary r) s fun found t =>
      (found.Alike (.parenthesized e (some close) span) ∧ found.isBad = false) ∧ t.Faces rest := by
  have constant : Constant.ofToken? s.current = none := by
    simp [Constant.ofToken?, faces.lexeme]
  have kind : s.current.kind = .mark .leftParenthesis := faces.kind
  refine .peek ?_
  rw [constant, kind]
  refine ensures_read (inside.bind fun operand t ⟨alike, faces⟩ => ?_)
  refine (closeParenthesis_reads faces closes.ne_nil).bind
    fun close' u ⟨⟨place, found⟩, faces⟩ => ?_
  subst found
  refine .spanFrom ⟨⟨?_, rfl⟩, faces⟩
  exact congrArg (Expression.parenthesized · _ _) alike

/-- No operator that binds tighter follows. -/
theorem binaries_stay {pending : Precedence} (n : Nat) (left : Expression) (faces : s.Faces rest)
    (looser : ∀ op ∈ operatorAt? rest, op.precedence ≤ pending) :
    Ensures (binaries r pending n left) s fun found t => found = left ∧ t = s := by
  cases n with
  | zero => exact ⟨rfl, rfl⟩
  | succ n =>
    refine .peek ?_
    split
    next => exact ⟨rfl, rfl⟩
    next op denotes =>
      have next : op ∈ operatorAt? rest := by rwa [← faces.operatorAt]
      rw [if_pos (looser op next)]
      exact ⟨rfl, rfl⟩

theorem binaries_stop {pending : Precedence} (n : Nat) {left : Expression} (alike : left.Alike e)
    (faces : s.Faces rest) (looser : ∀ op ∈ operatorAt? rest, op.precedence ≤ pending) :
    Reads (binaries r pending n left) s e rest := by
  refine (binaries_stay n left faces looser).mono fun found t stays => ?_
  obtain ⟨rfl, rfl⟩ := stays
  exact ⟨alike, faces⟩

end Parse

theorem UnaryOperator.ofKind?_lexeme (op : UnaryOperator) : ofKind? op.lexeme.kind = some op := by
  cases op <;> rfl

theorem BinaryOperator.ofKind?_lexeme (op : BinaryOperator) :
    ofKind? op.lexeme.kind = some op := by
  cases op <;> rfl

theorem BinaryOperator.closesOperand (op : BinaryOperator) (ls : List Lexeme) :
    ClosesOperand (op.lexeme :: ls) := by
  cases op <;> simp [ClosesOperand, lexeme, Lexeme.kind]

theorem Expression.lowest_lt_leftEdge (e : Expression) : ∀ level ∈ e.leftEdge, .lowest < level := by
  fun_induction Expression.leftEdge e with
  | case1 left op opSpan right span ih =>
    intro level member
    rcases List.mem_cons.1 member with rfl | inside
    · cases op <;> decide
    · exact ih level inside
  | case2 => simp

theorem UnaryOperator.ofKind?_primary {version : Version} {e : Expression}
    (formula : e.IsFormula version) (plain : (Node.expression e).isOperation = false)
    {s : ParseState} {rest : List Lexeme} (faces : s.Faces (e.lexemes version ++ rest)) :
    UnaryOperator.ofKind? s.kind = none := by
  cases formula with
  | name | number | parenthesized => rw [faces.kind]; rfl
  | unary | binary => simp [Node.isOperation] at plain

open Parse

/-- The rules for a depth of nesting read a formula for any level: it goes on with the operators
behind it. -/
def Expression.Readable (version : Version) (e : Expression) : Prop :=
  ∀ (k : Nat) {s : ParseState} {rest : List Lexeme} {pending : Precedence}
    {Q : Expression → ParseState → Prop}, s.Faces (e.lexemes version ++ rest) →
    ClosesOperand rest → s.remaining ≤ k → (∀ level ∈ e.leftEdge, pending < level) →
    (∀ op ∈ operatorAt? rest, ∀ level ∈ e.rightEdge, op.precedence ≤ level) →
    (∀ found t n, found.Alike e → t.Faces rest → t.remaining ≤ n →
      Ensures (binaries (.ofDepth version k) pending n found) t Q) →
    Ensures (expression (.ofDepth version k) pending) s Q

section

variable {version : Version} {k : Nat} {s : ParseState} {e : Expression} {rest : List Lexeme}
  {pending : Precedence}

/-- A formula within another one, behind which no operator follows that binds tighter. -/
theorem Expression.Readable.nested (readable : e.Readable version)
    (faces : s.Faces (e.lexemes version ++ rest)) (closes : ClosesOperand rest)
    (within : s.remaining < k) (tight : ∀ level ∈ e.leftEdge, pending < level)
    (loose : ∀ op ∈ operatorAt? rest, ∀ level ∈ e.rightEdge, op.precedence ≤ level)
    (looser : ∀ op ∈ operatorAt? rest, op.precedence ≤ pending) :
    Reads ((Rules.ofDepth version k).expression pending) s e rest := by
  cases k with
  | zero => omega
  | succ k =>
    exact readable k faces closes (by omega) tight loose fun found t n alike faces _ =>
      binaries_stop n alike faces looser

theorem readable_of_operand (formula : e.IsFormula version)
    (plain : (Node.expression e).isOperation = false)
    (reads : ∀ {k : Nat} {s : ParseState} {rest : List Lexeme},
      s.Faces (e.lexemes version ++ rest) → ClosesOperand rest → s.remaining ≤ k →
      Ensures (primary (.ofDepth version k)) s fun found t =>
        (found.Alike e ∧ found.isBad = false) ∧ t.Faces rest) : e.Readable version := by
  intro k s rest pending Q faces closes bound tight loose goOn
  have none : UnaryOperator.ofKind? s.current.kind = none :=
    UnaryOperator.ofKind?_primary formula plain faces
  have first : Reads (unary (.ofDepth version k)) s e rest := by
    refine .peek ?_
    rw [none]
    exact operand_reads (reads faces closes bound) closes
  exact first.bind fun found t ⟨alike, faces⟩ => .get (goOn found t _ alike faces (Nat.le_refl _))

theorem readable_parenthesized (close : Location) (span : Span) (formula : e.IsFormula version)
    (readable : e.Readable version) :
    (Expression.parenthesized e (some close) span).Readable version := by
  refine readable_of_operand (.parenthesized close span formula) rfl ?_
  intro k s rest faces closes bound
  have faces : s.Faces (.punctuator .leftParenthesis :: (e.lexemes version ++
      .punctuator .rightParenthesis :: rest)) := by
    simpa [Expression.lexemes] using faces
  have after := faces.advance (by simp)
  have stops : ClosesOperand (.punctuator .rightParenthesis :: rest) := by
    simp [ClosesOperand, Lexeme.kind]
  have fewer : s.advance.remaining < k := by
    have here := faces.remaining
    have behind := after.remaining
    simp only [List.length_cons] at here
    omega
  refine primary_parenthesized close span faces closes
    (readable.nested after stops fewer e.lowest_lt_leftEdge ?_ ?_)
  · simp [operatorAt?, Lexeme.kind, BinaryOperator.ofKind?]
  · simp [operatorAt?, Lexeme.kind, BinaryOperator.ofKind?]

/-- The operand of a unary operator takes in the operators that bind tighter, and those that follow
do not. -/
theorem readable_unary (op : UnaryOperator) (span : Span) (readable : e.Readable version)
    (grouped : (Node.expression (.unary op e span)).Grouped) :
    (Expression.unary op e span).Readable version := by
  intro k s rest pending Q faces closes bound tight loose goOn
  have faces : s.Faces (op.lexeme :: (e.lexemes version ++ rest)) := faces
  have after := faces.advance (by simp [closes.ne_nil])
  have denotes : UnaryOperator.ofKind? s.current.kind = some op := by
    rw [← op.ofKind?_lexeme, ← faces.kind]
    rfl
  have fewer : s.advance.remaining < k := by
    have here := faces.remaining
    have behind := after.remaining
    simp only [List.length_cons] at here
    omega
  have operand :
      Reads ((Rules.ofDepth version k).expression op.operandPrecedence) s.advance e rest := by
    apply readable.nested after closes fewer grouped
    · intro next member level inside
      exact loose next member level (List.mem_cons_of_mem _ inside)
    · intro next member
      exact loose next member _ List.mem_cons_self
  have first : Reads (unary (.ofDepth version k)) s (.unary op e span) rest := by
    refine .peek ?_
    rw [denotes]
    refine ensures_skip (operand.bind fun found t ⟨alike, faces⟩ => .spanFrom ⟨?_, faces⟩)
    exact congrArg (Expression.unary op · _) alike
  exact first.bind fun found t ⟨alike, faces⟩ => .get (goOn found t _ alike faces (Nat.le_refl _))

/-- The left operand ends before the operator, since what is open in it does not bind looser; the
right operand ends where the whole does. -/
theorem readable_binary {left right : Expression} (op : BinaryOperator) (opSpan span : Span)
    (first : left.Readable version) (second : right.Readable version)
    (grouped : (Node.expression (.binary left op opSpan right span)).Grouped) :
    (Expression.binary left op opSpan right span).Readable version := by
  intro k s rest pending Q faces closes bound tight loose goOn
  obtain ⟨before, behind⟩ := grouped
  have faces : s.Faces (left.lexemes version ++ op.lexeme :: (right.lexemes version ++ rest)) := by
    simpa [Expression.lexemes] using faces
  refine first k faces (op.closesOperand _) bound ?_ ?_ fun found t n alike faces' fuel => ?_
  · intro level inside
    exact tight level (List.mem_cons_of_mem _ inside)
  · intro next member level inside
    obtain rfl : op = next := by simpa [operatorAt?, op.ofKind?_lexeme] using member
    exact before level inside
  have after := faces'.advance (by simp [closes.ne_nil])
  have here := faces'.remaining
  have there := after.remaining
  have whole := faces.remaining
  simp only [List.length_cons, List.length_append] at here whole there
  cases n with
  | zero => omega
  | succ n =>
    have denotes : BinaryOperator.ofKind? t.current.kind = some op := by
      rw [← op.ofKind?_lexeme, ← faces'.kind]
      rfl
    have tighter : ¬ op.precedence ≤ pending := Nat.not_le.2 (tight _ List.mem_cons_self)
    have operand :
        Reads ((Rules.ofDepth version k).expression op.precedence) t.advance right rest := by
      apply second.nested after closes (by omega) behind
      · intro next member level inside
        exact loose next member level (List.mem_cons_of_mem _ inside)
      · intro next member
        exact loose next member _ List.mem_cons_self
    refine .peek ?_
    simp only [denotes, tighter, if_false]
    refine ensures_skip (operand.bind fun found' u ⟨alike', faces⟩ => .spanFrom ?_)
    refine goOn _ _ _ ?_ faces ?_
    · exact congrArg₂ (fun l r => Expression.binary l op _ r _) alike alike'
    · have := faces.remaining
      omega

theorem Expression.IsFormula.readable (formula : e.IsFormula version)
    (neat : (Node.expression e).Neat) : e.Readable version := by
  induction formula with
  | name span writable =>
    exact readable_of_operand (.name span writable) rfl fun faces closes _ =>
      primary_name span faces closes
  | number span small =>
    exact readable_of_operand (.number span small) rfl fun faces closes _ =>
      primary_number span faces closes
  | parenthesized close span formula ih =>
    obtain ⟨-, below⟩ := Node.everywhere_iff.1 neat
    exact readable_parenthesized close span formula (ih (below _ List.mem_cons_self))
  | unary op span _ ih =>
    obtain ⟨grouped, below⟩ := Node.everywhere_iff.1 neat
    exact readable_unary op span (ih (below _ List.mem_cons_self)) grouped
  | binary opSpan span _ _ _ left right =>
    obtain ⟨grouped, below⟩ := Node.everywhere_iff.1 neat
    exact readable_binary _ opSpan span (left (below _ List.mem_cons_self))
      (right (below _ (List.mem_cons_of_mem _ List.mem_cons_self))) grouped

end

/-- Without comments every token matters. -/
theorem filter_isComment {tokens : List Token} {ls : List Lexeme}
    (lexemes : tokens.map Token.lexeme = ls ++ [.endOfStream])
    (plain : ∀ l ∈ ls, l.kind ≠ .comment) :
    tokens.filter (fun t => !t.isComment) = tokens := by
  refine List.filter_eq_self.2 fun t member => ?_
  have known : t.lexeme ∈ ls ++ [.endOfStream] := lexemes ▸ List.mem_map_of_mem member
  rcases List.mem_append.1 known with inside | atEnd
  · simpa [Token.isComment, Token.kind] using plain _ inside
  · simp [Token.isComment, Token.kind, List.mem_singleton.1 atEnd, Lexeme.kind]

/-- The tree of a text that is the print of a formula. -/
theorem Expression.IsFormula.parses {o : ScanOptions} {e : Expression}
    (formula : e.IsFormula o.version) (neat : (Node.expression e).Neat) :
    (parseExpression o e.print).diagnostics = [] ∧ (parseExpression o e.print).tree.Alike e := by
  have lexemes := formula.tokenize
  unfold parseExpression
  generalize o.tokenize e.print = tokens at lexemes ⊢
  have significant := filter_isComment lexemes (kind_ne_comment_of_spells formula.spells)
  have faces : (ParseState.start (tokens.filterMap Token.comment?) tokens).Faces
      (e.lexemes o.version ++ [.endOfStream]) := by
    cases tokens with
    | nil => simp at lexemes
    | cons t rest => exact ⟨lexemes, rfl⟩
  have few := (ParseState.start_frame (tokens.filterMap Token.comment?) tokens).1
  have reads : Reads (expression (Rules.ofDepth o.version (tokens.length + 1)) .lowest)
      (.start (tokens.filterMap Token.comment?) tokens) e [.endOfStream] := by
    refine formula.readable neat _ faces (by simp [ClosesOperand, Lexeme.kind]) (by omega)
      e.lowest_lt_leftEdge ?_ fun found t n alike faces _ => binaries_stop n alike faces ?_
    · simp [operatorAt?, Lexeme.kind, BinaryOperator.ofKind?]
    · simp [operatorAt?, Lexeme.kind, BinaryOperator.ofKind?]
  obtain ⟨alike, after⟩ := reads
  simp only [parseTokens, significant]
  exact ⟨after.clean, alike⟩

/-- Parsing undoes printing: the text of a formula whose operators group by how tightly they bind
is parsed without problems into the formula, so no other such formula has the same text. -/
theorem parseExpression_print {o : ScanOptions} {e : Expression} (formula : e.IsFormula o.version)
    (grouped : ∀ n ∈ (Node.expression e).nodes, n.Grouped) :
    (parseExpression o e.print).diagnostics = [] ∧
      (parseExpression o e.print).tree.Alike e ∧
      ∀ other : Expression, other.IsFormula o.version →
        (∀ n ∈ (Node.expression other).nodes, n.Grouped) → other.print = e.print →
        other.Alike e := by
  obtain ⟨clean, alike⟩ := formula.parses grouped
  refine ⟨clean, alike, ?_⟩
  intro other formula grouped same
  have also := (formula.parses grouped).2
  rw [same] at also
  exact also.symm.trans alike

/-- A formula with a type character, a keyword for a name and signs within operands. -/
def mixedFormula (place : Span) : Expression :=
  let name (text : String) (symbol : Option TypeCharacter) (escaped : Bool) : Expression :=
    .simpleName ⟨text, symbol, escaped, place⟩ none place
  let number (n : Nat) : Expression :=
    .literal (.literal (.integer (.signed n) .decimal none)) place
  let difference : Expression :=
    .binary (name "a" (some .longSymbol) false) .minus place
      (.binary (number 2) .power place (.unary .negate (name "x" none false) place) place) place
  let joined : Expression :=
    .binary (name "If" none true) .concatenate place
      (.parenthesized (number 9223372036854775807) (some place.start) place) place
  .unary .complement (.binary difference .isSame place joined place) place

theorem mixedFormula_isFormula (place : Span) : (mixedFormula place).IsFormula .v80 := by
  have known (op : BinaryOperator) : op.IsKnown .v80 := fun _ => rfl
  have named : ∀ word ∈ ["a".toList, "x".toList, "If".toList],
      word.head?.any isIdentifierStart = true ∧ word.all isIdentifierPart = true := by
    decide
  have isName (word : List Char) (member : word ∈ ["a".toList, "x".toList, "If".toList]) :
      IsName word :=
    ⟨(named word member).1, List.all_eq_true.1 (named word member).2⟩
  have joined : ∀ word ∈ ["a".toList, "x".toList], word.map halfWidth ≠ ['_'] := by decide
  have free : ∀ k ∈ Keyword.ofWord? .v80 "x".toList, k.isReserved = false := by
    rw [show Keyword.ofWord? .v80 "x".toList = none by decide +kernel]
    simp
  refine .unary _ _ (.binary _ _ (known _) ?_ ?_)
  · refine .binary _ _ (known _) (.name _ ?_) (.binary _ _ (known _) (.number _ (by decide))
      (.unary _ _ (.name _ ?_)))
    · exact ⟨isName _ (by simp), by simp [TypeCharacter.isSymbol], by simp,
        fun _ => joined _ (by simp)⟩
    · exact ⟨isName _ (by simp), by simp, fun _ _ => free, fun _ => joined _ (by simp)⟩
  · refine .binary _ _ (known _) (.name _ ?_) (.parenthesized _ _ (.number _ (by decide)))
    exact ⟨isName _ (by simp), by simp, by simp, by simp⟩

theorem mixedFormula_grouped (place : Span) :
    ∀ n ∈ (Node.expression (mixedFormula place)).nodes, n.Grouped := by
  have binary {left right : Expression} {op : BinaryOperator}
      (grouped : (Node.expression (.binary left op place right place)).Grouped)
      (first : (Node.expression left).Neat) (second : (Node.expression right).Neat) :
      (Node.expression (.binary left op place right place)).Neat :=
    Node.everywhere_iff.2 ⟨grouped, Node.neat_cons first (Node.neat_cons second Node.neat_nil)⟩
  have unary {operand : Expression} {op : UnaryOperator}
      (grouped : (Node.expression (.unary op operand place)).Grouped)
      (first : (Node.expression operand).Neat) : (Node.expression (.unary op operand place)).Neat :=
    Node.everywhere_iff.2 ⟨grouped, Node.neat_cons first Node.neat_nil⟩
  have name (n : SimpleName) : (Node.expression (.simpleName n none place)).Neat :=
    .of rfl rfl (Node.neat_cons (.leaf rfl rfl) Node.neat_nil)
  have number (value : Constant) : (Node.expression (.literal value place)).Neat := .leaf rfl rfl
  have parenthesized (value : Constant) :
      (Node.expression (.parenthesized (.literal value place) (some place.start) place)).Neat :=
    .of rfl rfl (Node.neat_cons (number value) Node.neat_nil)
  refine unary ?_ (binary ⟨?_, ?_⟩ (binary ⟨?_, ?_⟩ (name _) (binary ⟨?_, ?_⟩ (number _)
    (unary ?_ (name _)))) (binary ⟨?_, ?_⟩ (name _) (parenthesized _)))
  all_goals simp [Node.Grouped, Expression.leftEdge, Expression.rightEdge]
  all_goals decide

theorem parseExpression_mixedFormula :
    (mixedFormula default).print = "Not a& - 2 ^ - x Is [If] & ( 9223372036854775807 )" ∧
      (parseExpression .standard (mixedFormula default).print).diagnostics = [] ∧
      (parseExpression .standard (mixedFormula default).print).tree.Alike (mixedFormula default) ∧
      (mixedFormula (.point ⟨7, 1, 8⟩)).Alike (mixedFormula default) := by
  obtain ⟨clean, alike, unique⟩ := parseExpression_print (o := .standard)
    (mixedFormula_isFormula default) (mixedFormula_grouped default)
  refine ⟨by decide +kernel, clean, alike, ?_⟩
  exact unique _ (mixedFormula_isFormula _) (mixedFormula_grouped _) rfl

end VisualBasic
