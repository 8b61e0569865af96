import VisualBasic.Proofs.Parse.Print
import VisualBasic.Proofs.Parse.Progress

/-!
Writing type names and reading them back.  A type name is an intrinsic type or a dotted name, perhaps
with type arguments, and any number of array suffixes behind it.  A parenthesis behind a type starts
arguments where `Of` follows and an array suffix elsewhere, so its text says which type it is.
-/

set_option autoImplicit false

namespace VisualBasic

-- The type names that are written

/-- The name is a word by itself: not in brackets, without type character and no reserved word. -/
structure SimpleName.IsPlain (version : Version) (n : SimpleName) : Prop where
  writable : n.IsWritable version
  unescaped : n.escaped = false
  untyped : n.typeCharacter = none

namespace Name

/-- Plain names with dots between them; `Global` may come first. -/
inductive IsDotted (version : Version) : Name → Prop where
  | simple {n : SimpleName} : n.IsPlain version → IsDotted version (.simple n)
  | ofGlobal {n : SimpleName} (place : Span) (dot : Location) (span : Span) : n.IsPlain version →
      IsDotted version (.qualified (.globalNamespace place) dot n span)
  | qualified {q : Name} {n : SimpleName} (dot : Location) (span : Span) : IsDotted version q →
      n.IsPlain version → IsDotted version (.qualified q dot n span)

/-- The names differ in their locations only. -/
def Alike (a b : Name) : Prop :=
  relocate (fun _ => Location.origin) a = relocate (fun _ => Location.origin) b

end Name

namespace TypeName

/-- The type names that the grammar gives: intrinsic types, dotted names with or without type
arguments, and arrays over type names.  There is a comma between any two arguments, and all
parentheses are closed. -/
inductive IsWritten (version : Version) : TypeName → Prop where
  | intrinsic (type : IntrinsicType) (span : Span) : IsWritten version (.intrinsic type span)
  | named {n : Name} (span : Span) : n.IsDotted version → IsWritten version (.named n span)
  | constructed {n : Name} {first : TypeName} {rest : List TypeName} {commas : List Location}
      (openParen ofKeyword close : Location) (listSpan argumentsSpan span : Span) :
      n.IsDotted version → (∀ t ∈ first :: rest, IsWritten version t) →
      commas.length = rest.length →
      IsWritten version (.constructed n
        ⟨openParen, ofKeyword, ⟨first :: rest, commas, listSpan⟩, some close, argumentsSpan⟩ span)
  | array {e : TypeName} (further : Nat) (span : Span) : IsWritten version e →
      IsWritten version (.array e (further + 1) none span)

/-- The type names differ in their locations only. -/
def Alike (a b : TypeName) : Prop :=
  relocate (fun _ => Location.origin) a = relocate (fun _ => Location.origin) b

end TypeName

-- Their tokens

def IntrinsicType.keyword : IntrinsicType → Keyword
  | boolean => .kwBoolean
  | sByte => .kwSByte
  | byte => .kwByte
  | short => .kwShort
  | uShort => .kwUShort
  | integer => .kwInteger
  | uInteger => .kwUInteger
  | long => .kwLong
  | uLong => .kwULong
  | decimal => .kwDecimal
  | single => .kwSingle
  | double => .kwDouble
  | date => .kwDate
  | char => .kwChar
  | string => .kwString
  | object => .kwObject

theorem IntrinsicType.ofKind?_keyword (t : IntrinsicType) : ofKind? (.word t.keyword) = some t := by
  cases t <;> rfl

theorem IntrinsicType.spelling_keyword (t : IntrinsicType) : t.keyword.spelling = t.spelling := by
  cases t <;> rfl

def Name.lexemes (version : Version) : Name → List Lexeme
  | simple n => [n.lexeme version]
  | qualified q _ n _ => q.lexemes version ++ [.punctuator .period, n.lexeme version]
  | globalNamespace _ => [.keyword .kwGlobal "Global"]
  | special _ _ => []

section

variable (version : Version)

mutual

def TypeName.lexemes : TypeName → List Lexeme
  | .intrinsic t _ => [.keyword t.keyword t.spelling]
  | .named n _ => n.lexemes version
  | .constructed n ⟨_, _, ⟨[], _, _⟩, _, _⟩ _ => n.lexemes version
  | .constructed n ⟨_, _, ⟨first :: rest, _, _⟩, _, _⟩ _ =>
    n.lexemes version ++ .punctuator .leftParenthesis :: .keyword .kwOf "Of" ::
      (first.lexemes ++ (furtherLexemes rest ++ [.punctuator .rightParenthesis]))
  | .array e rank _ _ =>
    e.lexemes ++ .punctuator .leftParenthesis ::
      (List.replicate (rank - 1) (.punctuator .comma) ++ [.punctuator .rightParenthesis])
  | .bad _ => []

/-- Further type arguments, with a comma before each of them. -/
def furtherLexemes : List TypeName → List Lexeme
  | [] => []
  | t :: rest => .punctuator .comma :: (t.lexemes ++ furtherLexemes rest)

end

theorem furtherLexemes_eq (types : List TypeName) :
    furtherLexemes version types =
      types.flatMap fun t => .punctuator .comma :: t.lexemes version := by
  induction types with
  | nil => rfl
  | cons t rest ih => rw [furtherLexemes, ih, List.flatMap_cons, List.cons_append]

end

-- Scanning the text of a type name

section

variable {version : Version} {rest : List Char} {ls : List Lexeme}

/-- The keywords of type names. -/
def typeWords : List Keyword :=
  [.kwBoolean, .kwSByte, .kwByte, .kwShort, .kwUShort, .kwInteger, .kwUInteger, .kwLong, .kwULong,
    .kwDecimal, .kwSingle, .kwDouble, .kwDate, .kwChar, .kwString, .kwObject, .kwOf, .kwGlobal]

theorem spells_typeWord {k : Keyword} (member : k ∈ typeWords)
    (known : version.supportsV8 = true) :
    SpellsBefore version EndsWord k.spelling.toList (.keyword k k.spelling) := by
  have reserved : ∀ k ∈ typeWords, k.isReserved = true ∧ k ≠ .kwRem := by decide
  have table : ∀ k ∈ typeWords, keywordByteLimit ≥ utf8Length k.spelling.toList ∧
      (foldWord k.spelling.toList).bind (List.lookup · keywordTable) = some k := by
    decide +kernel
  obtain ⟨plain, code⟩ := reserved k member
  obtain ⟨short, listed⟩ := table k member
  exact spells_reserved plain code short listed fun _ => known

theorem spells_intrinsic (t : IntrinsicType) (known : version.supportsV8 = true) :
    SpellsBefore version EndsWord t.spelling.toList (.keyword t.keyword t.spelling) := by
  have spells := spells_typeWord (k := t.keyword) (by cases t <;> decide) known
  rwa [t.spelling_keyword] at spells

theorem SimpleName.IsPlain.spells {n : SimpleName} (plain : n.IsPlain version) :
    SpellsBefore version EndsWord n.text.toList (n.lexeme version) := by
  have spells := spells_written plain.writable
  simpa [SimpleName.written, plain.unescaped, plain.untyped, suffixSymbol] using spells

theorem scans_delimiter {p : Punctuator}
    (delimits : p ∈ [.leftParenthesis, .rightParenthesis, .comma]) (more : Scans version rest ls) :
    Scans version (p.spelling.toList ++ rest) (.punctuator p :: ls) :=
  .word (spells_delimiter version delimits) trivial more

theorem scans_member {n : SimpleName} (plain : n.IsPlain version) (ends : EndsWord rest)
    (more : Scans version rest ls) :
    Scans version (".".toList ++ (n.text.toList ++ rest))
      (.punctuator .period :: n.lexeme version :: ls) := by
  refine .word (spells_period version) ?_ (.word plain.spells ends more)
  obtain ⟨starts, -⟩ := plain.writable.named
  cases text : n.text.toList with
  | nil => simp [text] at starts
  | cons c cs => simpa [text] using starts

theorem Name.IsDotted.scans {n : Name} (dotted : n.IsDotted version)
    (known : version.supportsV8 = true) (ends : EndsWord rest) (more : Scans version rest ls) :
    Scans version (n.render.toList ++ rest) (n.lexemes version ++ ls) := by
  induction dotted generalizing rest ls with
  | simple plain => exact .word plain.spells ends more
  | ofGlobal place dot span plain =>
    have word := spells_typeWord (k := .kwGlobal) (by decide) known
    simp only [Name.render, String.toList_append, List.append_assoc, Name.lexemes, List.cons_append,
      List.nil_append]
    exact .word word (.cons (by decide) _) (scans_member plain ends more)
  | qualified dot span _ plain ih =>
    simp only [Name.render, String.toList_append, List.append_assoc, Name.lexemes, List.cons_append,
      List.nil_append]
    exact ih (.cons (by decide) _) (scans_member plain ends more)

/-- The text of a type name is scanned into its tokens before whatever ends a word. -/
def TypeName.Scannable (version : Version) (t : TypeName) : Prop :=
  ∀ {rest : List Char} {ls : List Lexeme}, EndsWord rest → Scans version rest ls →
    Scans version (t.render.toList ++ rest) (t.lexemes version ++ ls)

theorem toList_renderAll (first : TypeName) (more : List TypeName) :
    (TypeName.renderAll (first :: more)).toList =
      first.render.toList ++ more.flatMap fun t => ", ".toList ++ t.render.toList := by
  induction more generalizing first with
  | nil => simp [TypeName.renderAll]
  | cons t more ih => simp [TypeName.renderAll, ih]

/-- Further arguments and what ends the list. -/
theorem scans_further {types : List TypeName} (scannable : ∀ t ∈ types, t.Scannable version)
    (ends : EndsWord rest) (more : Scans version rest ls) :
    EndsWord (types.flatMap (fun t => ", ".toList ++ t.render.toList) ++ rest) ∧
      Scans version (types.flatMap (fun t => ", ".toList ++ t.render.toList) ++ rest)
        (furtherLexemes version types ++ ls) := by
  induction types with
  | nil => exact ⟨ends, more⟩
  | cons t types ih =>
    rw [List.forall_mem_cons] at scannable
    obtain ⟨behind, scans⟩ := ih scannable.2
    simp only [List.flatMap_cons, List.append_assoc, furtherLexemes, List.cons_append]
    refine ⟨.cons (by decide) _, ?_⟩
    exact scans_delimiter (p := .comma) (by decide) (.blank (scannable.1 behind scans))

theorem scans_commas (count : Nat) (more : Scans version rest ls) :
    Scans version (List.replicate count ',' ++ rest)
      (List.replicate count (.punctuator .comma) ++ ls) := by
  induction count with
  | zero => exact more
  | succ count ih => exact scans_delimiter (p := .comma) (by decide) ih

theorem TypeName.IsWritten.scannable {t : TypeName} (written : t.IsWritten version)
    (known : version.supportsV8 = true) : t.Scannable version := by
  induction written with
  | intrinsic type span => exact fun ends more => .word (spells_intrinsic type known) ends more
  | named span dotted => exact fun ends more => dotted.scans known ends more
  | @constructed n first rest commas openParen ofKeyword close listSpan argumentsSpan span dotted _ _
      ih =>
    intro text ls ends more
    rw [List.forall_mem_cons] at ih
    have word := spells_typeWord (k := .kwOf) (by decide) known
    obtain ⟨behind, further⟩ := scans_further ih.2 (.cons (by decide) text)
      (scans_delimiter (p := .rightParenthesis) (by decide) more)
    simp only [render, String.toList_append, toList_renderAll, List.append_assoc, lexemes,
      List.cons_append, List.nil_append]
    refine dotted.scans known (.cons (by decide) _)
      (scans_delimiter (p := .leftParenthesis) (by decide) ?_)
    exact .word word (.cons (by decide) _) (.blank (ih.1 behind further))
  | array further span _ ih =>
    intro text ls ends more
    simp only [render, String.toList_append, String.toList_ofList, List.append_assoc, lexemes,
      List.cons_append, List.nil_append, Nat.add_sub_cancel]
    refine ih (.cons (by decide) _) (scans_delimiter (p := .leftParenthesis) (by decide) ?_)
    exact scans_commas further (scans_delimiter (p := .rightParenthesis) (by decide) more)

theorem Scans.unmarked {text : List Char} (scans : Scans version text ls) :
    text.head? ≠ some Reader.byteOrderMark := by
  cases scans with
  | nil => simp
  | blank _ => simp [Reader.byteOrderMark]
  | word spells follows _ =>
    rw [List.head?_append_of_ne_nil _ (spells.ne_nil follows)]
    exact spells.unmarked

/-- The tokens of the text of a type name. -/
theorem TypeName.IsWritten.tokenize {t : TypeName} {o : ScanOptions}
    (written : t.IsWritten o.version) (known : o.version.supportsV8 = true) :
    (o.tokenize t.render).map Token.lexeme = t.lexemes o.version ++ [.endOfStream] ∧
      ∀ l ∈ t.lexemes o.version, l.kind ≠ .comment := by
  have scans := written.scannable known .nil .nil
  rw [List.append_nil, List.append_nil] at scans
  exact ⟨scans.lexemes _ scans.unmarked, scans.kind_ne_comment⟩

end

-- Reading lists

namespace Parse

section

variable {α β : Type} {item : Parse α} {written : β → List Lexeme} {Like : α → β → Prop}
  {bound : Nat} {close : Lexeme} {s : ParseState} {first : β} {more : List β} {rest : List Lexeme}

/-- An item with the state to go on with. -/
theorem item_goesOn {P : α → ParseState → Prop} (reads : Ensures item s P) :
    Ensures (do return (← item, some ())) s fun found t => ∃ a, found = (a, some ()) ∧ P a t :=
  reads.bind fun a _ holds => ⟨a, rfl, holds⟩

theorem separatedFrom_reads (apart : close.kind ≠ .mark .comma)
    (reads : ∀ b ∈ first :: more, ∀ {s : ParseState} {l : Lexeme} {rest : List Lexeme},
      l ∈ [.punctuator .comma, close] → s.remaining ≤ bound → s.Faces (written b ++ l :: rest) →
      Ensures item s fun a t => Like a b ∧ t.Faces (l :: rest))
    (within : s.remaining ≤ bound) {fuel : Nat} (enough : more.length ≤ fuel)
    (faces : s.Faces (written first ++
      (more.flatMap (fun b => .punctuator .comma :: written b) ++ close :: rest))) :
    Ensures (separatedFrom (fun _ => do return (← item, some ())) fuel ()) s fun found t =>
      List.Forall₂ Like found.items (first :: more) ∧ t.Faces (close :: rest) := by
  induction more generalizing s first fuel with
  | nil =>
    have only := item_goesOn (reads first List.mem_cons_self (by simp) within faces)
    cases fuel with
    | zero =>
      rw [separatedFrom]
      refine only.bind fun found t read => ?_
      obtain ⟨a, rfl, like, faces⟩ := read
      exact ⟨.cons like .nil, faces⟩
    | succ fuel =>
      rw [separatedFrom]
      refine only.bind fun found t read => ?_
      obtain ⟨a, rfl, like, faces⟩ := read
      refine (eatPlace_absent (by rwa [faces.kind])).bind fun place u eaten => ?_
      obtain ⟨rfl, rfl⟩ := eaten
      exact ⟨.cons like .nil, faces⟩
  | cons next more ih =>
    obtain ⟨fuel, rfl⟩ : ∃ m, fuel = m + 1 := ⟨fuel - 1, by simp at enough; omega⟩
    have item := item_goesOn (reads first List.mem_cons_self (l := .punctuator .comma) (by simp)
      within (by simpa using faces))
    rw [separatedFrom]
    refine item.bind fun found t read => ?_
    obtain ⟨a, rfl, like, comma⟩ := read
    refine (eatPlace_present comma.kind).bind fun place u eaten => ?_
    obtain ⟨⟨place, rfl⟩, rfl⟩ := eaten
    have behind := comma.advance (by simp)
    have fewer : t.advance.remaining ≤ bound := by
      have before := faces.remaining
      have after := behind.remaining
      simp only [List.length_append, List.length_cons, List.flatMap_cons] at before after
      omega
    have others := ih (fun b member => reads b (List.mem_cons_of_mem _ member)) fewer
      (by simpa using enough) (by simpa using behind)
    refine others.bind fun found u read => ?_
    exact ⟨.cons like read.1, read.2⟩

/-- A list is read item by item when each item is read before a comma and before what ends the
list. -/
theorem separated_reads (written : β → List Lexeme) (apart : close.kind ≠ .mark .comma)
    (reads : ∀ b ∈ first :: more, ∀ {s : ParseState} {l : Lexeme} {rest : List Lexeme},
      l ∈ [.punctuator .comma, close] → s.remaining ≤ bound → s.Faces (written b ++ l :: rest) →
      Ensures item s fun a t => Like a b ∧ t.Faces (l :: rest))
    (within : s.remaining ≤ bound)
    (faces : s.Faces (written first ++
      (more.flatMap (fun b => .punctuator .comma :: written b) ++ close :: rest))) :
    Ensures (separated item) s fun found t =>
      List.Forall₂ Like found.items (first :: more) ∧ t.Faces (close :: rest) := by
  refine .get (separatedFrom_reads apart reads within ?_ faces)
  have length := faces.remaining
  have commas : more.length ≤
      (more.flatMap fun b => Lexeme.punctuator .comma :: written b).length := by
    simp [List.length_flatMap]
  simp only [List.length_append, List.length_cons] at length
  omega

end

end Parse

open Parse

-- Reading a name

theorem SimpleName.IsPlain.not_missing {version : Version} {n : SimpleName}
    (plain : n.IsPlain version) : n.isMissing = false := by
  obtain ⟨starts, -⟩ := plain.writable.named
  rw [isMissing, Bool.eq_false_iff]
  intro none
  rw [String.isEmpty_iff] at none
  simp [none] at starts

/-- A name is read as a part of what may be a longer one: reading goes on with the parts behind it. -/
def Name.Readable (version : Version) (n : Name) : Prop :=
  ∀ {s : ParseState} {rest : List Lexeme} {Q : Name → ParseState → Prop},
    s.Faces (n.lexemes version ++ rest) → rest ≠ [] →
    (∀ found t fuel, found.Alike n → t.Faces rest → t.remaining ≤ fuel →
      Ensures (nameParts fuel found) t Q) →
    Ensures name s Q

section

variable {version : Version} {s : ParseState} {rest : List Lexeme} {n : SimpleName}

theorem nameParts_stop (fuel : Nat) (found : Name) (absent : s.kind ≠ .mark .period) :
    Ensures (nameParts fuel found) s fun found' t => found' = found ∧ t = s := by
  cases fuel with
  | zero => exact ⟨rfl, rfl⟩
  | succ fuel =>
    refine (eatPlace_absent absent).bind fun place t eaten => ?_
    obtain ⟨rfl, rfl⟩ := eaten
    exact ⟨rfl, rfl⟩

/-- A dot and the plain name behind it become part of the name that has been read. -/
theorem nameParts_member {q found : Name} {fuel : Nat} {Q : Name → ParseState → Prop} (dot : Location)
    (span : Span) (plain : n.IsPlain version) (alike : found.Alike q)
    (faces : s.Faces (.punctuator .period :: n.lexeme version :: rest)) (more : rest ≠ [])
    (enough : s.remaining ≤ fuel)
    (goOn : ∀ found t fuel, found.Alike (.qualified q dot n span) → t.Faces rest →
      t.remaining ≤ fuel → Ensures (nameParts fuel found) t Q) :
    Ensures (nameParts fuel found) s Q := by
  have here := faces.remaining
  have member := faces.advance (by simp)
  have behind := member.advance more
  have there := behind.remaining
  simp only [List.length_cons] at here
  obtain ⟨fuel, rfl⟩ : ∃ m, fuel = m + 1 := ⟨fuel - 1, by omega⟩
  have spells : s.advance.current.name?.isSome = true := by
    simp [Token.name?, member.lexeme, SimpleName.lexeme]
  have part := SimpleName.ofToken_of_lexeme member.lexeme
  have reads : Ensures memberName s.advance fun part t =>
      part = { n with span := s.advance.current.span } ∧ t = s.advance.advance := by
    refine .peek ?_
    rw [spells]
    exact ensures_skip ⟨part, rfl⟩
  refine (eatPlace_present faces.kind).bind fun place t eaten => ?_
  obtain ⟨⟨place, rfl⟩, rfl⟩ := eaten
  refine reads.bind fun part t read => ?_
  obtain ⟨rfl, rfl⟩ := read
  rw [if_neg (by simpa [SimpleName.isMissing] using plain.not_missing)]
  refine goOn _ _ _ ?_ behind (by omega)
  exact congrArg (Name.qualified · _ _ _) alike

end

theorem Name.IsDotted.readable {version : Version} {n : Name} (dotted : n.IsDotted version) :
    n.Readable version := by
  induction dotted with
  | @simple n plain =>
    intro s rest Q faces more goOn
    have kind : s.current.kind = .identifier := faces.kind
    refine .peek ?_
    rw [kind]
    refine ensures_skip (.get (goOn _ _ _ ?_ (faces.advance more) (Nat.le_refl _)))
    rw [SimpleName.ofToken_of_lexeme faces.lexeme]
    rfl
  | ofGlobal place dot span plain =>
    intro s rest Q faces more goOn
    have kind : s.current.kind = .word .kwGlobal := faces.kind
    have dotted := faces.advance (by simp)
    refine .peek ?_
    rw [kind]
    refine ensures_skip (.check ?_)
    rw [show (s.advance.kind == .mark .period) = true by rw [dotted.kind]; rfl]
    refine .get ?_
    exact nameParts_member dot span plain rfl dotted more (Nat.le_refl _) goOn
  | qualified dot span _ plain ih =>
    intro s rest Q faces more goOn
    refine ih (by simpa [Name.lexemes] using faces) (by simp) fun found t fuel alike faces enough => ?_
    exact nameParts_member dot span plain alike faces more enough goOn

-- Reading a type name

/-- A type name ends before such tokens, if it is one of its arguments or the whole: they start with
no dot and no parenthesis. -/
def EndsType : List Lexeme → Prop
  | [] => False
  | l :: _ => l.kind ∉ [.mark .period, .mark .leftParenthesis]

/-- Neither a further part of a name nor type arguments follow. -/
def EndsElement : List Lexeme → Prop
  | [] => False
  | l :: rest => l.kind ≠ .mark .period ∧
      (l.kind = .mark .leftParenthesis → ∃ m more, rest = m :: more ∧ m.kind ≠ .word .kwOf)

theorem EndsType.endsElement {rest : List Lexeme} (ends : EndsType rest) : EndsElement rest := by
  cases rest with
  | nil => exact ends
  | cons l rest =>
    simp only [EndsType, List.mem_cons, List.not_mem_nil, or_false, not_or] at ends
    exact ⟨ends.1, fun same => absurd same ends.2⟩

/-- The rules for a depth of nesting read a type name as the element of what may be an array: reading
goes on with the array suffixes behind it. -/
def TypeName.Readable (version : Version) (t : TypeName) : Prop :=
  ∀ (k : Nat) {s : ParseState} {rest : List Lexeme} {Q : TypeName → ParseState → Prop},
    s.Faces (t.lexemes version ++ rest) → EndsElement rest → s.remaining ≤ k →
    (∀ found u fuel, found.Alike t → found.isBad = false → u.Faces rest → u.remaining ≤ fuel →
      Ensures (arraySuffixes (.ofDepth version k) fuel found) u Q) →
    Ensures (typeName (.ofDepth version k)) s Q

theorem EndsElement.ne_nil {rest : List Lexeme} (ends : EndsElement rest) : rest ≠ [] := by
  rintro rfl
  exact ends

section

variable {version : Version} {r : Rules} {s : ParseState} {l : Lexeme} {rest : List Lexeme}

theorem EndsElement.not_atTypeArguments (ends : EndsElement rest) (faces : s.Faces rest) :
    s.atTypeArguments = false := by
  cases rest with
  | nil => exact ends.elim
  | cons l rest =>
    rw [ParseState.atTypeArguments, Bool.and_eq_false_imp, faces.kind]
    intro opens
    obtain ⟨m, more, rfl, other⟩ := ends.2 (beq_iff_eq.1 opens)
    rw [faces.kindAfter]
    exact beq_false_of_ne other

theorem arraySuffixes_stop (fuel : Nat) (found : TypeName) (faces : s.Faces rest)
    (ends : EndsType rest) :
    Ensures (arraySuffixes r fuel found) s fun found' t => found' = found ∧ t = s := by
  cases fuel with
  | zero => exact ⟨rfl, rfl⟩
  | succ fuel =>
    have none : (s.kind == .mark .leftParenthesis) = false := by
      cases rest with
      | nil => exact ends.elim
      | cons l rest =>
        simp only [EndsType, List.mem_cons, List.not_mem_nil, or_false, not_or] at ends
        rw [faces.kind]
        exact beq_false_of_ne ends.2
    refine .get ?_
    rw [none]
    exact ⟨rfl, rfl⟩

/-- No extent stands between the commas. -/
theorem dimension_empty (kind : s.kind = .mark .comma ∨ s.kind = .mark .rightParenthesis) :
    Ensures (dimension r) s fun found t => found = none ∧ t = s := by
  refine .get ?_
  obtain kind | kind := kind
  all_goals
    rw [kind]
    exact ⟨rfl, rfl⟩

/-- Commas in parentheses are a number of dimensions. -/
theorem arrayBounds_commas (further : Nat)
    (faces : s.Faces (.punctuator .leftParenthesis ::
      (List.replicate further (.punctuator .comma) ++ .punctuator .rightParenthesis :: rest)))
    (more : rest ≠ []) :
    Ensures (arrayBounds r false) s fun found t =>
      (found.rank = further + 1 ∧ found.isRankOnly = true) ∧ t.Faces rest := by
  have inside := faces.advance (by simp)
  have list : Ensures (separated (dimension r)) s.advance fun found t =>
      List.Forall₂ (fun extent _ => extent = none) found.items (() :: List.replicate further ()) ∧
        t.Faces (.punctuator .rightParenthesis :: rest) := by
    refine separated_reads (fun _ => []) (by simp [Lexeme.kind]) (fun _ _ _ _ _ next _ faces => ?_)
      (Nat.le_refl _) (by simpa [List.flatMap_replicate] using inside)
    refine (dimension_empty ?_).mono fun found t empty => ?_
    · rw [faces.kind]
      simp only [List.mem_cons, List.not_mem_nil, or_false] at next
      obtain rfl | rfl := next <;> simp [Lexeme.kind]
    · obtain ⟨rfl, rfl⟩ := empty
      exact ⟨rfl, faces⟩
  refine ensures_read (list.bind fun dimensions t read => ?_)
  obtain ⟨likes, closes⟩ := read
  have empty : dimensions.items = (() :: List.replicate further ()).map fun _ => none := by
    rw [← List.forall₂_eq_eq_eq, List.forall₂_map_right_iff]
    exact likes
  have none : dimensions.items.filterMap id = [] := by simp [empty]
  simp only [none, List.head?_nil]
  refine Ensures.bind (P := fun list u => list = CommaList.empty s.current.span.start ∧ u = t)
    ⟨rfl, rfl⟩ fun list u made => ?_
  obtain ⟨rfl, rfl⟩ := made
  refine (closeParenthesis_reads closes more).bind fun close u read => ?_
  obtain ⟨⟨place, closed⟩, faces⟩ := read
  refine .spanFrom ⟨⟨?_, rfl⟩, faces⟩
  show dimensions.items.length = further + 1
  simp [empty]

theorem TypeName.Readable.nested {t : TypeName} {k : Nat} (readable : t.Readable version)
    (faces : s.Faces (t.lexemes version ++ rest)) (ends : EndsType rest) (within : s.remaining < k) :
    Ensures (Rules.ofDepth version k).typeName s fun found u => found.Alike t ∧ u.Faces rest := by
  cases k with
  | zero => omega
  | succ k =>
    refine readable k faces ends.endsElement (by omega) fun found u fuel alike _ faces _ => ?_
    refine (arraySuffixes_stop fuel found faces ends).mono fun found' v stops => ?_
    obtain ⟨rfl, rfl⟩ := stops
    exact ⟨alike, faces⟩

theorem readable_of_element {t : TypeName}
    (reads : ∀ {k : Nat} {s : ParseState} {rest : List Lexeme},
      s.Faces (t.lexemes version ++ rest) → EndsElement rest → s.remaining ≤ k →
      Ensures (elementType (.ofDepth version k)) s fun found u =>
        (found.Alike t ∧ found.isBad = false) ∧ u.Faces rest) : t.Readable version := by
  intro k s rest Q faces ends bound goOn
  refine (reads faces ends bound).bind fun found u ⟨⟨alike, good⟩, faces⟩ => ?_
  rw [good]
  exact .get (goOn found u _ alike good faces (Nat.le_refl _))

theorem readable_intrinsic (type : IntrinsicType) (span : Span) :
    (TypeName.intrinsic type span).Readable version := by
  refine readable_of_element fun {k s rest} faces ends _ => ?_
  have faces : s.Faces (.keyword type.keyword type.spelling :: rest) := faces
  have denotes : IntrinsicType.ofKind? s.current.kind = some type :=
    (congrArg IntrinsicType.ofKind? faces.kind).trans type.ofKind?_keyword
  refine .peek ?_
  rw [denotes]
  exact ensures_skip ⟨⟨rfl, rfl⟩, faces.advance ends.ne_nil⟩

/-- Suffixes of an array are read one after the other, the innermost first. -/
theorem readable_array {e : TypeName} (further : Nat) (span : Span) (readable : e.Readable version) :
    (TypeName.array e (further + 1) none span).Readable version := by
  intro k s rest Q faces ends bound goOn
  have faces : s.Faces (e.lexemes version ++ .punctuator .leftParenthesis ::
      (List.replicate further (.punctuator .comma) ++ .punctuator .rightParenthesis :: rest)) := by
    simpa [TypeName.lexemes] using faces
  have suffix : EndsElement (.punctuator .leftParenthesis ::
      (List.replicate further (.punctuator .comma) ++ .punctuator .rightParenthesis :: rest)) := by
    refine ⟨by simp [Lexeme.kind], fun _ => ?_⟩
    cases further with
    | zero => exact ⟨_, _, rfl, by simp [Lexeme.kind]⟩
    | succ further => exact ⟨_, _, rfl, by simp [Lexeme.kind]⟩
  refine readable k faces suffix bound fun found u fuel alike good opens enough => ?_
  have here := opens.remaining
  simp only [List.length_cons, List.length_append] at here
  obtain ⟨fuel, rfl⟩ : ∃ m, fuel = m + 1 := ⟨fuel - 1, by omega⟩
  have condition : (u.kind == .mark .leftParenthesis && !u.atTypeArguments) = true := by
    rw [opens.kind, suffix.not_atTypeArguments opens]
    rfl
  refine .get ?_
  rw [condition]
  refine (arrayBounds_commas further opens ends.ne_nil).bind fun bounds v read => ?_
  obtain ⟨⟨rank, only⟩, after⟩ := read
  have there := after.remaining
  refine .spanFrom (goOn _ _ _ ?_ rfl after (by omega))
  rw [arrayOver, rank, only]
  exact congrArg (TypeName.array · _ _ _) alike

theorem Name.IsDotted.begins {n : Name} (dotted : n.IsDotted version) :
    ∃ l ls, n.lexemes version = l :: ls ∧ (l.kind = .identifier ∨ l.kind = .word .kwGlobal) := by
  induction dotted with
  | simple plain => exact ⟨_, _, rfl, .inl rfl⟩
  | ofGlobal place dot span plain => exact ⟨_, _, rfl, .inr rfl⟩
  | qualified dot span _ plain ih =>
    obtain ⟨l, ls, begins, kind⟩ := ih
    exact ⟨l, _, by rw [Name.lexemes, begins]; rfl, kind⟩

/-- The name of a type is read up to where no dot follows. -/
theorem name_reads {n : Name} (dotted : n.IsDotted version) (faces : s.Faces (n.lexemes version ++ l :: rest))
    (ends : l.kind ≠ .mark .period) :
    Ensures name s fun found t => found.Alike n ∧ t.Faces (l :: rest) := by
  refine dotted.readable faces (by simp) fun found t fuel alike faces _ => ?_
  refine (nameParts_stop fuel found (by rwa [faces.kind])).mono fun found' u stops => ?_
  obtain ⟨rfl, rfl⟩ := stops
  exact ⟨alike, faces⟩

/-- The first token tells that a name is read, not an intrinsic type. -/
theorem elementType_named {n : Name} {Q : TypeName → ParseState → Prop} (dotted : n.IsDotted version)
    (faces : s.Faces (n.lexemes version ++ l :: rest)) (ends : l.kind ≠ .mark .period)
    (plain : ∀ found t, found.Alike n → t.Faces (l :: rest) → t.atTypeArguments = false →
      Q (.named found found.span) t)
    (arguments : ∀ found t, found.Alike n → t.Faces (l :: rest) → t.atTypeArguments = true →
      Ensures (do
        let arguments ← typeArguments r
        return .constructed found arguments (← spanFrom s.current.span.start)) t Q) :
    Ensures (elementType r) s Q := by
  obtain ⟨first, ls, begins, kind⟩ := dotted.begins
  have current : s.current.kind = first.kind := by
    rw [begins] at faces
    exact faces.kind
  have none : IntrinsicType.ofKind? s.current.kind = none := by
    rw [current]
    obtain kind | kind := kind <;> rw [kind] <;> rfl
  refine .peek ?_
  rw [none]
  simp only [current, kind, if_true]
  refine (name_reads dotted faces ends).bind fun found t ⟨alike, faces⟩ => .get ?_
  split
  next starts => exact arguments found t alike faces starts
  next other => exact plain found t alike faces (Bool.eq_false_iff.2 other)

theorem readable_named {n : Name} (span : Span) (dotted : n.IsDotted version) :
    (TypeName.named n span).Readable version := by
  refine readable_of_element fun {k s rest} faces ends _ => ?_
  cases rest with
  | nil => exact ends.elim
  | cons l rest =>
    refine elementType_named dotted faces ends.1 (fun found t alike faces _ => ?_)
      fun found t _ faces starts => ?_
    · exact ⟨⟨congrArg (TypeName.named · _) alike, rfl⟩, faces⟩
    · rw [ends.not_atTypeArguments faces] at starts
      contradiction

/-- Type arguments with commas between them, in parentheses behind `Of`. -/
theorem typeArguments_reads {k : Nat} {first : TypeName} {more : List TypeName}
    (readable : ∀ t ∈ first :: more, t.Readable version)
    (faces : s.Faces (.punctuator .leftParenthesis :: .keyword .kwOf "Of" ::
      (first.lexemes version ++ (furtherLexemes version more ++
        .punctuator .rightParenthesis :: rest)))) (ends : rest ≠ []) (within : s.remaining ≤ k) :
    Ensures (typeArguments (.ofDepth version k)) s fun found t =>
      ((∃ place, found.closeParen = some place) ∧
        List.Forall₂ TypeName.Alike found.arguments.items (first :: more) ∧
          found.arguments.separators.length = more.length) ∧ t.Faces rest := by
  have word := faces.advance (by simp)
  have inside := word.advance (by simp)
  have here := faces.remaining
  have there := inside.remaining
  simp only [List.length_cons] at here
  rw [furtherLexemes_eq] at inside
  have list : Ensures (separated (Rules.ofDepth version k).typeName) s.advance.advance fun found t =>
      List.Forall₂ TypeName.Alike found.items (first :: more) ∧
        t.Faces (.punctuator .rightParenthesis :: rest) := by
    refine separated_reads (·.lexemes version) (by simp [Lexeme.kind])
      (fun t member _ _ _ next bound faces => ?_) (Nat.le_refl _) inside
    refine (readable t member).nested faces ?_ (by omega)
    simp only [List.mem_cons, List.not_mem_nil, or_false] at next
    obtain rfl | rfl := next <;> simp [EndsType, Lexeme.kind]
  have generic : Ensures (genericList TypeName.span (Rules.ofDepth version k).typeName) s
      fun found t => ((∃ place, found.2.2.2 = some place) ∧
        List.Forall₂ TypeName.Alike found.2.2.1.items (first :: more) ∧
          found.2.2.1.separators.length = more.length) ∧ t.Faces rest := by
    refine ensures_read (ensures_read (list.bind fun items t read => ?_))
    obtain ⟨likes, closes⟩ := read
    refine .spanFrom ((closeParenthesis_reads closes ends).bind fun close u read => ?_)
    obtain ⟨closed, faces⟩ := read
    refine ⟨⟨closed, likes, ?_⟩, faces⟩
    have separators := items.length_separators
    rw [likes.length_eq, List.length_cons] at separators
    exact Nat.succ.inj separators
  exact generic.bind fun found t read => .spanFrom ⟨read.1, read.2⟩

/-- Lists of type arguments are alike when their arguments are and both are closed. -/
theorem relocate_typeArguments {found given : TypeArguments}
    (closed : (∃ place, found.closeParen = some place) ∧ ∃ place, given.closeParen = some place)
    (likes : List.Forall₂ TypeName.Alike found.arguments.items given.arguments.items)
    (commas : found.arguments.separators.length = given.arguments.separators.length) :
    relocate (fun _ => Location.origin) found = relocate (fun _ => Location.origin) given := by
  have items : relocate (fun _ => Location.origin) found.arguments.items =
      relocate (fun _ => Location.origin) given.arguments.items := by
    change List.map _ _ = List.map _ _
    rw [← List.forall₂_eq_eq_eq, List.forall₂_map_left_iff, List.forall₂_map_right_iff]
    exact likes
  have separators : relocate (fun _ => Location.origin) found.arguments.separators =
      relocate (fun _ => Location.origin) given.arguments.separators := by
    have all (l : List Location) : relocate (fun _ => Location.origin) l =
        List.replicate l.length .origin := List.map_const'
    rw [all, all, commas]
  obtain ⟨openParen, ofKeyword, ⟨types, places, listSpan⟩, close, span⟩ := found
  obtain ⟨openParen', ofKeyword', ⟨types', places', listSpan'⟩, close', span'⟩ := given
  obtain ⟨⟨place, rfl⟩, place', rfl⟩ := closed
  change TypeArgumentList.mk _ _ (CommaList.mk (relocate _ types) (relocate _ places) _) _ _ = _
  rw [items, separators]
  rfl

theorem alike_constructed {n m : Name} {a b : TypeArguments} {span other : Span} (alike : n.Alike m)
    (list : relocate (fun _ => Location.origin) a = relocate (fun _ => Location.origin) b) :
    (TypeName.constructed n a span).Alike (.constructed m b other) := by
  rw [TypeName.Alike, relocate_constructed, relocate_constructed, list, alike]
  rfl

theorem readable_constructed {n : Name} {first : TypeName} {more : List TypeName}
    {commas : List Location} (openParen ofKeyword close : Location)
    (listSpan argumentsSpan span : Span) (dotted : n.IsDotted version)
    (readable : ∀ t ∈ first :: more, t.Readable version) (separated : commas.length = more.length) :
    (TypeName.constructed n ⟨openParen, ofKeyword, ⟨first :: more, commas, listSpan⟩, some close,
      argumentsSpan⟩ span).Readable version := by
  refine readable_of_element fun {k s rest} faces ends within => ?_
  have faces : s.Faces (n.lexemes version ++ .punctuator .leftParenthesis ::
      .keyword .kwOf "Of" :: (first.lexemes version ++ (furtherLexemes version more ++
        .punctuator .rightParenthesis :: rest))) := by
    simpa [TypeName.lexemes] using faces
  refine elementType_named dotted faces (by simp [Lexeme.kind]) (fun found t _ faces other => ?_)
    fun found t alike faces' _ => ?_
  · rw [ParseState.atTypeArguments, faces.kind, faces.kindAfter] at other
    contradiction
  · have here := faces.remaining
    have there := faces'.remaining
    simp only [List.length_append] at here there
    refine (typeArguments_reads readable faces' ends.ne_nil (by omega)).bind fun list u read => ?_
    obtain ⟨⟨⟨place, closed⟩, likes, commas'⟩, faces⟩ := read
    refine .spanFrom ⟨⟨?_, rfl⟩, faces⟩
    refine alike_constructed alike (relocate_typeArguments ⟨⟨place, closed⟩, close, rfl⟩ likes ?_)
    exact commas'.trans separated.symm

theorem TypeName.IsWritten.readable {t : TypeName} (written : t.IsWritten version) :
    t.Readable version := by
  induction written with
  | intrinsic type span => exact readable_intrinsic type span
  | named span dotted => exact readable_named span dotted
  | constructed openParen ofKeyword close listSpan argumentsSpan span dotted _ separated ih =>
    exact readable_constructed openParen ofKeyword close listSpan argumentsSpan span dotted ih
      separated
  | array further span _ ih => exact readable_array further span ih

end

-- Whole texts

/-- At every depth that is no limit, the text of a type name is read up to its end. -/
theorem TypeName.IsWritten.reads {t : TypeName} {o : ScanOptions} (written : t.IsWritten o.version)
    (known : o.version.supportsV8 = true) (depth : Nat)
    (deep : ((o.tokenize t.render).filter fun token => !token.isComment).length < depth) :
    Ensures (typeName (.ofDepth o.version depth)) (o.before t.render) fun found u =>
      found.Alike t ∧ u.Faces [.endOfStream] := by
  obtain ⟨lexemes, plain⟩ := written.tokenize known
  unfold ScanOptions.before
  generalize o.tokenize t.render = tokens at lexemes deep ⊢
  rw [filter_isComment lexemes plain] at deep ⊢
  have faces : (ParseState.start (tokens.filterMap Token.comment?) tokens).Faces
      (t.lexemes o.version ++ [.endOfStream]) := by
    cases tokens with
    | nil => simp at lexemes
    | cons token rest => exact ⟨lexemes, rfl⟩
  have few := (ParseState.start_frame (tokens.filterMap Token.comment?) tokens).1
  have ends : EndsType [.endOfStream] := by simp [EndsType, Lexeme.kind]
  refine written.readable depth faces ends.endsElement (by omega) fun found u fuel alike _ faces _ => ?_
  refine (arraySuffixes_stop fuel found faces ends).mono fun found' v stops => ?_
  obtain ⟨rfl, rfl⟩ := stops
  exact ⟨alike, faces⟩

/-- Parsing undoes writing: the text of a type name is parsed without problems into the type name, and
nothing of the text is left. -/
theorem parseTypeName_render {t : TypeName} (written : t.IsWritten .v80) (tab : Nat) :
    (parseTypeName ⟨.v80, tab⟩ t.render).diagnostics = [] ∧
      ScanOptions.Exhausts ⟨.v80, tab⟩ t.render (fun r _ => typeName r) false ∧
      (parseTypeName ⟨.v80, tab⟩ t.render).tree.Alike t := by
  have reads := written.reads (o := ⟨.v80, tab⟩) rfl
  obtain ⟨alike, faces⟩ := reads _ (Nat.lt_succ_self _)
  refine ⟨faces.clean, fun depth deep => ?_, alike⟩
  have wf := ParseState.wf_start (((⟨.v80, tab⟩ : ScanOptions).tokenize t.render).filterMap
    Token.comment?) (stream_tokenize ⟨.v80, tab⟩ t.render)
  exact ((typeName_yields (Rules.ofDepth_sound .v80 depth) wf).and (reads depth deep)).mono
    fun _ _ ⟨so, _, faces⟩ => ⟨so.runs, faces.kind⟩

theorem SimpleName.isPlain_of_free {text : String} {place : Span}
    (named : text.toList.head?.any isIdentifierStart = true ∧
      text.toList.all isIdentifierPart = true)
    (free : Keyword.ofWord? .v80 text.toList = none) (joined : text.toList.map halfWidth ≠ ['_']) :
    (⟨text, none, false, place⟩ : SimpleName).IsPlain .v80 :=
  ⟨⟨⟨named.1, List.all_eq_true.1 named.2⟩, by simp, fun _ _ => by simp [free], fun _ => joined⟩, rfl,
    rfl⟩

/-- Arrays within type arguments, type arguments within type arguments, and a name from the root. -/
def nestedType (place : Span) : TypeName :=
  let word (text : String) : SimpleName := ⟨text, none, false, place⟩
  let list (first : TypeName) (rest : List TypeName) : TypeArguments :=
    ⟨place.start, place.start, ⟨first :: rest, rest.map fun _ => place.start, place⟩,
      some place.start, place⟩
  let inner : TypeName :=
    .constructed (.simple (word "C")) (list (.named (.simple (word "d")) place) []) place
  let outer : Name := .qualified (.qualified (.globalNamespace place) place.start (word "a") place)
    place.start (word "B") place
  .array (.constructed outer (list (.array (.intrinsic .integer place) 1 none place)
    [.array inner 2 none place]) place) 3 none place

theorem nestedType_isWritten (place : Span) : (nestedType place).IsWritten .v80 := by
  have plain : ∀ text ∈ ["a", "B", "C", "d"],
      (⟨text, none, false, place⟩ : SimpleName).IsPlain .v80 := by
    have words : ∀ text ∈ ["a", "B", "C", "d"],
        (text.toList.head?.any isIdentifierStart = true ∧
          text.toList.all isIdentifierPart = true) ∧
        Keyword.ofWord? .v80 text.toList = none ∧ text.toList.map halfWidth ≠ ['_'] := by
      decide
    intro text member
    obtain ⟨named, free, joined⟩ := words text member
    exact SimpleName.isPlain_of_free named free joined
  refine .array 2 _ (.constructed _ _ _ _ _ _ (.qualified _ _ (.ofGlobal _ _ _ ?_) ?_) ?_ rfl)
  · exact plain "a" (by simp)
  · exact plain "B" (by simp)
  · rintro t (_ | ⟨_, _ | ⟨_, ⟨⟩⟩⟩)
    · exact .array 0 _ (.intrinsic _ _)
    · refine .array 1 _ (.constructed _ _ _ _ _ _ (.simple (plain "C" (by simp))) ?_ rfl)
      rintro t (_ | ⟨_, ⟨⟩⟩)
      exact .named _ (.simple (plain "d" (by simp)))

theorem parseTypeName_nestedType :
    (nestedType default).render = "Global.a.B(Of Integer(), C(Of d)(,))(,,)" ∧
      (parseTypeName ⟨.v80, 4⟩ (nestedType default).render).diagnostics = [] ∧
      (parseTypeName ⟨.v80, 4⟩ (nestedType default).render).tree.Alike (nestedType default) := by
  obtain ⟨clean, -, alike⟩ := parseTypeName_render (nestedType_isWritten default) 4
  exact ⟨by decide +kernel, clean, alike⟩

end VisualBasic
