import VisualBasic.Proofs.Scan.Resume

/-!
The older version of the language knows fewer keywords and no unsigned literals.  In a text without
unsigned literals it finds the same tokens as the newer one, where keywords that it does not know are
names.
-/

set_option autoImplicit false

namespace VisualBasic

namespace Lexeme

/-- The lexeme without keywords of the newer version. -/
def demote : Lexeme → Lexeme
  | identifier name => identifier { name with word := name.word.filter fun k => !k.sinceV8 }
  | keyword k text => if k.sinceV8 then identifier ⟨text, none, false, none⟩ else keyword k text
  | l => l

/-- The lexeme is a number, or one that has no value. -/
def isNumeric : Lexeme → Bool
  | literal (.integer _ _ _) | literal (.floatingPoint _ _) | literal (.decimal _ _) => true
  | fault .invalidIntegerLiteral | fault .invalidFloatingPointLiteral
  | fault .invalidDecimalLiteral => true
  | _ => false

theorem kind_demote (l : Lexeme) : l.demote.kind = .endOfStream ↔ l.kind = .endOfStream := by
  cases l with
  | keyword k text =>
    simp only [demote]
    split <;> simp [kind]
  | _ => rfl

theorem isNumeric_demote (l : Lexeme) : l.demote.isNumeric = l.isNumeric := by
  cases l with
  | keyword k text =>
    simp only [demote]
    split <;> rfl
  | _ => rfl

theorem demote_of_isNumeric {l : Lexeme} (numeric : l.isNumeric = true) : l.demote = l := by
  cases l with
  | identifier | keyword => simp [isNumeric] at numeric
  | _ => rfl

end Lexeme

def Token.demote (t : Token) : Token := ⟨t.lexeme.demote, t.span⟩

theorem Token.kind_demote (t : Token) : t.demote.kind = .endOfStream ↔ t.kind = .endOfStream :=
  t.lexeme.kind_demote

/-- The text ends with `US`, `UI` or `UL`, in any width and case. -/
def endsUnsigned (cs : List Char) : Bool :=
  [['U', 'S'], ['U', 'I'], ['U', 'L']].any fun suffix =>
    suffix.isSuffixOf (cs.map fun c => (halfWidth c).toUpper)

theorem endsUnsigned_append {cs : List Char} (ends : endsUnsigned cs = true) (before : List Char) :
    endsUnsigned (before ++ cs) = true := by
  simp only [endsUnsigned, List.any_eq_true, List.isSuffixOf_iff_suffix, List.map_append] at ends ⊢
  obtain ⟨suffix, member, found⟩ := ends
  exact ⟨suffix, member, found.trans (List.suffix_append _ _)⟩

namespace Scan

variable {cs : List Char} {integralOnly : Bool}

-- Suffixes of numbers

theorem isUnsigned_of_ofSymbol? {c : Char} {t : TypeCharacter}
    (symbol : TypeCharacter.ofSymbol? c = some t) : t.isUnsigned = false := by
  unfold TypeCharacter.ofSymbol? at symbol
  split at symbol <;> first | contradiction | (obtain rfl := Option.some.inj symbol; rfl)

theorem letterSuffix?_v71 (integralOnly : Bool) (first : Char) (second : Option Char) :
    letterSuffix? .v71 integralOnly first second =
      (letterSuffix? .v80 integralOnly first second).filter fun s => !s.1.isUnsigned := by
  unfold letterSuffix?
  split
  case h_7 =>
    simp only [Version.supportsV8, Bool.false_eq_true, if_false, if_true]
    split <;> rfl
  all_goals first | rfl | (split <;> rfl)

/-- The older version knows the suffixes that are not unsigned. -/
theorem numberSuffix?_v71 (integralOnly : Bool) (cs : List Char) :
    numberSuffix? .v71 integralOnly cs =
      (numberSuffix? .v80 integralOnly cs).filter fun s => !s.1.isUnsigned := by
  cases cs with
  | nil => rfl
  | cons c rest =>
    cases symbol : TypeCharacter.ofSymbol? (halfWidth c) with
    | some t =>
      rw [numberSuffix?_symbol symbol, numberSuffix?_symbol symbol]
      cases symbolSuffix? integralOnly t rest <;> simp [Option.filter, isUnsigned_of_ofSymbol? symbol]
    | none =>
      rw [numberSuffix?_letters symbol, numberSuffix?_letters symbol, letterSuffix?_v71,
        Option.filter_filter, Option.filter_filter]
      simp only [Bool.and_comm]

theorem endsUnsigned_of_letterSuffix? {version : Version} {first : Char}
    {found : TypeCharacter × Nat} {next : Option Char}
    (suffix : letterSuffix? version integralOnly first next = some found)
    (unsigned : found.1.isUnsigned = true) :
    found.2 = 2 ∧ first.toUpper = 'U' ∧ ∃ l ∈ next, l.toUpper ∈ ['S', 'I', 'L'] := by
  unfold letterSuffix? at suffix
  split at suffix
  case h_7 upper =>
    split at suffix
    · split at suffix
      case h_4 => contradiction
      all_goals
        obtain rfl := Option.some.inj suffix
        next letter =>
          obtain ⟨l, isNext, isLetter⟩ := Option.map_eq_some_iff.1 letter
          exact ⟨rfl, upper, l, isNext, by simp [isLetter]⟩
    · contradiction
  all_goals
    -- The suffix of one letter that is left in each of these cases is not unsigned.
    grind [TypeCharacter.isUnsigned]

theorem endsUnsigned_of_numberSuffix? {version : Version} {found : TypeCharacter × Nat}
    (suffix : numberSuffix? version integralOnly cs = some found)
    (unsigned : found.1.isUnsigned = true) : endsUnsigned (cs.take found.2) = true := by
  cases cs with
  | nil => simp [numberSuffix?] at suffix
  | cons u rest =>
    cases symbol : TypeCharacter.ofSymbol? (halfWidth u) with
    | some t =>
      rw [numberSuffix?_symbol symbol] at suffix
      split at suffix
      · obtain rfl := Option.some.inj suffix
        rw [isUnsigned_of_ofSymbol? symbol] at unsigned
        contradiction
      · contradiction
    | none =>
      rw [numberSuffix?_letters symbol] at suffix
      obtain ⟨letters, -⟩ := Option.filter_eq_some_iff.1 suffix
      obtain ⟨two, upper, l, second, kind⟩ := endsUnsigned_of_letterSuffix? letters unsigned
      obtain ⟨l, front, rfl⟩ := Option.map_eq_some_iff.1 second
      obtain ⟨tail, rfl⟩ := List.head?_eq_some_iff.1 front
      simp only [List.mem_cons, List.not_mem_nil, or_false] at kind
      rw [two]
      rcases kind with kind | kind | kind <;> simp [endsUnsigned, upper, kind]

/-- Where the newer version finds no unsigned suffix, the older one finds the same. -/
theorem numberSuffix?_eq {n : Nat}
    (signed : endsUnsigned (cs.take (n + (numberSuffix? .v80 integralOnly (cs.drop n)).elim 0 (·.2)))
      = false) :
    numberSuffix? .v71 integralOnly (cs.drop n) = numberSuffix? .v80 integralOnly (cs.drop n) := by
  rw [numberSuffix?_v71]
  cases suffix : numberSuffix? .v80 integralOnly (cs.drop n) with
  | none => rfl
  | some found =>
    have keeps : found.1.isUnsigned = false := by
      by_contra unsigned
      have ends := endsUnsigned_of_numberSuffix? suffix (Bool.of_not_eq_false unsigned)
      rw [suffix, Option.elim_some, List.take_add, endsUnsigned_append ends] at signed
      contradiction
    simp [Option.filter, keeps]

-- Numbers

theorem isNumeric_integerLexeme (digits : List Nat) (base : IntegerBase) (suffix : Option TypeCharacter) :
    (integerLexeme digits base suffix).isNumeric = true := by
  unfold integerLexeme
  split <;> rfl

theorem isNumeric_numeralLexeme (n : Numeral) (suffix : Option TypeCharacter) :
    (numeralLexeme n suffix).isNumeric = true := by
  have floating (suffix : Option TypeCharacter) : (floatingLexeme n suffix).isNumeric = true := by
    unfold floatingLexeme
    dsimp only
    split <;> rfl
  have decimal : (decimalLexeme n suffix).isNumeric = true := by
    unfold decimalLexeme
    split <;> rfl
  unfold numeralLexeme
  split
  any_goals first | exact decimal | exact floating _
  all_goals split
  any_goals first | exact isNumeric_integerLexeme .. | exact floating _
  rfl

theorem isNumeric_radixNumber (version : Version) (cs : List Char) :
    (radixNumber version cs).lexeme.isNumeric = true := by
  unfold radixNumber
  dsimp only
  rw [apply_ite Lexeme.isNumeric, isNumeric_integerLexeme]
  exact ite_self _

theorem decimalNumber_eq (signed : endsUnsigned (cs.take (decimalNumber .v80 cs).length) = false) :
    decimalNumber .v71 cs = decimalNumber .v80 cs := by
  have same : numberSuffix? .v71 false (cs.drop (readNumeral cs).2) =
      numberSuffix? .v80 false (cs.drop (readNumeral cs).2) := numberSuffix?_eq signed
  simp only [decimalNumber, same]

theorem radixNumber_eq (signed : endsUnsigned (cs.take (radixNumber .v80 cs).length) = false) :
    radixNumber .v71 cs = radixNumber .v80 cs := by
  simp only [radixNumber, numberSuffix?_eq signed]

-- Words

theorem ofWord?_v71 (word : List Char) :
    Keyword.ofWord? .v71 word = (Keyword.ofWord? .v80 word).filter fun k => !k.sinceV8 := by
  unfold Keyword.ofWord?
  split
  · rfl
  · cases foldWord word with
    | none => rfl
    | some folded =>
      simp only [Option.bind_eq_bind, Option.bind_some]
      cases keywordTable.lookup folded with
      | none => rfl
      | some k => cases since : k.sinceV8 <;> simp [since, Version.supportsV8, Option.filter]

end Scan

def Match.demote (m : Match) : Match := ⟨m.lexeme.demote, m.length⟩

namespace Scan

theorem wordMatch_v71 (cs : List Char) : wordMatch .v71 cs = (wordMatch .v80 cs).demote := by
  unfold wordMatch
  simp only [ofWord?_v71]
  generalize nameSuffix? (cs.drop (cs.takeWhile isIdentifierPart).length) = suffix
  cases spelled : Keyword.ofWord? .v80 (cs.takeWhile isIdentifierPart) with
  | none => rfl
  | some k =>
    by_cases code : k = .kwRem
    · subst code
      cases suffix <;> rfl
    · cases since : k.sinceV8 with
      | true =>
        have gone : (some k).filter (fun k => !k.sinceV8) = none := by simp [Option.filter, since]
        cases suffix <;> cases reserved : k.isReserved <;>
          simp [gone, reserved, since, Match.demote, Lexeme.demote]
      | false =>
        have kept : (some k).filter (fun k => !k.sinceV8) = some k := by
          simp [Option.filter, since]
        cases suffix <;> cases reserved : k.isReserved <;>
          simp [kept, reserved, since, Match.demote, Lexeme.demote]

theorem demote_escapedMatch (cs : List Char) : (escapedMatch cs).demote = escapedMatch cs := by
  unfold escapedMatch
  dsimp only
  split
  · split <;> rfl
  · rfl

theorem demote_stringMatch (cs : List Char) : (stringMatch cs).demote = stringMatch cs := by
  unfold stringMatch
  dsimp only
  split
  · rfl
  · split
    · split <;> rfl
    · rfl

theorem demote_dateMatch (cs : List Char) : (dateMatch cs).demote = dateMatch cs := by
  unfold dateMatch
  dsimp only
  split
  · split <;> rfl
  · rfl

theorem demote_punctuatorMatch (cs : List Char) :
    (punctuatorMatch cs).demote = punctuatorMatch cs := by
  unfold punctuatorMatch
  split <;> rfl

theorem demote_of_isNumeric {m : Match} (numeric : m.lexeme.isNumeric = true) : m.demote = m := by
  rw [Match.demote, Lexeme.demote_of_isNumeric numeric]

/-- What starts a text is the same in both versions, if it is no unsigned number. -/
theorem recognize_v71 {cs : List Char} (signed : (recognize .v80 cs).lexeme.isNumeric = true →
      endsUnsigned (cs.take (recognize .v80 cs).length) = false) :
    recognize .v71 cs = (recognize .v80 cs).demote := by
  cases cs with
  | nil => rfl
  | cons c rest =>
    unfold recognize at signed ⊢
    dsimp only at signed ⊢
    cases start : startOf c rest.head? with
    | lineBreak | comment | looseUnderscore => rfl
    | escapedName => exact (demote_escapedMatch _).symm
    | word => exact wordMatch_v71 _
    | string => exact (demote_stringMatch _).symm
    | numberSign => exact (demote_dateMatch _).symm
    | decimalNumber =>
      rw [start] at signed
      have numeric : (decimalNumber .v80 (c :: rest)).lexeme.isNumeric = true :=
        isNumeric_numeralLexeme ..
      exact (decimalNumber_eq (signed numeric)).trans (demote_of_isNumeric numeric).symm
    | radixNumber =>
      rw [start] at signed
      have numeric := isNumeric_radixNumber .v80 (c :: rest)
      exact (radixNumber_eq (signed numeric)).trans (demote_of_isNumeric numeric).symm
    | punctuator => exact (demote_punctuatorMatch _).symm

end Scan

-- Texts

/-- No unsigned suffix stands behind the number that the token is. -/
def Token.IsSigned (text : List Char) (t : Token) : Prop :=
  t.lexeme.isNumeric = true → endsUnsigned (t.span.slice text) = false

namespace Reader

variable {r : Reader} {text : List Char}

theorem next_v71 (tab : Nat) (reads : r.Reads text)
    (signed : (r.next .v80 tab).1.IsSigned text) :
    (r.next .v71 tab).1 = (r.next .v80 tab).1.demote ∧
      (r.next .v71 tab).2 = (r.next .v80 tab).2 := by
  obtain ⟨starts, -⟩ := rest_skipTrivia tab reads
  have same : Scan.recognize .v71 (r.skipTrivia tab).rest =
      (Scan.recognize .v80 (r.skipTrivia tab).rest).demote := by
    apply Scan.recognize_v71
    intro numeric
    rw [← slice_skip tab starts (recognize_fits ..)]
    exact signed numeric
  simp only [next, same, Match.demote, Token.demote, and_self]

theorem tokens_v71 (tab n : Nat) (reads : r.Reads text)
    (signed : ∀ t ∈ r.tokens .v80 tab n, t.IsSigned text) :
    r.tokens .v71 tab n = (r.tokens .v80 tab n).map Token.demote := by
  induction n generalizing r with
  | zero => rfl
  | succ n ih =>
    rw [tokens_succ] at signed
    rw [tokens_succ, tokens_succ]
    by_cases ends : (r.next .v80 tab).1.kind = .endOfStream
    · rw [if_pos ends] at signed ⊢
      obtain ⟨same, -⟩ := next_v71 tab reads (signed _ List.mem_cons_self)
      rw [same, if_pos ((Token.kind_demote _).2 ends)]
      rfl
    · rw [if_neg ends] at signed ⊢
      obtain ⟨first, others⟩ := List.forall_mem_cons.1 signed
      obtain ⟨same, behind⟩ := next_v71 tab reads first
      rw [same, if_neg (mt (Token.kind_demote _).1 ends), behind, List.map_cons]
      obtain ⟨starts, -⟩ := rest_skipTrivia tab reads
      exact congrArg _ (ih (starts.skip tab (recognize_fits ..)) others)

end Reader

-- What the older version does not know

/-- The token is none of those that the newer version has brought: neither a keyword, in its place or
out of it, nor a literal with an unsigned suffix. -/
def Token.isOld (t : Token) : Bool :=
  (match t.contextualKind with
    | .word k => !k.sinceV8
    | _ => true) && !t.typeCharacter.any TypeCharacter.isUnsigned

namespace Scan

variable {cs : List Char} {integralOnly : Bool} {suffix : Option TypeCharacter}

theorem nameSuffix?_signed (cs : List Char) :
    (nameSuffix? cs).any TypeCharacter.isUnsigned = false := by
  cases suffix : nameSuffix? cs with
  | none => rfl
  | some t =>
    cases cs with
    | nil => simp [nameSuffix?] at suffix
    | cons c rest =>
      obtain ⟨symbol, -⟩ := Option.filter_eq_some_iff.1 (show Option.filter _ _ = some t from suffix)
      exact isUnsigned_of_ofSymbol? symbol

theorem numberSuffix?_signed (integralOnly : Bool) (cs : List Char) :
    ((numberSuffix? .v71 integralOnly cs).map (·.1)).any TypeCharacter.isUnsigned = false := by
  rw [numberSuffix?_v71]
  cases suffix : (numberSuffix? .v80 integralOnly cs).filter fun s => !s.1.isUnsigned with
  | none => rfl
  | some found => simpa using (Option.filter_eq_some_iff.1 suffix).2

theorem sinceV8_of_ofWord? {word : List Char} {k : Keyword}
    (spelled : Keyword.ofWord? .v71 word = some k) : k.sinceV8 = false := by
  rw [ofWord?_v71] at spelled
  simpa using (Option.filter_eq_some_iff.1 spelled).2

section

variable (span : Span) (signed : suffix.any TypeCharacter.isUnsigned = false)
include signed

theorem isOld_integerLexeme (digits : List Nat) (base : IntegerBase) :
    Token.isOld ⟨integerLexeme digits base suffix, span⟩ = true := by
  unfold integerLexeme
  split
  next value _ =>
    cases value <;> simp [Token.isOld, Token.contextualKind, Token.kind, Lexeme.kind,
      Literal.tokenKind, Token.typeCharacter, signed]
  next => rfl

theorem isOld_floatingLexeme (n : Numeral) :
    Token.isOld ⟨floatingLexeme n suffix, span⟩ = true := by
  unfold floatingLexeme
  dsimp only
  split
  · simp [Token.isOld, Token.contextualKind, Token.kind, Lexeme.kind, Literal.tokenKind,
      Token.typeCharacter, signed]
  · rfl

theorem isOld_decimalLexeme (n : Numeral) :
    Token.isOld ⟨decimalLexeme n suffix, span⟩ = true := by
  unfold decimalLexeme
  split
  · simp [Token.isOld, Token.contextualKind, Token.kind, Lexeme.kind, Literal.tokenKind,
      Token.typeCharacter, signed]
  · rfl

theorem isOld_numeralLexeme (n : Numeral) :
    Token.isOld ⟨numeralLexeme n suffix, span⟩ = true := by
  unfold numeralLexeme
  split
  any_goals first | exact isOld_decimalLexeme span signed n | exact isOld_floatingLexeme span signed n
  all_goals split
  any_goals first
    | exact isOld_integerLexeme span signed n.whole .decimal
    | exact isOld_floatingLexeme span signed n
  rfl

end

theorem isOld_wordMatch (cs : List Char) (span : Span) :
    Token.isOld ⟨(wordMatch .v71 cs).lexeme, span⟩ = true := by
  unfold wordMatch
  dsimp only
  have symbol := nameSuffix?_signed (cs.drop (cs.takeWhile isIdentifierPart).length)
  generalize nameSuffix? (cs.drop (cs.takeWhile isIdentifierPart).length) = suffix at symbol ⊢
  cases spelled : Keyword.ofWord? .v71 (cs.takeWhile isIdentifierPart) with
  | none => simp [Token.isOld, Token.contextualKind, Token.typeCharacter, symbol]
  | some k =>
    have since := sinceV8_of_ofWord? spelled
    by_cases code : k = .kwRem
    · subst code
      cases suffix with
      | none => rfl
      | some t => simpa [Token.isOld, Token.contextualKind, Token.typeCharacter, since] using symbol
    · cases suffix with
      | none =>
        cases reserved : k.isReserved <;> simp [Token.isOld, Token.contextualKind,
          Token.kind, Lexeme.kind, Token.typeCharacter, reserved, since]
      | some t => simpa [Token.isOld, Token.contextualKind, Token.typeCharacter, since] using symbol

/-- Whatever starts a text, the older version finds nothing that it does not know. -/
theorem recognize_isOld (cs : List Char) (span : Span) :
    Token.isOld ⟨(recognize .v71 cs).lexeme, span⟩ = true := by
  cases cs with
  | nil => rfl
  | cons c rest =>
    unfold recognize
    dsimp only
    cases startOf c rest.head? with
    | lineBreak | comment | looseUnderscore => rfl
    | escapedName =>
      have symbol := nameSuffix?_signed
      unfold escapedMatch
      dsimp only
      split
      · split
        · simp [Token.isOld, Token.contextualKind, Token.typeCharacter, symbol]
        · rfl
      · rfl
    | word => exact isOld_wordMatch (c :: rest) span
    | string =>
      unfold stringMatch
      dsimp only
      split
      · rfl
      · split
        · split <;> rfl
        · rfl
    | numberSign =>
      unfold dateMatch
      dsimp only
      split
      · split <;> rfl
      · rfl
    | decimalNumber => exact isOld_numeralLexeme span (numberSuffix?_signed ..) _
    | radixNumber =>
      have either (digits : List Nat) (base : IntegerBase) (behind : List Char) (missing : Prop)
          [Decidable missing] : Token.isOld ⟨if missing then .fault .invalidIntegerLiteral
            else integerLexeme digits base ((numberSuffix? .v71 true behind).map (·.1)), span⟩ = true := by
        split
        · rfl
        · exact isOld_integerLexeme span (numberSuffix?_signed ..) digits base
      exact either ..
    | punctuator =>
      unfold punctuatorMatch
      dsimp only
      split <;> rfl

end Scan

theorem Reader.tokens_isOld (tab n : Nat) (r : Reader) :
    ∀ t ∈ r.tokens .v71 tab n, t.isOld = true := by
  induction n generalizing r with
  | zero => simp [tokens]
  | succ n ih =>
    have old : (r.next .v71 tab).1.isOld = true := Scan.recognize_isOld ..
    rw [tokens_succ]
    split
    · simpa using old
    · exact List.forall_mem_cons.2 ⟨old, ih _⟩

/-- If no number of a text has an unsigned suffix in the newer version, then the older version finds
the same tokens at the same places, where keywords of the newer version are names. -/
theorem older_version_demotes (tab : Nat) (text : String)
    (signed : ∀ t ∈ (Scanner.ofText ⟨.v80, tab⟩ text).readToEnd.1, t.IsSigned text.toList) :
    (Scanner.ofText ⟨.v71, tab⟩ text).readToEnd.1 =
        (Scanner.ofText ⟨.v80, tab⟩ text).readToEnd.1.map Token.demote ∧
      ∀ t ∈ (Scanner.ofText ⟨.v71, tab⟩ text).readToEnd.1,
        t.isOld = true ∧ t.IsSigned text.toList := by
  rw [Scanner.readToEnd_ofText] at signed
  rw [Scanner.readToEnd_ofText, Scanner.readToEnd_ofText]
  have same : ScanOptions.tokenize ⟨.v71, tab⟩ text =
      (ScanOptions.tokenize ⟨.v80, tab⟩ text).map Token.demote :=
    Reader.tokens_v71 _ _ (Reader.Reads.ofText _ _) signed
  refine ⟨same, fun t member => ⟨Reader.tokens_isOld _ _ _ t member, ?_⟩⟩
  rw [same] at member
  obtain ⟨newer, listed, rfl⟩ := List.mem_map.1 member
  intro numeric
  exact signed newer listed ((Lexeme.isNumeric_demote _).symm.trans numeric)

/-- `Using` is no keyword of the older version. -/
theorem using_is_demoted :
    (∀ t ∈ (Scanner.ofText ⟨.v80, 4⟩ "Using a = 12S").readToEnd.1,
        t.IsSigned "Using a = 12S".toList) ∧
      (Scanner.ofText ⟨.v71, 4⟩ "Using a = 12S").readToEnd.1 =
        (Scanner.ofText ⟨.v80, 4⟩ "Using a = 12S").readToEnd.1.map Token.demote := by
  have signed : ∀ t ∈ (Scanner.ofText ⟨.v80, 4⟩ "Using a = 12S").readToEnd.1,
      t.IsSigned "Using a = 12S".toList := by
    unfold Token.IsSigned
    decide +kernel
  exact ⟨signed, (older_version_demotes 4 "Using a = 12S" signed).1⟩

end VisualBasic
