import VisualBasic.Proofs.Scan.Width

/-!
A text and its half-width form fall into the same tokens.  A character that stays in a token, as in
names, strings and comments, stays in the width it was written in; a word that is too long to be
looked up may be a keyword without its width.
-/

set_option autoImplicit false

namespace VisualBasic

/-- The text in half-width characters. -/
def narrowText (text : String) : String := String.ofList (text.toList.map halfWidth)

@[simp] theorem narrowText_ofList (cs : List Char) :
    narrowText (String.ofList cs) = String.ofList (cs.map halfWidth) := by
  rw [narrowText, String.toList_ofList]

namespace Lexeme

/-- The same lexeme written in half-width characters. -/
def narrow : Lexeme → Lexeme
  | comment text isRem => comment (narrowText text) isRem
  | identifier name => identifier { name with text := narrowText name.text }
  | keyword k text => keyword k (narrowText text)
  | literal (.character c) => literal (.character (halfWidth c))
  | literal (.string text) => literal (.string (narrowText text))
  | l => l

/-- A name or keyword, whichever it is. -/
def word? : Lexeme → Option Identifier
  | identifier name => some { name with word := none }
  | keyword _ text => some ⟨text, none, false, none⟩
  | _ => none

/-- The second lexeme is the first one in half-width characters.  A word that is too long to be
looked up is a name, and may be a keyword there. -/
inductive Narrows : Lexeme → Lexeme → Prop
  | same (l : Lexeme) : Narrows l l.narrow
  | word {l l' : Lexeme} {name : Identifier} (long : keywordByteLimit < utf8Length name.text.toList)
      (wide : l.word? = some name)
      (narrow : l'.word? = some { name with text := narrowText name.text }) : Narrows l l'

@[simp] theorem kind_narrow (l : Lexeme) : l.narrow.kind = l.kind := by
  cases l with
  | literal value => cases value <;> rfl
  | _ => rfl

theorem kind_ne_of_word? {l : Lexeme} {name : Identifier} (word : l.word? = some name) :
    l.kind ≠ .endOfStream := by
  cases l <;> simp [word?, kind] at word ⊢

theorem Narrows.ends {l l' : Lexeme} (narrows : Narrows l l') :
    l'.kind = .endOfStream ↔ l.kind = .endOfStream := by
  cases narrows with
  | same => rw [kind_narrow]
  | word _ wide narrow => simp [kind_ne_of_word? wide, kind_ne_of_word? narrow]

end Lexeme

namespace Match

def narrow (m : Match) : Match := ⟨m.lexeme.narrow, m.length⟩

/-- The second match takes as many characters for the same lexeme in half-width characters. -/
structure Narrows (m m' : Match) : Prop where
  lexeme : m.lexeme.Narrows m'.lexeme
  length : m'.length = m.length

theorem Narrows.of_eq {m m' : Match} (same : m' = m.narrow) : m.Narrows m' := by
  subst same
  exact ⟨.same m.lexeme, rfl⟩

end Match

namespace Scan

variable (cs : List Char)

-- Numbers and marks hold no characters.

theorem narrow_integerLexeme (digits : List Nat) (base : IntegerBase) (suffix : Option TypeCharacter) :
    (integerLexeme digits base suffix).narrow = integerLexeme digits base suffix := by
  unfold integerLexeme
  split <;> rfl

theorem narrow_numeralLexeme (n : Numeral) (suffix : Option TypeCharacter) :
    (numeralLexeme n suffix).narrow = numeralLexeme n suffix := by
  have floating : (floatingLexeme n suffix).narrow = floatingLexeme n suffix := by
    unfold floatingLexeme
    dsimp only
    split <;> rfl
  have decimal : (decimalLexeme n suffix).narrow = decimalLexeme n suffix := by
    unfold decimalLexeme
    split <;> rfl
  unfold numeralLexeme
  split
  next => exact decimal
  next => exact decimal
  iterate 4 exact floating
  next =>
    split
    · exact narrow_integerLexeme ..
    · exact floating
  next =>
    split
    · exact narrow_integerLexeme ..
    · rfl

theorem narrow_decimalNumber (version : Version) :
    (decimalNumber version cs).narrow = decimalNumber version cs := by
  simp [Match.narrow, decimalNumber, narrow_numeralLexeme]

theorem narrow_radixNumber (version : Version) :
    (radixNumber version cs).narrow = radixNumber version cs := by
  unfold radixNumber Match.narrow
  dsimp only
  rw [apply_ite Lexeme.narrow, narrow_integerLexeme]
  rfl

theorem punctuatorMatch_map : punctuatorMatch (cs.map halfWidth) = (punctuatorMatch cs).narrow := by
  unfold punctuatorMatch
  rw [← List.map_take, List.map_map, show halfWidth ∘ halfWidth = halfWidth from
    funext halfWidth_halfWidth]
  split <;> rfl

-- Comments, names and strings hold characters.

theorem commentMatch_map (isRem : Bool) (introducer : Nat) :
    commentMatch isRem introducer (cs.map halfWidth) = (commentMatch isRem introducer cs).narrow := by
  simp [commentMatch, Match.narrow, Lexeme.narrow, ← List.map_drop]

@[simp] theorem nameSuffix?_map : nameSuffix? (cs.map halfWidth) = nameSuffix? cs := by
  cases cs with
  | nil => rfl
  | cons c rest => simp [nameSuffix?]

@[simp] theorem lengthThrough_map (closing : Char) :
    lengthThrough closing (cs.map halfWidth) = lengthThrough closing cs := by
  simp [lengthThrough, List.takeWhile_map, Function.comp_def, Option.any_map]

theorem escapedMatch_map : escapedMatch (cs.map halfWidth) = (escapedMatch cs).narrow := by
  unfold escapedMatch
  simp only [← List.map_drop, List.head?_map, Option.any_map, Function.comp_def,
    isIdentifierStart_halfWidth, List.takeWhile_map, isIdentifierPart_halfWidth, List.length_map,
    halfWidth_halfWidth, nameSuffix?_map, lengthThrough_map]
  split
  · split
    · simp [Match.narrow, Lexeme.narrow]
    · rfl
  · rfl

theorem stringBody?_map :
    stringBody? (cs.map halfWidth) = (stringBody? cs).map (Prod.map (List.map halfWidth) id) := by
  fun_induction stringBody? cs with
  | case1 => rfl
  | case2 c rest ends =>
    rw [List.map_cons]
    unfold stringBody?
    simp [ends]
  | case3 c ends quote d rest twice ih =>
    have mark : halfWidth '"' = '"' := by decide
    simp [stringBody?, ends, quote, twice, ih, Function.comp_def, mark]
  | case4 c ends quote d rest single => simp [stringBody?, ends, quote, single]
  | case5 c ends quote => simp [stringBody?, ends, quote]
  | case6 c rest ends quote ih =>
    rw [List.map_cons]
    conv_lhs => unfold stringBody?
    simp [ends, quote, ih, Function.comp_def]

theorem stringMatch_map : stringMatch (cs.map halfWidth) = (stringMatch cs).narrow := by
  unfold stringMatch
  simp only [← List.map_drop, stringBody?_map]
  cases stringBody? (cs.drop 1) with
  | none =>
    simp only [Option.map_none, lineText_map, List.length_map]
    rfl
  | some body =>
    obtain ⟨text, n⟩ := body
    simp only [Option.map_some, Prod.map_apply, id, afterOne_map, Option.isSome_map]
    split
    · match text with
      | [] | [_] | _ :: _ :: _ => rfl
    · simp [Match.narrow, Lexeme.narrow]

theorem dateMatch_map : dateMatch (cs.map halfWidth) = (dateMatch cs).narrow := by
  unfold dateMatch
  simp only [← List.map_drop, List.dropWhile_map, Function.comp_def, isBlank_halfWidth,
    List.head?_map, Option.any_map, isDecimalDigit_halfWidth, lengthThrough_map, List.takeWhile_map,
    halfWidth_halfWidth, isLineTerminator_halfWidth, List.length_map, DateValue.ofText?_map]
  split
  · split <;> rfl
  · rfl

theorem startOf_map (c : Char) (next : Option Char) :
    startOf (halfWidth c) (next.map halfWidth) = startOf c next := by
  simp [startOf, Option.any_map]

theorem utf8Length_le (word : List Char) : utf8Length word ≤ 4 * word.length := by
  induction word with
  | nil => exact Nat.le_refl _
  | cons c rest ih =>
    have size := c.utf8Size_le_four
    rw [utf8Length] at ih ⊢
    rw [List.foldr_cons, List.length_cons]
    omega

/-- A word that is too long to be looked up does not start a comment without its width either. -/
theorem ne_kwRem_of_long {version : Version} {word : List Char} {k : Keyword}
    (long : keywordByteLimit < utf8Length word)
    (spelled : Keyword.ofWord? version (word.map halfWidth) = some k) : k ≠ .kwRem := by
  rintro rfl
  have letters := length_of_ofWord? spelled
  have bytes := utf8Length_le word
  rw [List.length_map, show Keyword.kwRem.spelling.length = 3 by decide] at letters
  rw [keywordByteLimit] at long
  omega

theorem wordMatch_narrows (version : Version) :
    (wordMatch version cs).Narrows (wordMatch version (cs.map halfWidth)) := by
  have narrowed : (cs.map halfWidth).takeWhile isIdentifierPart =
      (cs.takeWhile isIdentifierPart).map halfWidth := by
    simp [List.takeWhile_map, Function.comp_def]
  unfold wordMatch
  simp only [narrowed, List.length_map, ← List.map_drop, nameSuffix?_map]
  generalize cs.takeWhile isIdentifierPart = word
  generalize behind : cs.drop word.length = rest
  generalize nameSuffix? rest = suffix
  have blank : (rest.map halfWidth).head?.any isBlank = rest.head?.any isBlank := by
    simp [Option.any_map]
  by_cases short : utf8Length word ≤ keywordByteLimit
  · -- The word is looked up as it is without its width.
    apply Match.Narrows.of_eq
    rw [ofWord?_map short, blank, commentMatch_map]
    split
    next => rfl
    next k _ => split <;> simp [Match.narrow, Lexeme.narrow]
    next => simp [Match.narrow, Lexeme.narrow]
  · have long := Nat.lt_of_not_le short
    have named {l : Lexeme} (narrow : l.word? =
        some ⟨String.ofList (word.map halfWidth), suffix, false, none⟩) :
        Lexeme.Narrows (.identifier ⟨String.ofList word, suffix, false, none⟩) l :=
      .word (by simpa using long) rfl (by simpa using narrow)
    rw [ofWord?_of_long long]
    cases spelled : Keyword.ofWord? version (word.map halfWidth) with
    | none => exact ⟨named rfl, rfl⟩
    | some k =>
      have code := ne_kwRem_of_long long spelled
      cases suffix with
      | some symbol => exact ⟨named (by simp [Lexeme.word?]), by simp⟩
      | none =>
        cases reserved : k.isReserved with
        | true => exact ⟨named (by simp [Lexeme.word?, reserved]), by simp [reserved]⟩
        | false => exact ⟨named (by simp [Lexeme.word?, reserved]), by simp [reserved]⟩

theorem recognize_narrows (version : Version) :
    (recognize version cs).Narrows (recognize version (cs.map halfWidth)) := by
  cases cs with
  | nil => exact .of_eq rfl
  | cons c rest =>
    have start : startOf (halfWidth c) (rest.map halfWidth).head? = startOf c rest.head? := by
      rw [List.head?_map, startOf_map]
    unfold recognize
    simp only [List.map_cons, start]
    rw [← List.map_cons]
    cases startOf c rest.head? with
    | lineBreak => exact .of_eq (by rw [lineBreakLength_map]; rfl)
    | comment => exact .of_eq (commentMatch_map ..)
    | looseUnderscore => exact .of_eq rfl
    | escapedName => exact .of_eq (escapedMatch_map _)
    | word => exact wordMatch_narrows ..
    | string => exact .of_eq (stringMatch_map _)
    | numberSign => exact .of_eq (dateMatch_map _)
    | decimalNumber =>
      exact .of_eq (by rw [decimalNumber_map, narrow_decimalNumber])
    | radixNumber => exact .of_eq (by rw [radixNumber_map, narrow_radixNumber])
    | punctuator => exact .of_eq (punctuatorMatch_map _)

end Scan

-- Texts

namespace Reader

/-- The reader at the same place of the text in half-width characters. -/
def narrow (r : Reader) : Reader := ⟨r.rest.map halfWidth, r.location⟩

theorem continuationTail?_map (underscore : Char) (rest : List Char) :
    continuationTail? (halfWidth underscore) (rest.map halfWidth) =
      continuationTail? underscore rest := by
  have blanks : ((rest.map halfWidth).takeWhile isBlank).length =
      (rest.takeWhile isBlank).length := by
    simp [List.takeWhile_map, Function.comp_def]
  unfold continuationTail?
  simp only [halfWidth_halfWidth, blanks, ← List.map_drop]
  cases rest.drop (rest.takeWhile isBlank).length with
  | nil => rfl
  | cons c after =>
    rw [List.map_cons]
    simp only [isLineTerminator_halfWidth, ← List.map_cons, Scan.lineBreakLength_map]

theorem triviaLength_map (n : Nat) (cs : List Char) :
    triviaLength n (cs.map halfWidth) = triviaLength n cs := by
  fun_induction triviaLength n cs with
  | case1 => simp [triviaLength]
  | case2 n c rest ih => rw [List.map_cons, triviaLength, ih]
  | case3 c rest blank ih => simp [triviaLength, blank, ih]
  | case4 c rest solid n tail ih =>
    simp [triviaLength, solid, continuationTail?_map, tail, ih]
  | case5 c rest solid tail => simp [triviaLength, solid, continuationTail?_map, tail]

theorem advance_halfWidth (tab : Nat) (c : Char) (next : Option Char) (l : Location) :
    l.advance tab (halfWidth c) (next.map halfWidth) = l.advance tab c next := by
  have feed : (next.map halfWidth == some '\n') = (next == some '\n') := by
    cases next <;> simp
  have mark : (halfWidth c == '\r') = (c == '\r') := by
    rw [Bool.eq_iff_iff]
    simp
  simp only [Location.advance, halfWidth_eq_tab, isLineTerminator_halfWidth, feed, mark]

theorem skip_narrow (tab n : Nat) (r : Reader) : r.narrow.skip tab n = (r.skip tab n).narrow := by
  induction n generalizing r with
  | zero => rfl
  | succ n ih =>
    obtain ⟨rest, location⟩ := r
    cases rest with
    | nil => rfl
    | cons c rest =>
      simp only [narrow, List.map_cons, skip, List.head?_map, advance_halfWidth]
      exact ih ⟨rest, location.advance tab c rest.head?⟩

end Reader

/-- The second token stands where the first one does and is the same in half-width characters. -/
structure Token.Narrows (t t' : Token) : Prop where
  lexeme : t.lexeme.Narrows t'.lexeme
  span : t'.span = t.span

namespace Reader

theorem next_narrow (version : Version) (tab : Nat) (r : Reader) :
    (r.next version tab).1.Narrows (r.narrow.next version tab).1 ∧
      (r.narrow.next version tab).2 = (r.next version tab).2.narrow := by
  have start : r.narrow.skipTrivia tab = (r.skipTrivia tab).narrow := by
    rw [skipTrivia, narrow, triviaLength_map]
    exact skip_narrow tab _ r
  obtain ⟨lexeme, length⟩ := Scan.recognize_narrows (r.skipTrivia tab).rest version
  have after : (r.narrow.skipTrivia tab).skip tab
      (Scan.recognize version (r.narrow.skipTrivia tab).rest).length =
        ((r.skipTrivia tab).skip tab
          (Scan.recognize version (r.skipTrivia tab).rest).length).narrow := by
    rw [start, skip_narrow]
    exact congrArg (fun n => ((r.skipTrivia tab).skip tab n).narrow) length
  constructor
  next =>
    constructor
    next =>
      simp only [next, start]
      exact lexeme
    next =>
      simp only [next, after]
      rw [start]
      rfl
  next => exact after

theorem tokens_narrow (version : Version) (tab n : Nat) (r : Reader) :
    List.Forall₂ Token.Narrows (r.tokens version tab n) (r.narrow.tokens version tab n) := by
  induction n generalizing r with
  | zero => exact .nil
  | succ n ih =>
    obtain ⟨token, after⟩ := next_narrow version tab r
    have stops : (r.narrow.next version tab).1.kind = .endOfStream ↔
        (r.next version tab).1.kind = .endOfStream := token.lexeme.ends
    unfold tokens
    dsimp only
    by_cases ends : (r.next version tab).1.kind = .endOfStream
    · rw [if_pos ends, if_pos (stops.2 ends)]
      exact .cons token .nil
    · rw [if_neg ends, if_neg (mt stops.1 ends), after]
      exact .cons token (ih _)

theorem ofText_narrow (tab : Nat) (text : List Char) :
    ofText tab (text.map halfWidth) = (ofText tab text).narrow := by
  have marked : (text.map halfWidth).head? = some byteOrderMark ↔
      text.head? = some byteOrderMark := by
    cases text <;> simp
  unfold ofText
  dsimp only
  by_cases mark : text.head? = some byteOrderMark
  · rw [if_pos mark, if_pos (marked.2 mark)]
    exact skip_narrow tab 1 ⟨text, .origin⟩
  · rw [if_neg mark, if_neg (mt marked.1 mark)]
    rfl

end Reader

/-- A text and its half-width form are scanned to tokens of the same spans, each of which is the same
but for the width of the characters in it.  A word of more than 32 bytes alone may be a keyword in
one of the two and a name in the other. -/
theorem width_shows_in_long_words (o : ScanOptions) (text : String) :
    List.Forall₂ Token.Narrows (Scanner.ofText o text).readToEnd.1
      (Scanner.ofText o (narrowText text)).readToEnd.1 := by
  rw [Scanner.readToEnd_ofText, Scanner.readToEnd_ofText, ScanOptions.tokenize,
    ScanOptions.tokenize, narrowText, String.toList_ofList, tokenize, tokenize, List.length_map,
    Reader.ofText_narrow]
  exact Reader.tokens_narrow o.version o.effectiveTab _ _

end VisualBasic
