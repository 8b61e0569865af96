import VisualBasic.Proofs.Scan.Line
import VisualBasic.Proofs.Scan.Words

/-!
String and character literals.  Any of four quotes opens a literal, closes it and doubles another
one inside; what stands between the quotes is read back with each pair of them as one plain quote.
-/

set_option autoImplicit false

namespace VisualBasic

def plainQuote (c : Char) : Char := if isDoubleQuote c then '"' else c

/-- A text with a plain quote for each of its quotes. -/
def plainQuotes (text : List Char) : List Char := text.map plainQuote

/-- A text with each of its quotes written twice. -/
def doubled (text : List Char) : List Char :=
  text.flatMap fun c => if isDoubleQuote c then [c, c] else [c]

/-- What is written between the quotes of a literal, and what it stands for: quotes come in pairs and
no line ends. -/
inductive Encodes : List Char → List Char → Prop where
  | nil : Encodes [] []
  | plain {c : Char} {written content : List Char} (inside : isLineTerminator c = false)
      (other : isDoubleQuote c = false) (rest : Encodes written content) :
      Encodes (c :: written) (c :: content)
  | pair {c d : Char} {written content : List Char} (first : isDoubleQuote c = true)
      (second : isDoubleQuote d = true) (rest : Encodes written content) :
      Encodes (c :: d :: written) ('"' :: content)

theorem encodes_doubled {text : List Char} (inLine : ∀ c ∈ text, isLineTerminator c = false) :
    Encodes (doubled text) (plainQuotes text) := by
  induction text with
  | nil => exact .nil
  | cons c text ih =>
    obtain ⟨inside, within⟩ := List.forall_mem_cons.1 inLine
    have rest := ih within
    simp only [doubled, plainQuotes, List.flatMap_cons, List.map_cons, plainQuote]
    cases quote : isDoubleQuote c with
    | true => exact .pair quote quote rest
    | false => exact .plain inside quote rest

theorem of_isDoubleQuote {P : Char → Prop}
    (quotes : P '"' ∧ P '\u201C' ∧ P '\u201D' ∧ P '\uFF02') {c : Char}
    (quote : isDoubleQuote c = true) : P c := by
  obtain ⟨straight, left, right, wide⟩ := quotes
  simp only [isDoubleQuote, Bool.or_eq_true, beq_iff_eq] at quote
  rcases quote with ((rfl | rfl) | rfl) | rfl <;> assumption

/-- Some quote closes a literal: the quotes before it come in pairs and none follows it. -/
def IsClosed (body : List Char) : Prop :=
  ∃ written content q after, body = written ++ q :: after ∧ Encodes written content ∧
    isDoubleQuote q = true ∧ after.head?.any isDoubleQuote = false

namespace Scan

section Body

variable {c d q : Char} {written content line rest : List Char}

theorem stringBody?_plain (inside : isLineTerminator c = false) (other : isDoubleQuote c = false) :
    stringBody? (c :: rest) = (stringBody? rest).map fun (text, n) => (c :: text, n + 1) := by
  cases rest <;> simp [stringBody?, inside, other]

theorem stringBody?_pair (first : isDoubleQuote c = true) (second : isDoubleQuote d = true) :
    stringBody? (c :: d :: rest) =
      (stringBody? rest).map fun (text, n) => ('"' :: text, n + 2) := by
  simp [stringBody?, not_isLineTerminator_of_isDoubleQuote first, first, second]

theorem stringBody?_quote (quote : isDoubleQuote q = true)
    (once : rest.head?.any isDoubleQuote = false) : stringBody? (q :: rest) = some ([], 1) := by
  have inside := not_isLineTerminator_of_isDoubleQuote quote
  cases rest with
  | nil => simp [stringBody?, inside, quote]
  | cons d rest =>
    have other : isDoubleQuote d = false := by simpa using once
    simp [stringBody?, inside, quote, other]

theorem stringBody?_encoded (encoded : Encodes written content) (quote : isDoubleQuote q = true)
    (once : rest.head?.any isDoubleQuote = false) :
    stringBody? (written ++ q :: rest) = some (content, written.length + 1) := by
  induction encoded with
  | nil => exact stringBody?_quote quote once
  | plain inside other _ ih => rw [List.cons_append, stringBody?_plain inside other, ih]; rfl
  | pair first second _ ih =>
    rw [List.cons_append, List.cons_append, stringBody?_pair first second, ih]
    rfl

/-- The body of a string is what is written before a quote that closes it. -/
theorem stringBody?_eq_some_iff {n : Nat} : stringBody? line = some (content, n) ↔
    ∃ written q after, line = written ++ q :: after ∧ Encodes written content ∧
      isDoubleQuote q = true ∧ after.head?.any isDoubleQuote = false ∧ n = written.length + 1 := by
  constructor
  · intro found
    fun_induction stringBody? line generalizing content n with
    | case1 => cases found
    | case2 => cases found
    | case3 c inside quote d rest again ih =>
      -- two quotes in a row close nothing
      obtain ⟨⟨text, m⟩, body, same⟩ := Option.map_eq_some_iff.1 found
      obtain ⟨rfl, rfl⟩ := Prod.mk.inj same
      obtain ⟨written, q, after, rfl, encoded, closes, once, rfl⟩ := ih body
      exact ⟨_, q, after, rfl, .pair quote again encoded, closes, once, rfl⟩
    | case4 c inside quote d rest once =>
      obtain ⟨rfl, rfl⟩ : [] = content ∧ 1 = n := by simpa using found
      exact ⟨[], c, _, rfl, .nil, quote, by simpa using once, rfl⟩
    | case5 c inside quote =>
      obtain ⟨rfl, rfl⟩ : [] = content ∧ 1 = n := by simpa using found
      exact ⟨[], c, [], rfl, .nil, quote, rfl, rfl⟩
    | case6 c rest inside other ih =>
      obtain ⟨⟨text, m⟩, body, same⟩ := Option.map_eq_some_iff.1 found
      obtain ⟨rfl, rfl⟩ := Prod.mk.inj same
      obtain ⟨written, q, after, rfl, encoded, closes, once, rfl⟩ := ih body
      exact ⟨_, q, after, rfl, .plain (by simpa using inside) (by simpa using other) encoded, closes,
        once, rfl⟩
  · rintro ⟨written, q, after, rfl, encoded, quote, once, rfl⟩
    exact stringBody?_encoded encoded quote once

theorem isClosed_iff : IsClosed line ↔ (stringBody? line).isSome = true := by
  rw [Option.isSome_iff_exists]
  constructor
  · rintro ⟨written, content, q, after, rfl, encoded, quote, once⟩
    exact ⟨_, stringBody?_encoded encoded quote once⟩
  · rintro ⟨⟨content, n⟩, found⟩
    obtain ⟨written, q, after, same, encoded, quote, once, -⟩ := stringBody?_eq_some_iff.1 found
    exact ⟨written, content, q, after, same, encoded, quote, once⟩

/-- A string that no quote closes in its line is a fault up to the end of the line. -/
theorem stringMatch_open (inLine : ∀ c ∈ line, isLineTerminator c = false)
    (unclosed : ¬ IsClosed line) (ends : EndsLine rest) :
    stringMatch (q :: (line ++ rest)) = ⟨.fault .invalidStringLiteral, 1 + line.length⟩ := by
  have text : lineText line = line :=
    List.takeWhile_eq_self_iff.2 fun c member => by simp [inLine c member]
  have none : stringBody? line = none := by
    rw [← Option.not_isSome_iff_eq_none]
    exact mt isClosed_iff.2 unclosed
  rw [stringMatch_endsLine q ends]
  simp only [stringMatch, List.drop_succ_cons, List.drop_zero, none, text]

theorem drop_closed (written : List Char) (q : Char) (rest : List Char) :
    (written ++ q :: rest).drop (written.length + 1) = rest := by
  rw [← List.drop_drop, List.drop_left]
  rfl

/-- What a literal with a mark behind it is: a character, if it has just one. -/
def markedLexeme : List Char → Lexeme
  | [c] => .literal (.character c)
  | _ => .fault .invalidCharacterLiteral

theorem markedLexeme_of_length_ne (several : content.length ≠ 1) :
    markedLexeme content = .fault .invalidCharacterLiteral := by
  match content with
  | [] => rfl
  | [_] => contradiction
  | _ :: _ :: _ => rfl

section Encoded

variable {q₁ q₂ mark : Char} (encoded : Encodes written content)
  (closes : isDoubleQuote q₂ = true)

include encoded closes

theorem stringMatch_plain
    (apart : ∀ c ∈ rest.head?, isDoubleQuote c = false ∧ halfWidth c ∉ ['c', 'C']) :
    stringMatch (q₁ :: (written ++ q₂ :: rest)) =
      ⟨.literal (.string (String.ofList content)), written.length + 2⟩ := by
  have once : rest.head?.any isDoubleQuote = false := by
    rw [Option.any_eq_false]
    exact fun c first => by simp [(apart c first).1]
  have unmarked : (afterOne ['c', 'C'] rest).isSome = false := by
    cases rest with
    | nil => rfl
    | cons c rest => simp only [afterOne, if_neg (apart c rfl).2, Option.isSome_none]
  simp only [stringMatch, List.drop_succ_cons, List.drop_zero,
    stringBody?_encoded encoded closes once, drop_closed, unmarked]
  rfl

theorem stringMatch_marked (isMark : halfWidth mark ∈ ['c', 'C']) :
    stringMatch (q₁ :: (written ++ q₂ :: mark :: rest)) =
      ⟨markedLexeme content, written.length + 3⟩ := by
  have once : (mark :: rest).head?.any isDoubleQuote = false := by
    by_contra quote
    exact of_isDoubleQuote (P := fun c => halfWidth c ∉ ['c', 'C']) (by decide)
      (by simpa using quote) isMark
  simp only [stringMatch, List.drop_succ_cons, List.drop_zero,
    stringBody?_encoded encoded closes once, drop_closed, afterOne, if_pos isMark, Option.isSome_some,
    if_true]
  rcases content with _ | ⟨c, _ | ⟨d, more⟩⟩ <;> rfl

end Encoded

end Body

/-- A quote starts a string wherever a lexeme starts. -/
theorem startOf_quote {q : Char} (quote : isDoubleQuote q = true) (following : Option Char) :
    startOf q following = .string := by
  obtain ⟨single, underscore, bracket, letter⟩ := of_isDoubleQuote (P := fun c =>
    isSingleQuote c = false ∧ halfWidth c ≠ '_' ∧ halfWidth c ≠ '[' ∧
      isIdentifierStart (halfWidth c) = false) (by decide +kernel) quote
  simp [startOf, not_isLineTerminator_of_isDoubleQuote quote, single, underscore, bracket, letter,
    quote]

end Scan

/-- The first token is the given one, and it takes that many characters from the start of the
text. -/
def FirstIs (tokens : List Token) (l : Lexeme) (length : Nat) : Prop :=
  ∃ t, tokens.head? = some t ∧ t.lexeme = l ∧ t.span.start = .origin ∧
    t.span.finish.index = length

theorem firstIs_string (o : ScanOptions) {q : Char} {rest : List Char} {l : Lexeme} {n : Nat}
    (quote : isDoubleQuote q = true) (found : Scan.stringMatch (q :: rest) = ⟨l, n⟩) :
    FirstIs (o.tokenize (String.ofList (q :: rest))) l n := by
  obtain ⟨solid, underscore, unmarked⟩ := of_isDoubleQuote (P := fun c =>
    isBlank c = false ∧ halfWidth c ≠ '_' ∧ c ≠ Reader.byteOrderMark) (by decide) quote
  have recognized : Scan.recognize o.version (q :: rest) = ⟨l, n⟩ := by
    simp only [Scan.recognize, Scan.startOf_quote quote, found]
  have starts : Reader.triviaLength 0 (q :: rest) = 0 :=
    triviaLength_eq_zero solid fun same => absurd same underscore
  have fits : n ≤ (q :: rest).length := by
    have takes : (Scan.stringMatch (q :: rest)).Takes (q :: rest) := Scan.stringMatch_takes quote
    rw [found] at takes
    exact takes.clear.1
  have head := head?_tokenize o.version o.effectiveTab (by simpa using unmarked) starts
  rw [recognized] at head
  rw [ScanOptions.tokenize, String.toList_ofList]
  exact ⟨_, head, rfl, rfl, (Reader.index_skip fits).trans (Nat.zero_add n)⟩

/-- A text in one line between two quotes, with each of its own quotes written twice, is a string token
that stands for the text with plain quotes; no quote and no `c` may follow.  With a `c` behind it the
literal is a character if the text has just one, and a fault otherwise.  A literal that no quote
closes in its line is a fault up to the end of the line. -/
theorem string_literals_decode (o : ScanOptions) (q₁ q₂ : Char) (w r : List Char)
    (opens : isDoubleQuote q₁ = true) (closes : isDoubleQuote q₂ = true)
    (inLine : ∀ c ∈ w, isLineTerminator c = false) :
    let literal := q₁ :: (doubled w ++ [q₂])
    let scanned (text : List Char) := o.tokenize (String.ofList text)
    ((∀ c ∈ r.head?, isDoubleQuote c = false ∧ halfWidth c ∉ ['c', 'C']) →
      FirstIs (scanned (literal ++ r)) (.literal (.string (String.ofList (plainQuotes w))))
        literal.length) ∧
    (∀ mark, halfWidth mark ∈ ['c', 'C'] →
      (∀ c, w = [c] → FirstIs (scanned (literal ++ mark :: r)) (.literal (.character (plainQuote c)))
        (literal.length + 1)) ∧
      (w.length ≠ 1 → FirstIs (scanned (literal ++ mark :: r)) (.fault .invalidCharacterLiteral)
        (literal.length + 1))) ∧
    ∀ line, (∀ c ∈ line, isLineTerminator c = false) → ¬ IsClosed line → EndsLine r →
      FirstIs (scanned (q₁ :: (line ++ r))) (.fault .invalidStringLiteral) (1 + line.length) := by
  intro literal scanned
  have encoded := encodes_doubled inLine
  have length : literal.length = (doubled w).length + 2 := by simp [literal]
  have shape (rest : List Char) : literal ++ rest = q₁ :: (doubled w ++ q₂ :: rest) := by
    simp [literal]
  rw [length]
  refine ⟨fun apart => ?_, fun mark isMark => ?_, fun line within unclosed ends => ?_⟩
  · rw [shape]
    exact firstIs_string o opens (Scan.stringMatch_plain encoded closes apart)
  · have found : Scan.stringMatch (q₁ :: (doubled w ++ q₂ :: mark :: r)) = _ :=
      Scan.stringMatch_marked encoded closes isMark
    have marked := firstIs_string o opens found
    rw [shape]
    refine ⟨fun c single => ?_, fun several => ?_⟩
    · rw [single] at marked ⊢
      exact marked
    · rwa [Scan.markedLexeme_of_length_ne (by rwa [plainQuotes, List.length_map])] at marked
  · exact firstIs_string o opens (Scan.stringMatch_open within unclosed ends)

/-- Quotes of several kinds: one that is doubled in a string, one that is a character by itself, and
two that leave a string open. -/
theorem mixed_quotes_are_read :
    FirstIs (ScanOptions.standard.tokenize (String.ofList ['"', 'a', '\u201C', '\u201C', '\uFF02']))
        (.literal (.string (String.ofList ['a', '"']))) 5 ∧
      FirstIs (ScanOptions.standard.tokenize
          (String.ofList ['"', '\u201D', '\u201D', '\u201C', '\uFF43', 'd']))
        (.literal (.character '"')) 5 ∧
      FirstIs (ScanOptions.standard.tokenize (String.ofList ['"', 'a', '"', '\u201D', '\n', '"']))
        (.fault .invalidStringLiteral) 4 := by
  have plain := (string_literals_decode .standard '"' '\uFF02' ['a', '\u201C'] [] (by decide)
    (by decide) (by simp [isLineTerminator])).1 (by simp)
  have marked := (string_literals_decode .standard '"' '\u201C' ['\u201D'] ['d'] (by decide)
    (by decide) (by simp [isLineTerminator])).2.1 '\uFF43' (by decide)
  have opened := (string_literals_decode .standard '"' '"' [] ['\n', '"'] (by decide) (by decide)
    (by simp)).2.2 ['a', '"', '\u201D'] (by simp [isLineTerminator])
    (mt Scan.isClosed_iff.1 (by decide)) (.cons rfl _)
  exact ⟨plain, marked.1 _ rfl, opened⟩

end VisualBasic
