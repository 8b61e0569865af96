import Mathlib.Data.List.Forall2
import VisualBasic.Proofs.Scan.Blank

/-!
How lines end.  A line can end with any of five line breaks.  Texts that differ in nothing but the
line breaks behind their lines have the same tokens, which stand in the same lines and columns.
-/

set_option autoImplicit false

namespace VisualBasic

/-- A line break that nothing behind it belongs to. -/
structure IsWholeBreak (e behind : List Char) : Prop where
  isBreak : e ∈ lineBreaks
  uncut : ¬ CutsBreak e behind

/-- Two texts with the same lines. -/
inductive SameLines : List Char → List Char → Prop where
  | done : SameLines [] []
  | char {c : Char} {a b : List Char} : isLineTerminator c = false → SameLines a b →
      SameLines (c :: a) (c :: b)
  | ending {e e' a b : List Char} : IsWholeBreak e a → IsWholeBreak e' b → SameLines a b →
      SameLines (e ++ a) (e' ++ b)

theorem IsWholeBreak.cons {e a : List Char} (whole : IsWholeBreak e a) :
    ∃ c more, e ++ a = c :: more ∧ isLineTerminator c = true ∧
      Scan.lineBreakLength (c :: more) = e.length ∧ (c :: more).drop e.length = a := by
  have length : ∀ e ∈ lineBreaks, e ≠ [] ∧ Scan.lineBreakLength e = e.length ∧
      e.head?.all isLineTerminator = true := by decide
  obtain ⟨some, length, starts⟩ := length e whole.isBreak
  have joined := (Scan.lineBreakLength_append some whole.uncut).trans length
  obtain ⟨c, rest, rfl⟩ := List.exists_cons_of_ne_nil some
  exact ⟨c, rest ++ a, rfl, starts, joined, List.drop_left⟩

/-- What is recognised within a line is recognised in the line alone. -/
theorem Scan.recognize_lineText {cs : List Char} (version : Version) (within : lineText cs ≠ []) :
    recognize version cs = recognize version (lineText cs) := by
  have parts : lineText cs ++ cs.drop (lineText cs).length = cs := by
    rw [lineText, drop_length_takeWhile, List.takeWhile_append_dropWhile]
  calc recognize version cs
      = recognize version (lineText cs ++ cs.drop (lineText cs).length) := by rw [parts]
    _ = recognize version (lineText cs) :=
        recognize_endsLine version within
          (fun c member => by simpa using List.mem_takeWhile_imp member) (endsLine_lineText cs)

namespace SameLines

variable {a b : List Char} {p : Char → Bool}

/-- What is taken of a line is the same in both texts, and what is left has the same lines. -/
theorem takeWhile (same : SameLines a b) (apart : ∀ c, p c = true → isLineTerminator c = false) :
    a.takeWhile p = b.takeWhile p ∧ SameLines (a.dropWhile p) (b.dropWhile p) := by
  induction same with
  | done => exact ⟨rfl, .done⟩
  | @char c a b inside same ih =>
    by_cases holds : p c = true
    · simpa [List.takeWhile_cons, List.dropWhile_cons, holds] using ih
    · simpa [List.takeWhile_cons, List.dropWhile_cons, holds] using same.char inside
  | @ending e e' a b whole whole' same ih =>
    have stops {e a : List Char} (whole : IsWholeBreak e a) :
        (e ++ a).takeWhile p = [] ∧ (e ++ a).dropWhile p = e ++ a := by
      obtain ⟨c, more, front, isBreak, -⟩ := whole.cons
      have fails : p c = false := Bool.eq_false_iff.2 fun holds => by
        rw [apart c holds] at isBreak
        cases isBreak
      simp [front, fails]
    rw [(stops whole).1, (stops whole).2, (stops whole').1, (stops whole').2]
    exact ⟨rfl, same.ending whole whole'⟩

theorem head?_eq_iff (same : SameLines a b) {c : Char} (inside : isLineTerminator c = false) :
    a.head? = some c ↔ b.head? = some c := by
  have other {e a : List Char} (whole : IsWholeBreak e a) : (e ++ a).head? ≠ some c := by
    obtain ⟨d, more, front, isBreak, -⟩ := whole.cons
    rw [front, List.head?_cons]
    rintro ⟨rfl⟩
    rw [inside] at isBreak
    cases isBreak
  cases same with
  | done => rfl
  | char => rfl
  | ending whole whole' => exact iff_of_false (other whole) (other whole')

/-- Within a line both texts have the same lexemes. -/
theorem recognize_eq (same : SameLines a b) (version : Version)
    (inside : ∀ c ∈ a.head?, isLineTerminator c = false) (goesOn : a ≠ []) :
    Scan.recognize version a = Scan.recognize version b := by
  have line : Scan.lineText a = Scan.lineText b :=
    (same.takeWhile (p := fun c => !isLineTerminator c) (by simp)).1
  have first : Scan.lineText a ≠ [] := by
    obtain ⟨c, rest, rfl⟩ := List.exists_cons_of_ne_nil goesOn
    simp [Scan.lineText, inside c rfl]
  rw [Scan.recognize_lineText version first, line, ← Scan.recognize_lineText version]
  rwa [← line]

end SameLines

-- Places

/-- The locations have the same line and the same column. -/
structure Location.Coincides (l l' : Location) : Prop where
  line : l.line = l'.line
  column : l.column = l'.column

/-- The tokens say the same, and they start and end in the same lines and columns. -/
structure Token.Coincides (t t' : Token) : Prop where
  lexeme : t.lexeme = t'.lexeme
  start : t.span.start.Coincides t'.span.start
  finish : t.span.finish.Coincides t'.span.finish

/-- Within a line the next character has no say in where a character leads to. -/
theorem Location.Coincides.advance {l l' : Location} {c : Char} (same : l.Coincides l') (tab : Nat)
    (next next' : Option Char) (inside : isLineTerminator c = false) :
    (l.advance tab c next).Coincides (l'.advance tab c next') := by
  unfold Location.advance
  simp only [inside, Bool.false_and, Bool.false_eq_true, if_false]
  split
  · exact ⟨same.line, congrArg (· + tab) same.column⟩
  · exact ⟨same.line, congrArg (· + 1) same.column⟩

namespace Reader

/-- The readers stand at the same place of the same lines. -/
structure Abreast (r r' : Reader) : Prop where
  rest : SameLines r.rest r'.rest
  location : r.location.Coincides r'.location

namespace Abreast

variable {r r' : Reader} {a b e e' : List Char} {l l' : Location}

/-- Characters of one line are passed alike. -/
theorem skip (abreast : Abreast r r') (tab : Nat) {n : Nat}
    (inside : ∀ c ∈ r.rest.take n, isLineTerminator c = false) :
    Abreast (r.skip tab n) (r'.skip tab n) := by
  induction n generalizing r r' with
  | zero => exact abreast
  | succ n ih =>
    obtain ⟨rest, l⟩ := r
    obtain ⟨rest', l'⟩ := r'
    obtain ⟨same, location⟩ := abreast
    cases same with
    | done => exact ⟨.done, location⟩
    | @char c a b plain same =>
      exact ih ⟨same, location.advance tab _ _ plain⟩
        fun d member => inside d (List.mem_cons_of_mem c member)
    | @ending e e' a b whole whole' =>
      obtain ⟨c, more, front, isBreak, -⟩ := whole.cons
      have := inside c (by simp [front])
      rw [isBreak] at this
      cases this

/-- A line break leads to the start of the next line. -/
theorem skip_break {tab : Nat} (whole : IsWholeBreak e a) (l : Location) :
    (⟨e ++ a, l⟩ : Reader).skip tab e.length = ⟨a, ⟨l.index + e.length, l.line + 1, 1⟩⟩ := by
  obtain ⟨c, more, front, isBreak, length, behind⟩ := whole.cons
  rw [front, ← length, skip_lineBreak isBreak, length, behind]

theorem ending (tab : Nat) (whole : IsWholeBreak e a) (whole' : IsWholeBreak e' b)
    (same : SameLines a b) (location : l.Coincides l') :
    Abreast ((⟨e ++ a, l⟩ : Reader).skip tab e.length)
      ((⟨e' ++ b, l'⟩ : Reader).skip tab e'.length) := by
  rw [skip_break whole, skip_break whole']
  exact ⟨same, congrArg (· + 1) location.line, rfl⟩

/-- What stands behind blanks decides whether an underscore before them continues the line. -/
theorem continuationTail?_eq {c : Char} (underscore : halfWidth c = '_') (rest : List Char) :
    continuationTail? c rest =
      match rest.dropWhile isBlank with
      | [] => some (rest.takeWhile isBlank).length
      | d :: after =>
        if isLineTerminator d then
          some ((rest.takeWhile isBlank).length + Scan.lineBreakLength (d :: after))
        else none := by
  rw [← drop_length_takeWhile]
  exact if_pos underscore

theorem skip_blanks (tab : Nat) (cs : List Char) (l : Location) :
    ∃ m, (⟨cs, l⟩ : Reader).skip tab (cs.takeWhile isBlank).length = ⟨cs.dropWhile isBlank, m⟩ :=
  ⟨_, eq_of_rest (by rw [rest_skip, drop_length_takeWhile])⟩

/-- The blanks behind an underscore and the line break behind them are passed alike, if these make a
line continuation. -/
theorem continuation (tab : Nat) (c : Char) (same : SameLines a b)
    (location : l.Coincides l') :
    continuationTail? c a = none ∧ continuationTail? c b = none ∨
      ∃ n n', continuationTail? c a = some n ∧ continuationTail? c b = some n' ∧
        Abreast ((⟨a, l⟩ : Reader).skip tab n) ((⟨b, l'⟩ : Reader).skip tab n') := by
  by_cases underscore : halfWidth c = '_'
  case neg =>
    exact .inl ⟨continuationTail?_of_ne underscore a, continuationTail?_of_ne underscore b⟩
  obtain ⟨blanks, -⟩ := same.takeWhile (p := isBlank) fun _ => not_isLineTerminator_of_isBlank
  have passed : Abreast ((⟨a, l⟩ : Reader).skip tab (a.takeWhile isBlank).length)
      ((⟨b, l'⟩ : Reader).skip tab (b.takeWhile isBlank).length) := by
    rw [← blanks]
    refine skip ⟨same, location⟩ tab fun d member => ?_
    rw [← List.prefix_iff_eq_take.1 (List.takeWhile_prefix isBlank)] at member
    exact not_isLineTerminator_of_isBlank (List.mem_takeWhile_imp member)
  obtain ⟨m, start⟩ := skip_blanks tab a l
  obtain ⟨m', start'⟩ := skip_blanks tab b l'
  rw [start, start'] at passed
  obtain ⟨front, place⟩ := passed
  rw [continuationTail?_eq underscore, continuationTail?_eq underscore]
  generalize a.dropWhile isBlank = a' at *
  generalize b.dropWhile isBlank = b' at *
  cases front with
  | done =>
    refine .inr ⟨_, _, rfl, rfl, ?_⟩
    rw [start, start']
    exact ⟨.done, place⟩
  | char inside _ => exact .inl (by simp [inside])
  | @ending e e' a b whole whole' same =>
    have taken {e a : List Char} (whole : IsWholeBreak e a) (k : Nat) :
        (match e ++ a with
          | [] => some k
          | d :: after => if isLineTerminator d then some (k + Scan.lineBreakLength (d :: after))
            else none) = some (k + e.length) := by
      obtain ⟨d, more, front, isBreak, length, -⟩ := whole.cons
      simp only [front, isBreak, if_true, length]
    refine .inr ⟨_, _, taken whole _, taken whole' _, ?_⟩
    rw [← skip_skip, start, ← skip_skip, start']
    exact ending tab whole whole' same place

theorem triviaLength_add {n : Nat} {cs : List Char} (fits : n ≤ cs.length) :
    triviaLength n cs = n + triviaLength 0 (cs.drop n) := by
  induction n generalizing cs with
  | zero => rw [List.drop_zero, Nat.zero_add]
  | succ n ih =>
    cases cs with
    | nil => cases fits
    | cons c rest =>
      rw [triviaLength, ih (Nat.le_of_succ_le_succ fits), List.drop_succ_cons]
      omega

/-- Blanks and line continuations are passed alike, the line breaks of continuations among them. -/
theorem trivia (tab : Nat) (same : SameLines a b) (location : l.Coincides l') :
    Abreast ((⟨a, l⟩ : Reader).skip tab (triviaLength 0 a))
      ((⟨b, l'⟩ : Reader).skip tab (triviaLength 0 b)) := by
  generalize size : a.length = n
  induction n using Nat.strong_induction_on generalizing a b l l' with
  | _ n ih =>
    cases same with
    | done => exact ⟨.done, location⟩
    | ending whole whole' same =>
      have none {e a : List Char} (whole : IsWholeBreak e a) : triviaLength 0 (e ++ a) = 0 := by
        obtain ⟨c, more, front, isBreak, -⟩ := whole.cons
        rw [front, triviaLength_of_endsLine (.cons isBreak more)]
      rw [none whole, none whole']
      exact ⟨same.ending whole whole', location⟩
    | @char c a b inside same =>
      have next := location.advance tab a.head? b.head? inside
      simp only [triviaLength]
      by_cases blank : isBlank c = true
      · simp only [blank, if_true]
        exact ih a.length (by simp [← size]) same next rfl
      · simp only [blank, Bool.false_eq_true, if_false]
        rcases continuation tab c same next with ⟨none, none'⟩ | ⟨k, k', tail, tail', behind⟩
        · simp only [none, none']
          exact ⟨same.char inside, location⟩
        · -- behind the continuation there may be more blanks and continuations
          obtain ⟨front, place⟩ := behind
          rw [rest_skip, rest_skip] at front
          have fewer : (a.drop k).length < n := by
            rw [List.length_drop, ← size, List.length_cons]
            omega
          have more := ih _ fewer front place rfl
          simp only [tail, tail', triviaLength_add (continuationTail?_le tail),
            triviaLength_add (continuationTail?_le tail')]
          show Abreast (Reader.skip tab _ ⟨a, _⟩) (Reader.skip tab _ ⟨b, _⟩)
          rw [← skip_skip, ← skip_skip, eq_of_rest (rest_skip tab k _),
            eq_of_rest (rest_skip tab k' _)]
          exact more

/-- Both readers find the same token next, in the same line and column. -/
theorem next (abreast : Abreast r r') (version : Version) (tab : Nat) :
    (r.next version tab).1.Coincides (r'.next version tab).1 ∧
      Abreast (r.next version tab).2 (r'.next version tab).2 := by
  have start : Abreast (r.skipTrivia tab) (r'.skipTrivia tab) :=
    trivia tab abreast.rest abreast.location
  obtain ⟨lexeme, after⟩ : (Scan.recognize version (r.skipTrivia tab).rest).lexeme =
        (Scan.recognize version (r'.skipTrivia tab).rest).lexeme ∧
      Abreast ((r.skipTrivia tab).skip tab (Scan.recognize version (r.skipTrivia tab).rest).length)
        ((r'.skipTrivia tab).skip tab
          (Scan.recognize version (r'.skipTrivia tab).rest).length) := by
    generalize r.skipTrivia tab = s at *
    generalize r'.skipTrivia tab = s' at *
    obtain ⟨rest, l⟩ := s
    obtain ⟨rest', l'⟩ := s'
    obtain ⟨same, location⟩ := start
    cases same with
    | done => exact ⟨rfl, .done, location⟩
    | @char c a b inside same =>
      have found := (same.char inside).recognize_eq version (by simpa using inside) (by simp)
      rw [← found]
      refine ⟨rfl, skip ⟨same.char inside, location⟩ tab ?_⟩
      rcases Scan.recognize_cons version c a with takes | ⟨ends, -⟩
      · exact takes.clear.2
      · rw [inside] at ends
        cases ends
    | @ending e e' a b whole whole' same =>
      have taken {e a : List Char} (whole : IsWholeBreak e a) :
          Scan.recognize version (e ++ a) = ⟨.lineTerminator, e.length⟩ := by
        obtain ⟨c, more, front, isBreak, length, -⟩ := whole.cons
        rw [front, Scan.recognize_lineBreak version more isBreak, length]
      show (Scan.recognize version (e ++ a)).lexeme = (Scan.recognize version (e' ++ b)).lexeme ∧
        Abreast (Reader.skip tab (Scan.recognize version (e ++ a)).length ⟨e ++ a, l⟩)
          (Reader.skip tab (Scan.recognize version (e' ++ b)).length ⟨e' ++ b, l'⟩)
      rw [taken whole, taken whole']
      exact ⟨rfl, ending tab whole whole' same location⟩
  exact ⟨⟨lexeme, start.location, after.location⟩, after⟩

theorem left (abreast : Abreast r r') (version : Version) (tab : Nat) :
    List.Forall₂ Token.Coincides (r.left version tab) (r'.left version tab) := by
  generalize size : r.rest.length = n
  induction n using Nat.strong_induction_on generalizing r r' with
  | _ n ih =>
    obtain ⟨token, after⟩ := abreast.next version tab
    have kind : (r.next version tab).1.kind = (r'.next version tab).1.kind :=
      congrArg Lexeme.kind token.lexeme
    by_cases ends : (r.next version tab).1.kind = .endOfStream
    · rw [left_of_ends ends, left_of_ends (r := r') (kind ▸ ends)]
      exact .cons token .nil
    · rw [left_of_goesOn ends, left_of_goesOn (r := r') (kind ▸ ends)]
      exact .cons token (ih _ (size ▸ rest_next_lt ends) after rfl)

theorem ofText (tab : Nat) (same : SameLines a b) : Abreast (.ofText tab a) (.ofText tab b) := by
  have marked := same.head?_eq_iff (c := byteOrderMark) (by decide)
  unfold Reader.ofText
  dsimp only
  by_cases mark : a.head? = some byteOrderMark
  · rw [if_pos mark, if_pos (marked.1 mark)]
    have start : Abreast ⟨a, .origin⟩ ⟨b, .origin⟩ := ⟨same, rfl, rfl⟩
    refine start.skip tab fun c member => ?_
    obtain ⟨rest, rfl⟩ := List.head?_eq_some_iff.1 mark
    rw [show c = byteOrderMark by simpa using member]
    decide
  · rw [if_neg mark, if_neg (mt marked.2 mark)]
    exact ⟨same, rfl, rfl⟩

end Abreast

end Reader

-- Texts as their lines

/-- A line of a text, without its end. -/
structure PlainLine where
  text : String
  inside : ∀ c ∈ text.toList, isLineTerminator c = false

/-- The ways to end a line. -/
inductive LineEnd where
  | carriageReturn
  | lineFeed
  | both
  | lineSeparator
  | paragraphSeparator
deriving DecidableEq

def LineEnd.text : LineEnd → String
  | carriageReturn => "\r"
  | lineFeed => "\n"
  | both => "\r\n"
  | lineSeparator => "\u2028"
  | paragraphSeparator => "\u2029"

/-- Lines one below the other, each with the end that is chosen for it. -/
def writeLines : List PlainLine → (Nat → LineEnd) → String
  | [], _ => ""
  | line :: lines, ends => line.text ++ (ends 0).text ++ writeLines lines fun i => ends (i + 1)

/-- No carriage return is followed by the line feed of an empty line.  The two would be one end. -/
def EndsApart (lines : List PlainLine) (ends : Nat → LineEnd) : Prop :=
  ∀ i line, lines[i + 1]? = some line → line.text = "" →
    ¬ (ends i = .carriageReturn ∧ ends (i + 1) = .lineFeed)

theorem EndsApart.tail {line : PlainLine} {lines : List PlainLine} {ends : Nat → LineEnd}
    (apart : EndsApart (line :: lines) ends) : EndsApart lines fun i => ends (i + 1) :=
  fun i next found => apart (i + 1) next found

/-- A line feed stands in front only if it ends an empty line. -/
theorem head?_writeLines {lines : List PlainLine} {ends : Nat → LineEnd}
    (feed : (writeLines lines ends).toList.head? = some '\n') :
    ∃ line, lines[0]? = some line ∧ line.text = "" ∧ ends 0 = .lineFeed := by
  cases lines with
  | nil => cases feed
  | cons line lines =>
    have inside := line.inside
    simp only [writeLines, String.toList_append, List.append_assoc] at feed
    cases written : line.text.toList with
    | nil =>
      refine ⟨line, rfl, String.toList_eq_nil_iff.1 written, ?_⟩
      rw [written] at feed
      cases chosen : ends 0 <;> simp [chosen, LineEnd.text] at feed ⊢
    | cons c rest =>
      rw [written] at feed inside
      obtain rfl : c = '\n' := by simpa using feed
      have := inside _ List.mem_cons_self
      cases this

theorem EndsApart.isWholeBreak {line : PlainLine} {lines : List PlainLine} {ends : Nat → LineEnd}
    (apart : EndsApart (line :: lines) ends) :
    IsWholeBreak (ends 0).text.toList (writeLines lines fun i => ends (i + 1)).toList := by
  refine ⟨?_, fun ⟨last, feed⟩ => ?_⟩
  · cases ends 0 <;> decide
  · obtain ⟨next, first, empty, isFeed⟩ := head?_writeLines feed
    refine apart 0 next first empty ⟨?_, isFeed⟩
    cases chosen : ends 0 <;> simp [chosen, LineEnd.text] at last ⊢

theorem SameLines.append {a b : List Char} (same : SameLines a b) {line : List Char}
    (inside : ∀ c ∈ line, isLineTerminator c = false) : SameLines (line ++ a) (line ++ b) := by
  induction line with
  | nil => exact same
  | cons c line ih =>
    obtain ⟨first, rest⟩ := List.forall_mem_cons.1 inside
    exact .char first (ih rest)

theorem sameLines_writeLines {lines : List PlainLine} {ends ends' : Nat → LineEnd}
    (apart : EndsApart lines ends) (apart' : EndsApart lines ends') :
    SameLines (writeLines lines ends).toList (writeLines lines ends').toList := by
  induction lines generalizing ends ends' with
  | nil => exact .done
  | cons line lines ih =>
    simp only [writeLines, String.toList_append, List.append_assoc]
    exact (SameLines.ending apart.isWholeBreak apart'.isWholeBreak
      (ih apart.tail apart'.tail)).append line.inside

/-- However the lines of a text end, its tokens are the same, and they start and end in the same lines
and columns. -/
theorem line_ends_are_alike (o : ScanOptions) (lines : List PlainLine) (ends ends' : Nat → LineEnd)
    (apart : EndsApart lines ends) (apart' : EndsApart lines ends') :
    List.Forall₂ Token.Coincides (Scanner.ofText o (writeLines lines ends)).readToEnd.1
      (Scanner.ofText o (writeLines lines ends')).readToEnd.1 := by
  rw [Scanner.readToEnd_ofText, Scanner.readToEnd_ofText, ScanOptions.tokenize,
    ScanOptions.tokenize, tokenize_eq_left, tokenize_eq_left]
  exact (Reader.Abreast.ofText _ (sameLines_writeLines apart apart')).left _ _

theorem inside_of_all {text : String}
    (inside : text.toList.all (fun c => !isLineTerminator c) = true) :
    ∀ c ∈ text.toList, isLineTerminator c = false := by
  simpa using inside

/-- A statement that goes on behind a continuation, an empty line and a comment. -/
def continuedLines : List PlainLine :=
  [⟨"a = _", inside_of_all (by decide)⟩, ⟨" 1", inside_of_all (by decide)⟩,
    ⟨"", inside_of_all (by decide)⟩, ⟨"\x27b", inside_of_all (by decide)⟩]

/-- The empty line ends with a carriage return, which no line feed follows. -/
theorem endsApart_carriageReturn : EndsApart continuedLines fun _ => .carriageReturn :=
  fun _ _ _ _ both => by simp at both

theorem endsApart_both : EndsApart continuedLines fun _ => .both :=
  fun _ _ _ _ both => by simp at both

theorem continued_lines_are_alike :
    EndsApart continuedLines (fun _ => .carriageReturn) ∧ EndsApart continuedLines (fun _ => .both) ∧
      List.Forall₂ Token.Coincides
        (Scanner.ofText .standard (writeLines continuedLines fun _ => .carriageReturn)).readToEnd.1
        (Scanner.ofText .standard (writeLines continuedLines fun _ => .both)).readToEnd.1 :=
  ⟨endsApart_carriageReturn, endsApart_both,
    line_ends_are_alike .standard continuedLines _ _ endsApart_carriageReturn endsApart_both⟩

end VisualBasic
