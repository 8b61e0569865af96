import VisualBasic.Proofs.Scan.Lexeme
import VisualBasic.Scan.Scanner

/-!
The tokens of a text tile it.  They stand in order and every character belongs to one of them,
except blanks, line continuations and a byte order mark at the very start.
-/

set_option autoImplicit false

namespace VisualBasic

/-- The ways to end a line. -/
def lineBreaks : List (List Char) := [['\r'], ['\n'], ['\r', '\n'], ['\u2028'], ['\u2029']]

def Span.slice (span : Span) (text : List Char) : List Char :=
  (text.drop span.start.index).take (span.finish.index - span.start.index)

/-- The text starts with a line continuation of `n` characters: an underscore that starts no name,
blanks, and a line break or the end of the text. -/
def StartsContinuation (cs : List Char) (n : Nat) : Prop :=
  ∃ underscore blanks ending rest,
    cs = underscore :: (blanks ++ ending ++ rest) ∧ n = 1 + blanks.length + ending.length ∧
      halfWidth underscore = '_' ∧ (blanks ++ ending ++ rest).head?.any isIdentifierPart = false ∧
      (∀ c ∈ blanks, isBlank c = true) ∧ (ending ∈ lineBreaks ∨ ending = [] ∧ rest = [])

/-- The character at an index is a blank or part of a line continuation. -/
def Passed (text : List Char) (i : Nat) : Prop :=
  text[i]?.any isBlank = true ∨
    ∃ start n, StartsContinuation (text.drop start) n ∧ start ≤ i ∧ i < start + n

/-- The character at an index can stand outside all tokens. -/
def Skipped (text : List Char) (i : Nat) : Prop :=
  i = 0 ∧ text.head? = some Reader.byteOrderMark ∨ Passed text i

/-- What the tokens of a text are to the text. -/
structure Tiles (text : List Char) (tokens : List Token) : Prop where
  wide : ∀ t ∈ tokens.dropLast, t.span.start.index < t.span.finish.index
  ordered : tokens.Pairwise fun a b => a.span.finish.index ≤ b.span.start.index
  ending : ∃ t, tokens.getLast? = some t ∧ t.kind = .endOfStream ∧
    t.span.start.index = text.length ∧ t.span.finish.index = text.length
  endsOnce : ∀ t ∈ tokens.dropLast, t.kind ≠ .endOfStream
  within : ∀ t ∈ tokens, t.kind ≠ .lineTerminator →
    ∀ c ∈ t.span.slice text, isLineTerminator c = false
  breaks : ∀ t ∈ tokens, t.kind = .lineTerminator → t.span.slice text ∈ lineBreaks
  covers : ∀ i, i < text.length →
    (∃ t ∈ tokens, t.span.start.index ≤ i ∧ i < t.span.finish.index) ∨ Skipped text i

-- What stands between tokens

theorem Passed.drop {text : List Char} {k i : Nat} (passed : Passed (text.drop k) i) :
    Passed text (k + i) := by
  rcases passed with blank | ⟨start, n, continuation, lower, upper⟩
  · left
    rwa [List.getElem?_drop] at blank
  · right
    rw [List.drop_drop] at continuation
    exact ⟨k + start, n, continuation, by omega, by omega⟩

theorem Passed.cons {c : Char} {rest : List Char} {i : Nat} (passed : Passed rest i) :
    Passed (c :: rest) (i + 1) := by
  rw [Nat.add_comm]
  exact Passed.drop (k := 1) passed

/-- A line break is one of the ways to end a line. -/
theorem take_lineBreakLength {c : Char} (rest : List Char) (ends : isLineTerminator c = true) :
    (c :: rest).take (Scan.lineBreakLength (c :: rest)) ∈ lineBreaks ∧
      0 < Scan.lineBreakLength (c :: rest) ∧
      Scan.lineBreakLength (c :: rest) ≤ (c :: rest).length := by
  unfold Scan.lineBreakLength
  split
  next after same =>
    obtain ⟨rfl, rfl⟩ := List.cons.inj same
    exact ⟨by simp [lineBreaks], by decide, by simp⟩
  next =>
    refine ⟨?_, by decide, by simp⟩
    rcases isLineTerminator_cases ends with rfl | rfl | rfl | rfl <;> simp [lineBreaks]

theorem not_isIdentifierPart_of_isBlank {c : Char} (blank : isBlank c = true) :
    isIdentifierPart c = false := by
  have wideSpaces : ∀ n < 11, isIdentifierPart (Char.ofNat (0x2000 + n)) = false := by
    decide +kernel
  simp only [isBlank, Bool.or_eq_true, Bool.and_eq_true, beq_iff_eq, decide_eq_true_eq] at blank
  rcases blank with (((((((rfl | rfl) | rfl) | rfl) | rfl) | range) | rfl) | rfl) | rfl
  case inl.inl.inl.inr =>
    have lower : 0x2000 ≤ c.toNat := range.1
    have upper : c.toNat ≤ 0x200A := range.2
    have space := wideSpaces (c.toNat - 0x2000) (by omega)
    rwa [Nat.add_sub_cancel' lower, Char.ofNat_toNat] at space
  all_goals decide +kernel

theorem not_isIdentifierPart_of_isLineTerminator {c : Char} (ends : isLineTerminator c = true) :
    isIdentifierPart c = false := by
  by_contra part
  have inside := not_isLineTerminator_of_isIdentifierPart (Bool.of_not_eq_false part)
  rw [ends] at inside
  contradiction

theorem drop_length_takeWhile (p : Char → Bool) (cs : List Char) :
    cs.drop (cs.takeWhile p).length = cs.dropWhile p := by
  induction cs with
  | nil => rfl
  | cons c rest ih => by_cases holds : p c <;> simp [holds, ih]

theorem startsContinuation_of_tail {c : Char} {rest : List Char} {n : Nat}
    (tail : Reader.continuationTail? c rest = some n) : StartsContinuation (c :: rest) (n + 1) := by
  unfold Reader.continuationTail? at tail
  split at tail
  next underscore =>
    have parts := List.takeWhile_append_dropWhile (p := isBlank) (l := rest)
    have blanks (d : Char) (member : d ∈ rest.takeWhile isBlank) : isBlank d = true :=
      List.mem_takeWhile_imp member
    -- behind the underscore stands a blank or what ends the continuation, but no name
    have follows (behind : (rest.dropWhile isBlank).head?.any isIdentifierPart = false) :
        rest.head?.any isIdentifierPart = false := by
      rw [← parts]
      cases front : rest.takeWhile isBlank with
      | nil => simpa using behind
      | cons d _ => simp [not_isIdentifierPart_of_isBlank (blanks d (by simp [front]))]
    simp only [drop_length_takeWhile] at tail
    split at tail
    next atEnd =>
      obtain rfl : (rest.takeWhile isBlank).length = n := by simpa using tail
      have same : rest = rest.takeWhile isBlank ++ [] ++ [] := by
        rw [List.append_assoc, List.append_nil, ← atEnd, parts]
      refine ⟨c, rest.takeWhile isBlank, [], [], by rw [← same], ?_, underscore, ?_, blanks,
        .inr ⟨rfl, rfl⟩⟩
      · simp [Nat.add_comm]
      · rw [← same]
        exact follows (by simp [atEnd])
    next d after behind =>
      split at tail
      next ends =>
        obtain ⟨isBreak, -, fits⟩ := take_lineBreakLength after ends
        have same : rest = rest.takeWhile isBlank
            ++ (d :: after).take (Scan.lineBreakLength (d :: after))
            ++ (d :: after).drop (Scan.lineBreakLength (d :: after)) := by
          rw [List.append_assoc, List.take_append_drop, ← behind, parts]
        refine ⟨c, _, _, _, by rw [← same], ?_, underscore, ?_, blanks, .inl isBreak⟩
        · rw [List.length_take, Nat.min_eq_left fits]
          simp only [Option.some.injEq] at tail
          omega
        · rw [← same]
          exact follows (by simp [behind, not_isIdentifierPart_of_isLineTerminator ends])
      next => simp at tail
  next => simp at tail

namespace Reader

theorem triviaLength_le (n : Nat) (cs : List Char) : triviaLength n cs ≤ cs.length := by
  fun_induction triviaLength n cs <;> simp_all

/-- Every character before the next lexeme is passed, those of the continuation in progress
apart. -/
theorem passed_of_lt_triviaLength (n : Nat) (cs : List Char) {i : Nat}
    (inside : i < triviaLength n cs) : i < n ∨ Passed cs i := by
  fun_induction triviaLength n cs generalizing i with
  | case1 => simp at inside
  | case2 n c rest ih =>
    cases i with
    | zero => left; omega
    | succ i =>
      rcases ih (i := i) (by omega) with early | passed
      · left; omega
      · exact .inr passed.cons
  | case3 c rest blank ih =>
    right
    cases i with
    | zero => left; simpa using blank
    | succ i => exact ((ih (by omega)).resolve_left (by omega)).cons
  | case4 c rest solid n tail ih =>
    right
    cases i with
    | zero => exact .inr ⟨0, n + 1, startsContinuation_of_tail tail, by omega, by omega⟩
    | succ i =>
      rcases ih (i := i) (by omega) with early | passed
      · exact .inr ⟨0, n + 1, startsContinuation_of_tail tail, by omega, by omega⟩
      · exact passed.cons
  | case5 => simp at inside

theorem index_advance (tab : Nat) (c : Char) (following : Option Char) (l : Location) :
    (l.advance tab c following).index = l.index + 1 := by
  unfold Location.advance
  split
  · rfl
  · split <;> rfl

theorem rest_skip (tab n : Nat) (r : Reader) : (r.skip tab n).rest = r.rest.drop n := by
  induction n generalizing r with
  | zero => rfl
  | succ n ih =>
    rcases r with ⟨rest, location⟩
    cases rest with
    | nil => rfl
    | cons c rest => exact ih _

theorem index_skip {tab n : Nat} {r : Reader} (fits : n ≤ r.rest.length) :
    (r.skip tab n).location.index = r.location.index + n := by
  induction n generalizing r with
  | zero => rfl
  | succ n ih =>
    rcases r with ⟨rest, location⟩
    cases rest with
    | nil => simp at fits
    | cons c rest =>
      rw [skip, ih (by simpa using fits), index_advance]
      omega

/-- The reader stands in the text, with what is left of it. -/
structure Reads (r : Reader) (text : List Char) : Prop where
  bound : r.location.index ≤ text.length
  rest : r.rest = text.drop r.location.index

namespace Reads

variable {r : Reader} {text : List Char}

theorem length_rest (reads : r.Reads text) :
    r.rest.length = text.length - r.location.index := by
  rw [reads.rest, List.length_drop]

theorem skip {n : Nat} (reads : r.Reads text) (tab : Nat) (fits : n ≤ r.rest.length) :
    (r.skip tab n).Reads text := by
  have length := reads.length_rest
  have bound := reads.bound
  constructor
  · rw [index_skip fits]
    omega
  · rw [rest_skip, index_skip fits, reads.rest, List.drop_drop]

theorem ofText (tab : Nat) (text : List Char) : (Reader.ofText tab text).Reads text := by
  unfold Reader.ofText
  have start : Reads ⟨text, .origin⟩ text := ⟨Nat.zero_le _, rfl⟩
  dsimp only
  split
  next mark =>
    obtain ⟨tail, rfl⟩ := List.head?_eq_some_iff.1 mark
    exact start.skip tab (by simp)
  next => exact start

end Reads

/-- Only a byte order mark stands before the place where a reader starts. -/
theorem marked_of_lt_ofText {tab : Nat} {text : List Char} {i : Nat}
    (early : i < (ofText tab text).location.index) : i = 0 ∧ text.head? = some byteOrderMark := by
  simp only [ofText] at early
  split at early
  next mark =>
    obtain ⟨tail, rfl⟩ := List.head?_eq_some_iff.1 mark
    rw [index_skip (by simp)] at early
    simp only [Location.origin] at early
    exact ⟨by omega, mark⟩
  next => simp [Location.origin] at early

end Reader

/-- The token is a lexeme within a line or the end of a line, as its text says. -/
def Token.IsTile (t : Token) (text : List Char) : Prop :=
  t.lexeme.IsProper ∧ (∀ c ∈ t.span.slice text, isLineTerminator c = false) ∨
    t.lexeme = .lineTerminator ∧ t.span.slice text ∈ lineBreaks

theorem Token.IsTile.kind_ne {t : Token} {text : List Char} (tile : t.IsTile text) :
    t.kind ≠ .endOfStream := by
  rcases tile with ⟨proper, -⟩ | ⟨isBreak, -⟩
  · exact proper.kind_ne.1
  · simp [Token.kind, isBreak, Lexeme.kind]

/-- The tokens tile the text from an index on. -/
inductive TilesFrom (text : List Char) : Nat → List Token → Prop where
  | finish {k : Nat} {t : Token} : t.lexeme = .endOfStream → t.span.start.index = text.length →
      t.span.finish.index = text.length → (∀ i, k ≤ i → i < text.length → Passed text i) →
      k ≤ text.length → TilesFrom text k [t]
  | token {k : Nat} {t : Token} {rest : List Token} : k ≤ t.span.start.index →
      (∀ i, k ≤ i → i < t.span.start.index → Passed text i) →
      t.span.start.index < t.span.finish.index → t.IsTile text →
      TilesFrom text t.span.finish.index rest → TilesFrom text k (t :: rest)

namespace Reader

variable {r : Reader} {text : List Char}

theorem rest_skipTrivia (tab : Nat) (reads : r.Reads text) :
    (r.skipTrivia tab).Reads text ∧ r.location.index ≤ (r.skipTrivia tab).location.index ∧
      ∀ i, r.location.index ≤ i → i < (r.skipTrivia tab).location.index → Passed text i := by
  have fits := triviaLength_le 0 r.rest
  unfold skipTrivia
  refine ⟨reads.skip tab fits, ?_, ?_⟩
  all_goals rw [index_skip fits]
  · omega
  · intro i lower upper
    have inside : i - r.location.index < triviaLength 0 r.rest := by omega
    have passed := (passed_of_lt_triviaLength 0 r.rest inside).resolve_left (by omega)
    rw [reads.rest] at passed
    simpa [Nat.add_sub_cancel' lower] using passed.drop

/-- What a reader takes from the text is what its token spans. -/
theorem slice_skip (tab : Nat) {n : Nat} (reads : r.Reads text) (fits : n ≤ r.rest.length) :
    Span.slice ⟨r.location, (r.skip tab n).location⟩ text = r.rest.take n := by
  simp only [Span.slice, index_skip fits, reads.rest, Nat.add_sub_cancel_left]

theorem recognize_spans {version : Version} {tab : Nat} {found : Match} {after : Reader}
    {token : Token} (reads : r.Reads text) (recognized : Scan.recognize version r.rest = found)
    (behind : r.skip tab found.length = after)
    (spans : token = ⟨found.lexeme, ⟨r.location, after.location⟩⟩) :
    token.lexeme = .endOfStream ∧ token.span.start.index = text.length ∧
        token.span.finish.index = text.length ∨
      token.span.start.index < token.span.finish.index ∧ token.IsTile text ∧ after.Reads text := by
  have length := reads.length_rest
  have bound := reads.bound
  subst spans
  cases front : r.rest with
  | nil =>
    rw [front] at recognized length
    subst recognized
    obtain rfl : r = after := behind
    have atEnd : r.location.index = text.length := by
      rw [List.length_nil] at length
      omega
    exact .inl ⟨rfl, atEnd, atEnd⟩
  | cons c rest =>
    right
    have extent : found.length ≤ r.rest.length ∧ 0 < found.length ∧
        (found.lexeme.IsProper ∧ (∀ d ∈ r.rest.take found.length, isLineTerminator d = false) ∨
          found.lexeme = .lineTerminator ∧ r.rest.take found.length ∈ lineBreaks) := by
      rw [front] at recognized ⊢
      subst recognized
      rcases Scan.recognize_cons version c rest with takes | ⟨ends, isBreak⟩
      · exact ⟨takes.clear.1, takes.positive, .inl ⟨takes.proper, takes.clear.2⟩⟩
      · obtain ⟨member, positive, fits⟩ := take_lineBreakLength rest ends
        rw [isBreak]
        exact ⟨fits, positive, .inr ⟨rfl, member⟩⟩
    obtain ⟨fits, positive, kind⟩ := extent
    subst behind
    refine ⟨?_, ?_, reads.skip tab fits⟩
    · rw [index_skip fits]
      exact Nat.lt_add_of_pos_right positive
    · unfold Token.IsTile
      rwa [slice_skip tab reads fits]

/-- One step of a reader: it passes what stands between tokens and takes a tile, or ends. -/
theorem next_tile {version : Version} {tab : Nat} {token : Token} {after : Reader}
    (reads : r.Reads text) (step : r.next version tab = (token, after)) :
    r.location.index ≤ token.span.start.index ∧
      (∀ i, r.location.index ≤ i → i < token.span.start.index → Passed text i) ∧
      (token.lexeme = .endOfStream ∧ token.span.start.index = text.length ∧
          token.span.finish.index = text.length ∨
        token.span.start.index < token.span.finish.index ∧ token.IsTile text ∧
          after.Reads text ∧ after.location = token.span.finish) := by
  obtain ⟨starts, lower, passed⟩ := rest_skipTrivia tab reads
  obtain ⟨spans, behind⟩ := Prod.mk.inj step
  rw [behind] at spans
  have start : (r.skipTrivia tab).location = token.span.start := by rw [← spans]
  have finish : after.location = token.span.finish := by rw [← spans]
  rw [start] at lower passed
  refine ⟨lower, passed, ?_⟩
  rcases recognize_spans starts rfl behind spans.symm with atEnd | ⟨wide, tile, reads⟩
  · exact .inl atEnd
  · exact .inr ⟨wide, tile, reads, finish⟩

/-- Reading goes on from tile to tile, as long as there is fuel for a token per character. -/
theorem tokens_tile (version : Version) (tab n : Nat) (reads : r.Reads text)
    (fuel : text.length < r.location.index + n) :
    TilesFrom text r.location.index (r.tokens version tab n) := by
  induction n generalizing r with
  | zero =>
    have := reads.bound
    omega
  | succ n ih =>
    obtain ⟨⟨token, after⟩, step⟩ : ∃ pair, r.next version tab = pair := ⟨_, rfl⟩
    obtain ⟨lower, passed, ⟨ends, start, finish⟩ | ⟨wide, tile, reads', place⟩⟩ :=
      next_tile reads step
    · rw [tokens, step]
      dsimp only
      rw [if_pos (by simp [Token.kind, ends, Lexeme.kind])]
      rw [start] at passed
      exact .finish ends start finish passed reads.bound
    · rw [tokens, step]
      dsimp only
      rw [if_neg tile.kind_ne]
      have rest := ih reads' (by rw [place]; omega)
      rw [place] at rest
      exact .token lower passed wide tile rest

theorem tokens_eq_of_fuel {version : Version} {tab m n : Nat} (reads : r.Reads text)
    (enough : text.length < r.location.index + m) (also : text.length < r.location.index + n) :
    r.tokens version tab m = r.tokens version tab n := by
  have bound := reads.bound
  induction m generalizing r n with
  | zero => omega
  | succ m ih =>
    obtain ⟨n, rfl⟩ : ∃ k, n = k + 1 := ⟨n - 1, by omega⟩
    obtain ⟨⟨token, after⟩, step⟩ : ∃ pair, r.next version tab = pair := ⟨_, rfl⟩
    obtain ⟨lower, -, ⟨ends, -, -⟩ | ⟨wide, tile, reads', place⟩⟩ := next_tile reads step
    · simp [tokens, step, Token.kind, ends, Lexeme.kind]
    · simp only [tokens, step, if_neg tile.kind_ne]
      rw [ih (n := n) reads' (by rw [place]; omega) (by rw [place]; omega) reads'.bound]

end Reader

namespace TilesFrom

variable {text : List Char} {k : Nat} {tokens : List Token}

theorem ne_nil (tiles : TilesFrom text k tokens) : tokens ≠ [] := by
  cases tiles <;> simp

theorem le_start (tiles : TilesFrom text k tokens) : ∀ t ∈ tokens, k ≤ t.span.start.index := by
  induction tiles with
  | finish _ start _ _ bound =>
    intro t member
    obtain rfl := List.mem_singleton.1 member
    omega
  | token lower _ wide _ _ ih =>
    intro t member
    rcases List.mem_cons.1 member with rfl | later
    · exact lower
    · have := ih t later
      omega

theorem ordered (tiles : TilesFrom text k tokens) :
    tokens.Pairwise fun a b => a.span.finish.index ≤ b.span.start.index := by
  induction tiles with
  | finish => exact List.pairwise_singleton _ _
  | token _ _ _ _ rest ih => exact List.pairwise_cons.2 ⟨rest.le_start, ih⟩

theorem ending (tiles : TilesFrom text k tokens) :
    ∃ t, tokens.getLast? = some t ∧ t.kind = .endOfStream ∧
      t.span.start.index = text.length ∧ t.span.finish.index = text.length := by
  induction tiles with
  | @finish _ t ends start finish =>
    exact ⟨t, rfl, by simp [Token.kind, ends, Lexeme.kind], start, finish⟩
  | token _ _ _ _ rest ih =>
    obtain ⟨t, last, facts⟩ := ih
    exact ⟨t, by rw [List.getLast?_cons, last]; rfl, facts⟩

theorem tile_of_mem_dropLast (tiles : TilesFrom text k tokens) :
    ∀ t ∈ tokens.dropLast, t.span.start.index < t.span.finish.index ∧ t.IsTile text := by
  induction tiles with
  | finish => simp
  | token _ _ wide tile rest ih =>
    intro t member
    rw [List.dropLast_cons_of_ne_nil rest.ne_nil] at member
    rcases List.mem_cons.1 member with rfl | later
    · exact ⟨wide, tile⟩
    · exact ih t later

theorem tile_of_mem (tiles : TilesFrom text k tokens) :
    ∀ t ∈ tokens, t.IsTile text ∨ t.lexeme = .endOfStream ∧ t.span.slice text = [] := by
  induction tiles with
  | finish ends start finish =>
    intro t member
    obtain rfl := List.mem_singleton.1 member
    exact .inr ⟨ends, by simp [Span.slice, start, finish]⟩
  | token _ _ _ tile _ ih =>
    intro t member
    rcases List.mem_cons.1 member with rfl | later
    · exact .inl tile
    · exact ih t later

theorem covers (tiles : TilesFrom text k tokens) {i : Nat} (lower : k ≤ i)
    (upper : i < text.length) :
    (∃ t ∈ tokens, t.span.start.index ≤ i ∧ i < t.span.finish.index) ∨ Passed text i := by
  induction tiles with
  | finish _ _ _ passed => exact .inr (passed i lower upper)
  | @token k t rest _ passed _ _ _ ih =>
    by_cases before : i < t.span.start.index
    · exact .inr (passed i lower before)
    · by_cases inside : i < t.span.finish.index
      · exact .inl ⟨t, List.mem_cons_self, by omega, inside⟩
      · rcases ih (by omega) with ⟨u, member, spans⟩ | passed
        · exact .inl ⟨u, List.mem_cons_of_mem t member, spans⟩
        · exact .inr passed

/-- Tokens that tile a text behind its byte order mark tile all of it. -/
theorem tiles (tiles : TilesFrom text k tokens)
    (marked : ∀ i, i < k → i = 0 ∧ text.head? = some Reader.byteOrderMark) : Tiles text tokens where
  wide t member := (tiles.tile_of_mem_dropLast t member).1
  ordered := tiles.ordered
  ending := tiles.ending
  endsOnce t member := (tiles.tile_of_mem_dropLast t member).2.kind_ne
  within t member solid := by
    rcases tiles.tile_of_mem t member with (⟨-, inside⟩ | ⟨isBreak, -⟩) | ⟨-, empty⟩
    · exact inside
    · exact absurd (by simp [Token.kind, isBreak, Lexeme.kind]) solid
    · simp [empty]
  breaks t member isBreak := by
    rcases tiles.tile_of_mem t member with (⟨proper, -⟩ | ⟨-, listed⟩) | ⟨ends, -⟩
    · exact absurd isBreak proper.kind_ne.2
    · exact listed
    · simp [Token.kind, ends, Lexeme.kind] at isBreak
  covers i inside := by
    by_cases early : i < k
    · exact .inr (.inl (marked i early))
    · rcases tiles.covers (Nat.le_of_not_lt early) inside with covered | passed
      · exact .inl covered
      · exact .inr (.inr passed)

end TilesFrom

theorem tokenize_tilesFrom (o : ScanOptions) (text : String) :
    TilesFrom text.toList (Reader.ofText o.effectiveTab text.toList).location.index
      (o.tokenize text) :=
  Reader.tokens_tile o.version o.effectiveTab _ (Reader.Reads.ofText _ _) (by omega)

namespace Scanner

/-- A scanner at the end of its log reads what its reader finds next. -/
theorem read_fresh {s : Scanner} {token : Token} {after : Reader} (atEnd : s.position = s.log.size)
    (incomplete : s.isComplete = false) (step : s.reader.next s.version s.tab = (token, after)) :
    s.read = (token,
      { s with
        reader := after
        log := s.log.push token
        position := if token.kind = .endOfStream then s.position else s.position + 1 }) := by
  have extended : s.reach s.position = { s with reader := after, log := s.log.push token } := by
    simp [reach, atEnd, extendBy, extend, incomplete, step]
  have found : tokenAt { s with reader := after, log := s.log.push token } s.position = token := by
    simp [tokenAt, atEnd]
  simp only [read, peek, extended, found]
  split <;> rfl

theorem readUntil_end (n : Nat) {s : Scanner} (atEnd : s.position = s.log.size)
    (incomplete : s.isComplete = false) :
    (s.readUntil (· == .endOfStream) n).1 = s.reader.tokens s.version s.tab n := by
  induction n generalizing s with
  | zero => rfl
  | succ n ih =>
    obtain ⟨⟨token, after⟩, step⟩ : ∃ pair, s.reader.next s.version s.tab = pair := ⟨_, rfl⟩
    by_cases ends : token.kind = .endOfStream
    · simp [readUntil, Reader.tokens, read_fresh atEnd incomplete step, step, ends]
    · have rest := ih (s := { s with reader := after, log := s.log.push token, position := s.position + 1 })
        (by simp [atEnd]) (by simp [isComplete, ends])
      simp [readUntil, Reader.tokens, read_fresh atEnd incomplete step, step, ends, rest]

/-- A fresh scanner reads the tokens of its text. -/
theorem readToEnd_ofText (o : ScanOptions) (text : String) :
    (ofText o text).readToEnd.1 = o.tokenize text := by
  have reads := Reader.Reads.ofText o.effectiveTab text.toList
  have length := reads.length_rest
  have bound := reads.bound
  rw [readToEnd, readUntil_end _ rfl rfl]
  refine Reader.tokens_eq_of_fuel reads ?_ ?_
  · simp only [Scanner.bound, ofText, length]
    simp
    omega
  · omega

end Scanner

/-- The tokens that a fresh scanner reads tile its text, whatever the tab width and the version. -/
theorem readToEnd_tiles (o : ScanOptions) (text : String) :
    Tiles text.toList (Scanner.ofText o text).readToEnd.1 := by
  rw [Scanner.readToEnd_ofText]
  exact (tokenize_tilesFrom o text).tiles fun _ early => Reader.marked_of_lt_ofText early

end VisualBasic
