import VisualBasic.Proofs.Scan.Tiling

/-!
The log of a scanner is a window on a fixed list.  Whatever is asked of a scanner, in whatever
order, the log followed by what the reader would still find is the list of tokens of the text, and
every answer is read off that list at the position.
-/

set_option autoImplicit false

namespace VisualBasic

/-- What a token says but for lines and columns, which depend on the tab width. -/
structure Imprint where
  lexeme : Lexeme
  start : Nat
  finish : Nat
deriving DecidableEq

def Imprint.kind (i : Imprint) : TokenKind := i.lexeme.kind

def Token.imprint (t : Token) : Imprint := ⟨t.lexeme, t.span.start.index, t.span.finish.index⟩

@[simp] theorem Token.kind_imprint (t : Token) : t.imprint.kind = t.kind := rfl

theorem Token.sameAs_iff (a b : Token) : a.sameAs b = true ↔ a.imprint = b.imprint := by
  simp [Token.sameAs, Token.imprint, Span.sameIndices, Location.sameIndex]

namespace Scanner

inductive Request where
  | peek | read | next | mark | previous | readLine | readToEnd
  | reset (mark : Nat)
  | seek (token : Token)
  | readBlock (count : Nat)
  | setTab (width : Nat)

inductive Answer where
  | token (t : Token)
  | tokens (ts : List Token)
  | place (mark : Nat)
  | ended
  | done
  | failed (e : ScanError)

/-- The scanner after a request that can fail. -/
def settle (s : Scanner) : Except ScanError Scanner → Answer × Scanner
  | .ok after => (.done, after)
  | .error e => (.failed e, s)

def perform (s : Scanner) : Request → Answer × Scanner
  | .peek => s.peek.map .token id
  | .read => s.read.map .token id
  | .next => s.next?.map (·.elim .ended .token) id
  | .mark => (.place s.position, s)
  | .previous =>
    match s.previous with
    | .ok t => (.token t, s)
    | .error e => (.failed e, s)
  | .readLine => s.readLine.map .tokens id
  | .readToEnd => s.readToEnd.map .tokens id
  | .reset mark => s.settle (s.reset mark)
  | .seek token => s.settle (s.seek token)
  | .readBlock count => (s.readBlock count).map .tokens id
  | .setTab width => s.settle (s.setTab width)

def after (s : Scanner) (requests : List Request) : Scanner :=
  requests.foldl (fun s q => (s.perform q).2) s

end Scanner

/-- The list up to the first element that satisfies the test, with it. -/
def through {α : Type} (stop : α → Bool) (l : List α) : List α := l.take (l.findIdx stop + 1)

theorem through_cons {α : Type} (stop : α → Bool) (a : α) (l : List α) :
    through stop (a :: l) = if stop a then [a] else a :: through stop l := by
  by_cases stops : stop a <;> simp [through, List.findIdx_cons, stops]

namespace Scanner

def endsStream (k : TokenKind) : Bool := k == .endOfStream

def endsLine (k : TokenKind) : Bool := k == .lineTerminator || k == .endOfStream

/-- The place in a list of tokens where a position reads: behind the end stands the end. -/
def seat (all : List Imprint) (position : Nat) : Nat := min position (all.length - 1)

/-- The position after as many tokens: the end of the stream is not passed. -/
def passing (all : List Imprint) (position count : Nat) : Nat :=
  max position (min (position + count) (all.length - 1))

/-- The log holds the first tokens of the list and the position stands in it. -/
structure Logs (s : Scanner) (all : List Imprint) : Prop where
  position : s.position ≤ s.log.size
  length : s.log.size ≤ all.length
  log : s.log.toList.map Token.imprint = all.take s.log.size

/-- The answer is one token, the one at a place of the list. -/
def Answer.IsToken (answer : Answer) (all : List Imprint) (place : Nat) : Prop :=
  ∃ t, answer = .token t ∧ all[place]? = some t.imprint

/-- The answer is a list of tokens, and the position passes them. -/
def Answer.IsSlice (answer : Answer) (slice all : List Imprint) (s s' : Scanner) : Prop :=
  ∃ ts, answer = .tokens ts ∧ ts.map Token.imprint = slice ∧
    s'.position = passing all s.position ts.length

/-- The place holds a token that has been read or is the next one. -/
def Behind (s : Scanner) (all : List Imprint) (t : Token) (place : Nat) : Prop :=
  place ≤ s.position ∧ place < s.log.size ∧ all[place]? = some t.imprint

/-- What a scanner does with a request, said of the list of all tokens. -/
def Serves (s : Scanner) (all : List Imprint) (answer : Answer) (s' : Scanner) : Request → Prop
  | .peek => answer.IsToken all (seat all s.position) ∧ s'.position = s.position
  | .read => answer.IsToken all (seat all s.position) ∧
      s'.position = if all[seat all s.position]?.any (endsStream ·.kind) then s.position
        else s.position + 1
  | .next => (answer = .ended ↔ s.position = all.length) ∧
      if s.position = all.length then s' = s
      else answer.IsToken all s.position ∧ s'.position = s.position + 1
  | .mark => answer = .place s.position ∧ s' = s
  | .previous => s' = s ∧
      if s.position = 0 then answer = .failed .noPreviousToken
      else s.position - 1 < s.log.size ∧ answer.IsToken all (s.position - 1)
  | .reset mark =>
      if mark ≤ s.log.size then answer = .done ∧ s' = { s with position := mark }
      else answer = .failed (.invalidMark mark s.log.size) ∧ s' = s
  | .seek t =>
      (∃ place, s.Behind all t place ∧ (∀ other, s.Behind all t other → other ≤ place) ∧
          answer = .done ∧ s' = { s with position := place }) ∨
        (∀ place, ¬ s.Behind all t place) ∧ answer = .failed (.unknownToken t.span) ∧ s' = s
  | .readBlock count => answer.IsSlice ((all.drop (seat all s.position)).take count) all s s'
  | .readLine =>
      answer.IsSlice (through (endsLine ·.kind) (all.drop (seat all s.position))) all s s'
  | .readToEnd => answer.IsSlice (all.drop (seat all s.position)) all s s'
  | .setTab width =>
      if width < 1 then answer = .failed (.invalidTabWidth width) ∧ s' = s
      else answer = .done ∧ s' = { s with tab := width }

end Scanner

-- Tab widths change no imprint

namespace Reader

/-- Readers that stand at the same place of a text. -/
def SamePlace (r r' : Reader) : Prop := r.rest = r'.rest ∧ r.location.index = r'.location.index

theorem SamePlace.skip {r r' : Reader} (same : r.SamePlace r') (tab tab' n : Nat) :
    (r.skip tab n).SamePlace (r'.skip tab' n) := by
  induction n generalizing r r' with
  | zero => exact same
  | succ n ih =>
    rcases r with ⟨rest, location⟩
    rcases r' with ⟨rest', location'⟩
    obtain ⟨rfl, index⟩ : rest = rest' ∧ location.index = location'.index := same
    cases rest with
    | nil => exact ⟨rfl, index⟩
    | cons c rest =>
      apply ih
      constructor
      · rfl
      · rw [index_advance, index_advance, index]

theorem SamePlace.next {r r' : Reader} (same : r.SamePlace r') (version : Version)
    (tab tab' : Nat) :
    (r.next version tab).1.imprint = (r'.next version tab').1.imprint ∧
      (r.next version tab).2.SamePlace (r'.next version tab').2 := by
  have starts : (r.skipTrivia tab).SamePlace (r'.skipTrivia tab') := by
    unfold skipTrivia
    rw [same.1]
    exact same.skip tab tab' _
  have behind := starts.skip tab tab' (Scan.recognize version (r'.skipTrivia tab').rest).length
  simp only [Reader.next, Token.imprint, starts.1]
  exact ⟨by rw [starts.2, behind.2], behind⟩

theorem SamePlace.tokens {r r' : Reader} (same : r.SamePlace r') (version : Version)
    (tab tab' n : Nat) :
    (r.tokens version tab n).map Token.imprint = (r'.tokens version tab' n).map Token.imprint := by
  induction n generalizing r r' with
  | zero => rfl
  | succ n ih =>
    obtain ⟨imprint, behind⟩ := same.next version tab tab'
    have kind : (r.next version tab).1.kind = (r'.next version tab').1.kind :=
      congrArg Imprint.kind imprint
    simp only [Reader.tokens, kind]
    split
    · simp [imprint]
    · simp [imprint, ih behind]

theorem length_tokens_le (version : Version) (tab n : Nat) (r : Reader) :
    (r.tokens version tab n).length ≤ n := by
  induction n generalizing r with
  | zero => simp [Reader.tokens]
  | succ n ih =>
    simp only [Reader.tokens]
    split
    · simp
    · simpa using ih _

end Reader

namespace Scanner

/-- The tokens that the reader would still find. -/
def pending (s : Scanner) : List Token :=
  if s.isComplete then [] else s.reader.tokens s.version s.tab (s.reader.rest.length + 1)

/-- All tokens of the text as far as they can be known from the scanner.  No request changes
them. -/
def all (s : Scanner) : List Imprint := (s.log.toList ++ s.pending).map Token.imprint

/-- The same tokens with their lines and columns. -/
def stream (s : Scanner) : List Token := s.log.toList ++ s.pending

/-- A scanner with a list of tokens to give: the reader stands in the text, and only the last
token of the list is the end of the stream. -/
structure Sound (s : Scanner) (text : List Char) : Prop where
  reads : s.isComplete = false → s.reader.Reads text
  position : s.position ≤ s.log.size
  ending : ∀ place t, s.all[place]? = some t →
    (t.kind = .endOfStream ↔ place + 1 = s.all.length)
  nonempty : s.all ≠ []

theorem all_eq_map (s : Scanner) : s.all = s.stream.map Token.imprint := rfl

theorem log_eq_take (s : Scanner) : s.log.toList.map Token.imprint = s.all.take s.log.size := by
  simp [all]

theorem size_le (s : Scanner) : s.log.size ≤ s.all.length := by simp [all]

theorem getElem?_all {s : Scanner} {place : Nat} (logged : place < s.log.size) :
    s.all[place]? = (s.log[place]?).map Token.imprint := by
  simp [all, List.getElem?_append_left, logged]

theorem pending_ne_nil {s : Scanner} (incomplete : s.isComplete = false) : s.pending ≠ [] := by
  rw [pending, if_neg (by simp [incomplete]), Reader.tokens]
  dsimp only
  split <;> simp

theorem isComplete_iff (s : Scanner) : s.isComplete = true ↔ s.log.size = s.all.length := by
  cases complete : s.isComplete with
  | true => simp [all, pending, complete]
  | false => simpa [all] using pending_ne_nil complete

/-- One more token in the log is one fewer to come. -/
theorem pending_extend {s : Scanner} {text : List Char} {token : Token} {after : Reader}
    (reads : s.reader.Reads text) (incomplete : s.isComplete = false)
    (step : s.reader.next s.version s.tab = (token, after)) :
    s.extend = { s with reader := after, log := s.log.push token } ∧
      s.pending = token :: s.extend.pending ∧
      (s.extend.isComplete = false → s.extend.reader.Reads text) := by
  have extended : s.extend = { s with reader := after, log := s.log.push token } := by
    simp [extend, incomplete, step]
  have completes : isComplete { s with reader := after, log := s.log.push token } =
      (token.kind == .endOfStream) := by simp [isComplete]
  obtain ⟨-, -, ⟨ends, -, -⟩ | ⟨wide, tile, reads', place⟩⟩ := Reader.next_tile reads step
  · have kind : token.kind = .endOfStream := by simp [Token.kind, ends, Lexeme.kind]
    simp [completes, extended, pending, incomplete, Reader.tokens, step, kind]
  · have length := reads.length_rest
    have length' := reads'.length_rest
    have bound := reads.bound
    have bound' := reads'.bound
    have lower := (Reader.next_tile reads step).1
    have fuel : after.tokens s.version s.tab s.reader.rest.length =
        after.tokens s.version s.tab (after.rest.length + 1) := by
      apply Reader.tokens_eq_of_fuel reads' <;> rw [place] at * <;> omega
    simp [completes, extended, pending, incomplete, Reader.tokens, step, tile.kind_ne, fuel, reads']

namespace Sound

variable {s : Scanner} {text : List Char}

theorem stream_extend (sound : s.Sound text) : s.extend.stream = s.stream := by
  by_cases complete : s.isComplete
  · rw [Scanner.extend, if_pos complete]
  · obtain ⟨⟨token, after⟩, step⟩ : ∃ pair, s.reader.next s.version s.tab = pair := ⟨_, rfl⟩
    have incomplete := Bool.of_not_eq_true complete
    obtain ⟨extended, fewer, -⟩ := pending_extend (sound.reads incomplete) incomplete step
    simp only [stream, fewer]
    simp [extended]

theorem all_extend (sound : s.Sound text) : s.extend.all = s.all :=
  congrArg (List.map Token.imprint) sound.stream_extend

theorem extend (sound : s.Sound text) : s.extend.Sound text := by
  have same := sound.all_extend
  by_cases complete : s.isComplete
  · rwa [Scanner.extend, if_pos complete]
  · obtain ⟨⟨token, after⟩, step⟩ : ∃ pair, s.reader.next s.version s.tab = pair := ⟨_, rfl⟩
    have incomplete := Bool.of_not_eq_true complete
    obtain ⟨extended, -, reads⟩ := pending_extend (sound.reads incomplete) incomplete step
    have position := sound.position
    constructor
    · exact reads
    · rw [extended]
      simp only [Array.size_push]
      omega
    · rw [same]
      exact sound.ending
    · rw [same]
      exact sound.nonempty

end Sound

theorem size_extend (s : Scanner) : s.extend.log.size = min (s.log.size + 1) s.all.length := by
  have complete_iff := s.isComplete_iff
  have size := s.size_le
  by_cases complete : s.isComplete
  · rw [extend, if_pos complete]
    rw [complete_iff] at complete
    omega
  · simp only [extend, if_neg complete, Array.size_push]
    rw [complete_iff] at complete
    omega

@[simp] theorem position_extend (s : Scanner) : s.extend.position = s.position := by
  unfold extend
  split <;> rfl

namespace Sound

variable {s : Scanner} {text : List Char}

theorem extendBy (sound : s.Sound text) (n : Nat) :
    (s.extendBy n).Sound text ∧ (s.extendBy n).all = s.all ∧
      (s.extendBy n).position = s.position ∧
      (s.extendBy n).log.size = min (s.log.size + n) s.all.length := by
  induction n generalizing s with
  | zero =>
    have size := s.size_le
    exact ⟨sound, rfl, rfl, by simp only [Scanner.extendBy]; omega⟩
  | succ n ih =>
    obtain ⟨later, same, position, size⟩ := ih sound.extend
    rw [sound.all_extend] at same size
    rw [position_extend] at position
    rw [size_extend] at size
    exact ⟨later, same, position, by simp only [Scanner.extendBy]; omega⟩

theorem reach (sound : s.Sound text) (place : Nat) :
    (s.reach place).Sound text ∧ (s.reach place).all = s.all ∧
      (s.reach place).position = s.position ∧
      (s.reach place).log.size = max s.log.size (min (place + 1) s.all.length) := by
  obtain ⟨later, same, position, size⟩ := sound.extendBy (place + 1 - s.log.size)
  have bound := s.size_le
  exact ⟨later, same, position, by unfold Scanner.reach; omega⟩

theorem stream_extendBy (sound : s.Sound text) (n : Nat) : (s.extendBy n).stream = s.stream := by
  induction n generalizing s with
  | zero => rfl
  | succ n ih => exact (ih sound.extend).trans sound.stream_extend

theorem length_pos (sound : s.Sound text) : 0 < s.all.length :=
  List.length_pos_iff.2 sound.nonempty

theorem kind_seat (sound : s.Sound text) {place : Nat} {t : Token}
    (found : s.all[seat s.all place]? = some t.imprint) :
    t.kind = .endOfStream ↔ s.all.length ≤ place + 1 := by
  have ends := sound.ending _ _ found
  have positive := sound.length_pos
  rw [Token.kind_imprint] at ends
  rw [ends, seat]
  omega

end Sound

theorem getElem?_stream {s : Scanner} {place : Nat} (logged : place < s.log.size) :
    s.stream[place]? = s.log[place]? := by
  simp [stream, List.getElem?_append_left, logged]

theorem stream_tokenAt {s : Scanner} {place : Nat} (logged : seat s.all place < s.log.size) :
    s.stream[seat s.all place]? = some (s.tokenAt place) := by
  have bound := s.size_le
  rw [getElem?_stream logged]
  by_cases inside : place < s.log.size
  · have here : seat s.all place = place := by unfold seat; omega
    simp [here, tokenAt, inside]
  · -- behind the end, and the log is complete
    have last : seat s.all place = s.log.size - 1 := by unfold seat at logged ⊢; omega
    have behind : s.log.size - 1 < s.log.size := by omega
    simp [last, tokenAt, inside, Array.back?, behind]

namespace Sound

variable {s : Scanner} {text : List Char}

theorem stream_peek (sound : s.Sound text) :
    s.stream[seat s.all s.position]? = some s.peek.1 ∧ s.peek.2.stream = s.stream := by
  obtain ⟨-, same, position, size⟩ := sound.reach s.position
  have stream : (s.reach s.position).stream = s.stream := sound.stream_extendBy _
  have positive := sound.length_pos
  have logged : seat (s.reach s.position).all (s.reach s.position).position <
      (s.reach s.position).log.size := by
    rw [same, size, position]
    unfold seat
    omega
  have found := stream_tokenAt logged
  rw [stream, same, position] at found
  refine ⟨?_, stream⟩
  simp only [Scanner.peek, position]
  exact found

theorem peek (sound : s.Sound text) :
    s.all[seat s.all s.position]? = some s.peek.1.imprint ∧ s.peek.2.Sound text ∧
      s.peek.2.all = s.all ∧ s.peek.2.position = s.position ∧
      s.peek.2.log.size = max s.log.size (min (s.position + 1) s.all.length) := by
  obtain ⟨later, same, position, size⟩ := sound.reach s.position
  refine ⟨?_, later, same, position, size⟩
  rw [all_eq_map, List.getElem?_map, ← all_eq_map, sound.stream_peek.1, Option.map_some]

/-- A position in the log is as good as any other. -/
theorem move (sound : s.Sound text) {place : Nat} (logged : place ≤ s.log.size) :
    Sound { s with position := place } text :=
  ⟨sound.reads, logged, sound.ending, sound.nonempty⟩

theorem read (sound : s.Sound text) :
    s.all[seat s.all s.position]? = some s.read.1.imprint ∧ s.read.2.Sound text ∧
      s.read.2.all = s.all ∧ s.log.size ≤ s.read.2.log.size ∧
      s.read.2.position = if s.all.length ≤ s.position + 1 then s.position else s.position + 1 := by
  obtain ⟨found, later, same, position, size⟩ := sound.peek
  have ends := sound.kind_seat found
  unfold Scanner.read
  dsimp only
  by_cases last : s.all.length ≤ s.position + 1
  · rw [if_pos (ends.2 last), if_pos last]
    exact ⟨found, later, same, by omega, position⟩
  · rw [if_neg (mt ends.1 last), if_neg last]
    exact ⟨found, later.move (by omega), same, by simp only; omega, by simp only; omega⟩

theorem stream_read (sound : s.Sound text) :
    s.stream[seat s.all s.position]? = some s.read.1 ∧ s.read.2.stream = s.stream := by
  obtain ⟨found, same⟩ := sound.stream_peek
  refine ⟨found, ?_⟩
  unfold Scanner.read
  dsimp only
  split <;> exact same

/-- Reading up to a token of some kinds, which the end of the stream is one of. -/
theorem readUntil (sound : s.Sound text) (stop : TokenKind → Bool)
    (stops : stop .endOfStream = true) (n : Nat) :
    (s.readUntil stop n).1.map Token.imprint =
        (through (stop ·.kind) (s.all.drop (seat s.all s.position))).take n ∧
      (s.readUntil stop n).2.Sound text ∧ (s.readUntil stop n).2.all = s.all ∧
      s.log.size ≤ (s.readUntil stop n).2.log.size ∧
      (s.readUntil stop n).2.position =
        passing s.all s.position (s.readUntil stop n).1.length := by
  induction n generalizing s with
  | zero =>
    refine ⟨rfl, sound, rfl, Nat.le_refl _, ?_⟩
    simp only [Scanner.readUntil, List.length_nil, passing]
    omega
  | succ n ih =>
    obtain ⟨found, later, same, grows, position⟩ := sound.read
    have ends := sound.kind_seat found
    have positive := sound.length_pos
    obtain ⟨bound, here⟩ := List.getElem?_eq_some_iff.1 found
    have front := List.drop_eq_getElem_cons bound
    rw [here] at front
    simp only [Scanner.readUntil]
    rw [front, through_cons, Token.kind_imprint]
    by_cases stop' : stop s.read.1.kind
    · rw [if_pos stop', if_pos stop']
      refine ⟨by simp, later, same, grows, ?_⟩
      simp only [position, List.length_singleton, passing]
      split <;> omega
    · -- the token is not the last one, so the position has moved on by one
      have inside : s.position + 1 < s.all.length := by
        by_contra outside
        have last := ends.2 (Nat.le_of_not_lt outside)
        exact stop' (by rw [last]; exact stops)
      rw [if_neg (Nat.not_le_of_lt inside)] at position
      obtain ⟨rest, sound', same', grows', position'⟩ := ih later
      have seated : seat s.all s.position + 1 = seat s.all (s.position + 1) := by unfold seat; omega
      rw [same, position] at rest position'
      rw [if_neg stop', if_neg stop']
      refine ⟨?_, sound', same'.trans same, grows.trans grows', ?_⟩
      · rw [seated, List.map_cons, rest, List.take_succ_cons]
      · simp only [position', passing, List.length_cons]
        omega

end Sound

theorem length_all_le_bound (s : Scanner) : s.all.length ≤ s.bound := by
  have length := Reader.length_tokens_le s.version s.tab (s.reader.rest.length + 1) s.reader
  unfold all pending bound
  split
  · simp only [List.append_nil, List.length_map, Array.length_toList]
    omega
  · simp only [List.map_append, List.length_append, List.length_map, Array.length_toList]
    omega

end Scanner

theorem through_eq_self {α : Type} {stop : α → Bool} {l : List α}
    (goes : ∀ a ∈ l.dropLast, stop a = false) : through stop l = l := by
  induction l with
  | nil => rfl
  | cons a l ih =>
    rw [through_cons]
    cases l with
    | nil => simp [through]
    | cons b l =>
      have on : stop a = false := goes a (by simp)
      rw [ih fun c member => goes c (by simp [member])]
      simp [on]

namespace Scanner

namespace Sound

variable {s : Scanner} {text : List Char}

theorem through_drop (sound : s.Sound text) (k : Nat) :
    through (endsStream ·.kind) (s.all.drop k) = s.all.drop k := by
  apply through_eq_self
  intro t member
  obtain ⟨i, inside, here⟩ := List.mem_iff_getElem.1 member
  simp only [List.length_dropLast, List.length_drop] at inside
  have found : s.all[k + i]? = some t := by
    rw [← here, List.getElem_dropLast, List.getElem_drop]
    simp
  have ends := sound.ending _ _ found
  simp only [endsStream, beq_eq_false_iff_ne, ne_eq, ends]
  omega

theorem next? (sound : s.Sound text) :
    (s.position = s.all.length ∧ s.next? = (none, s)) ∨
      ∃ t s', s.next? = (some t, s') ∧ s.position < s.all.length ∧
        s.all[s.position]? = some t.imprint ∧ s'.position = s.position + 1 ∧ s'.Sound text ∧
        s'.all = s.all ∧ s.log.size ≤ s'.log.size := by
  have bound := s.size_le
  have position := sound.position
  have positive := sound.length_pos
  -- the log says that the stream has ended exactly when the position stands behind all tokens
  have ended : (s.position != 0 && s.log[s.position - 1]?.any fun t => t.kind == .endOfStream) =
      decide (s.position = s.all.length) := by
    by_cases first : s.position = 0
    · simp [first]
      omega
    · have logged : s.position - 1 < s.log.size := by omega
      have found := getElem?_all logged
      simp only [Array.getElem?_eq_getElem logged, Option.map_some] at found
      have ends := sound.ending _ _ found
      rw [Token.kind_imprint] at ends
      rw [Bool.eq_iff_iff]
      simp only [Array.getElem?_eq_getElem logged, Option.any_some, Bool.and_eq_true, bne_iff_ne,
        beq_iff_eq, decide_eq_true_eq, ends]
      omega
  unfold Scanner.next?
  rw [ended]
  by_cases last : s.position = s.all.length
  · left
    simp [last]
  · right
    obtain ⟨found, later, same, position', size⟩ := sound.peek
    have seated : seat s.all s.position = s.position := by unfold seat; omega
    rw [seated] at found
    have inside : s.position < s.all.length := by omega
    refine ⟨s.peek.1, { s.peek.2 with position := s.peek.2.position + 1 }, by simp [last], inside,
      found, by simp [position'], later.move (by omega), same, by simp only; omega⟩

theorem setTab (sound : s.Sound text) (width : Nat) :
    all { s with tab := width } = s.all ∧ Sound { s with tab := width } text := by
  have still : all { s with tab := width } = s.all := by
    have tokens := Reader.SamePlace.tokens (r := s.reader) ⟨rfl, rfl⟩ s.version width s.tab
      (s.reader.rest.length + 1)
    have completes : isComplete { s with tab := width } = s.isComplete := rfl
    simp only [all, pending, completes, List.map_append]
    split <;> simp [tokens]
  refine ⟨still, sound.reads, sound.position, ?_, ?_⟩
  · rw [still]
    exact sound.ending
  · rw [still]
    exact sound.nonempty

end Sound

theorem lastPlace?_some {log : List Token} {t : Token} {place : Nat}
    (found : lastPlace? log t = some place) :
    (log.map Token.imprint)[place]? = some t.imprint ∧
      ∀ other, (log.map Token.imprint)[other]? = some t.imprint → other ≤ place := by
  obtain ⟨i, first, rfl⟩ := Option.map_eq_some_iff.1 found
  obtain ⟨inside, same, before⟩ := List.findIdx?_eq_some_iff_getElem.1 first
  rw [List.length_reverse] at inside
  rw [List.getElem_reverse, Token.sameAs_iff] at same
  constructor
  · simp only [List.getElem?_map, Option.map_eq_some_iff]
    exact ⟨_, List.getElem?_eq_getElem (by omega), same⟩
  · intro other here
    by_contra later
    obtain ⟨u, at_other, same'⟩ := Option.map_eq_some_iff.1 ((List.getElem?_map ..).symm.trans here)
    obtain ⟨bound, rfl⟩ := List.getElem?_eq_some_iff.1 at_other
    have earlier : log.length - 1 - other < i := by omega
    apply before _ earlier
    rw [List.getElem_reverse, Token.sameAs_iff, ← same']
    congr 2
    omega

theorem lastPlace?_none {log : List Token} {t : Token} (found : lastPlace? log t = none)
    (place : Nat) : (log.map Token.imprint)[place]? ≠ some t.imprint := by
  intro here
  obtain ⟨u, at_place, same⟩ := Option.map_eq_some_iff.1 ((List.getElem?_map ..).symm.trans here)
  have absent := List.findIdx?_eq_none_iff.1 (Option.map_eq_none_iff.1 found) u
    (List.mem_reverse.2 (List.mem_of_getElem? at_place))
  rw [(Token.sameAs_iff u t).2 same] at absent
  contradiction

/-- The places where a token is looked for are those that have been passed and the next one. -/
theorem behind_iff {s : Scanner} (t : Token) (place : Nat) :
    s.Behind s.all t place ↔
      ((s.log.toList.take (min s.position (s.log.size - 1) + 1)).map Token.imprint)[place]? =
        some t.imprint := by
  rw [List.map_take, log_eq_take, List.take_take, List.getElem?_take, Behind]
  have bound := s.size_le
  by_cases inside : place ≤ s.position ∧ place < s.log.size
  · rw [if_pos (by omega)]
    exact ⟨fun h => h.2.2, fun h => ⟨inside.1, inside.2, h⟩⟩
  · rw [if_neg (by omega)]
    exact ⟨fun h => absurd ⟨h.1, h.2.1⟩ inside, fun h => by contradiction⟩

/-- What one request does: the list of all tokens stays, the log only grows, and the answer is
read off the list. -/
theorem Sound.perform {s : Scanner} {text : List Char} (sound : s.Sound text) (q : Request) :
    (s.perform q).2.Sound text ∧ (s.perform q).2.all = s.all ∧
      s.log.size ≤ (s.perform q).2.log.size ∧
      s.Serves s.all (s.perform q).1 (s.perform q).2 q ∧
      ∀ e, (s.perform q).1 = .failed e → (s.perform q).2 = s := by
  have bound := s.size_le
  have inLog := sound.position
  cases q with
  | peek =>
    obtain ⟨found, later, same, position, size⟩ := sound.peek
    refine ⟨later, same, ?_, ⟨⟨_, rfl, found⟩, position⟩, by simp [Scanner.perform]⟩
    simp only [Scanner.perform, Prod.map, id]
    omega
  | read =>
    obtain ⟨found, later, same, grows, position⟩ := sound.read
    have ends := sound.kind_seat found
    refine ⟨later, same, grows, ⟨⟨_, rfl, found⟩, ?_⟩, by simp [Scanner.perform]⟩
    simp only [Scanner.perform, Prod.map, id, found, Option.any_some, endsStream,
      Token.kind_imprint, beq_iff_eq, ends, position]
  | next =>
    rcases sound.next? with ⟨last, step⟩ | ⟨t, s', step, inside, found, position, later, same, grows⟩
    · simp [Scanner.perform, step, sound, Serves, last]
    · have before : s.position ≠ s.all.length := by omega
      simp [Scanner.perform, step, later, same, grows, Serves, before, position, Answer.IsToken,
        found]
  | mark => exact ⟨sound, rfl, Nat.le_refl _, ⟨rfl, rfl⟩, by simp [Scanner.perform]⟩
  | previous =>
    simp only [Scanner.perform, Scanner.previous]
    cases place : s.position with
    | zero => simp [sound, Serves, place]
    | succ n =>
      have logged : n < s.log.size := by omega
      have found := getElem?_all logged
      simp only [Array.getElem?_eq_getElem logged, Option.map_some] at found
      simp [sound, Serves, place, logged, Answer.IsToken, found, tokenAt]
  | reset mark =>
    by_cases valid : mark ≤ s.log.size
    · have before : ¬ s.log.size < mark := by omega
      have still : all { s with position := mark } = s.all := rfl
      simp [Scanner.perform, Scanner.reset, settle, Serves, valid, before, still, sound.move valid]
    · have beyond : s.log.size < mark := by omega
      simp [Scanner.perform, Scanner.reset, settle, Serves, valid, beyond, sound]
  | seek t =>
    have spots := behind_iff (s := s) t
    simp only [Scanner.perform, Scanner.seek]
    cases found : lastPlace? (s.log.toList.take (min s.position (s.log.size - 1) + 1)) t with
    | none =>
      refine ⟨sound, rfl, Nat.le_refl _, .inr ⟨?_, rfl, rfl⟩, fun _ _ => rfl⟩
      intro place behind
      exact lastPlace?_none found place ((spots place).1 behind)
    | some place =>
      obtain ⟨here, last⟩ := lastPlace?_some found
      have behind := (spots place).2 here
      have logged := behind.2.1
      refine ⟨sound.move (Nat.le_of_lt logged), rfl, Nat.le_refl _,
        .inl ⟨place, behind, ?_, rfl, rfl⟩, by simp [settle]⟩
      intro other also
      exact last other ((spots other).1 also)
  | readBlock count =>
    obtain ⟨slice, later, same, grows, position⟩ := sound.readUntil endsStream rfl count
    rw [sound.through_drop] at slice
    exact ⟨later, same, grows, ⟨_, rfl, slice, position⟩, by simp [Scanner.perform]⟩
  | readLine =>
    obtain ⟨slice, later, same, grows, position⟩ := sound.readUntil endsLine rfl s.bound
    rw [List.take_of_length_le] at slice
    · exact ⟨later, same, grows, ⟨_, rfl, slice, position⟩, by simp [Scanner.perform]⟩
    · have enough := s.length_all_le_bound
      simp only [through, List.length_take, List.length_drop]
      omega
  | readToEnd =>
    obtain ⟨slice, later, same, grows, position⟩ := sound.readUntil endsStream rfl s.bound
    rw [sound.through_drop, List.take_of_length_le] at slice
    · exact ⟨later, same, grows, ⟨_, rfl, slice, position⟩, by simp [Scanner.perform]⟩
    · have enough := s.length_all_le_bound
      rw [List.length_drop]
      omega
  | setTab width =>
    obtain ⟨still, later⟩ := sound.setTab width
    by_cases narrow : width < 1
    · simp [Scanner.perform, Scanner.setTab, settle, Serves, narrow, sound]
    · simp [Scanner.perform, Scanner.setTab, settle, Serves, narrow, still, later]

theorem Sound.after {s : Scanner} {text : List Char} (sound : s.Sound text)
    (requests : List Request) :
    (s.after requests).Sound text ∧ (s.after requests).all = s.all ∧
      s.log.size ≤ (s.after requests).log.size := by
  induction requests generalizing s with
  | nil => exact ⟨sound, rfl, Nat.le_refl _⟩
  | cons q rest ih =>
    obtain ⟨later, same, grows, -, -⟩ := sound.perform q
    obtain ⟨later', same', grows'⟩ := ih later
    exact ⟨later', same'.trans same, grows.trans grows'⟩

theorem all_ofText (o : ScanOptions) (text : String) :
    (ofText o text).all = (ofText o text).readToEnd.1.map Token.imprint := by
  rw [readToEnd_ofText]
  have reads := Reader.Reads.ofText o.effectiveTab text.toList
  have length := reads.length_rest
  have bound := reads.bound
  have fuel : (Reader.ofText o.effectiveTab text.toList).tokens o.version o.effectiveTab
      ((Reader.ofText o.effectiveTab text.toList).rest.length + 1) = o.tokenize text :=
    Reader.tokens_eq_of_fuel reads (by omega) (by omega)
  simp only [all, pending, ofText, isComplete]
  simp [fuel]

theorem Sound.ofText (o : ScanOptions) (text : String) :
    (Scanner.ofText o text).Sound text.toList := by
  have tiles := readToEnd_tiles o text
  obtain ⟨last, isLast, ends, -⟩ := tiles.ending
  constructor
  · intro _
    exact Reader.Reads.ofText o.effectiveTab text.toList
  · exact Nat.le_refl 0
  · rw [all_ofText]
    intro place t found
    rw [List.getElem?_map, Option.map_eq_some_iff] at found
    obtain ⟨u, here, rfl⟩ := found
    obtain ⟨inside, rfl⟩ := List.getElem?_eq_some_iff.1 here
    rw [List.length_map, Token.kind_imprint]
    by_cases isLastPlace : place + 1 = (Scanner.ofText o text).readToEnd.1.length
    · rw [List.getLast?_eq_getElem?, ← isLastPlace, Nat.add_sub_cancel, here] at isLast
      obtain rfl := Option.some.inj isLast
      exact ⟨fun _ => isLastPlace, fun _ => ends⟩
    · have member : (Scanner.ofText o text).readToEnd.1[place] ∈
          (Scanner.ofText o text).readToEnd.1.dropLast := by
        rw [List.mem_iff_getElem]
        exact ⟨place, by rw [List.length_dropLast]; omega, List.getElem_dropLast _⟩
      exact ⟨fun isEnd => absurd isEnd (tiles.endsOnce _ member), fun also => absurd also isLastPlace⟩
  · rw [all_ofText]
    intro empty
    rw [List.map_eq_nil_iff] at empty
    simp [empty] at isLast

end Scanner

/-- Let `T` be the tokens of a text but for lines and columns.  After any requests the log of the
scanner is a first part of `T` with the position in it; whatever is asked next is answered from
`T`, and a request that fails changes nothing.  A mark stays good for all time. -/
theorem log_refines_tokens (o : ScanOptions) (text : String) (before later : List Scanner.Request)
    (q : Scanner.Request) :
    let T := (Scanner.ofText o text).readToEnd.1.map Token.imprint
    let s := (Scanner.ofText o text).after before
    let (answer, s') := s.perform q
    s.Logs T ∧ s.Serves T answer s' q ∧ (∀ e, answer = .failed e → s' = s) ∧
      ((s.after later).perform (.reset s.position)).1 = .done := by
  intro T s
  obtain ⟨sound, same, -⟩ := (Scanner.Sound.ofText o text).after before
  obtain ⟨-, -, -, serves, fails⟩ := sound.perform q
  obtain ⟨-, -, grows⟩ := sound.after later
  have all : s.all = T := same.trans (Scanner.all_ofText o text)
  have position := sound.position
  refine ⟨⟨position, ?_, ?_⟩, ?_, fails, ?_⟩
  · rw [← all]
    exact s.size_le
  · rw [← all]
    exact s.log_eq_take
  · rw [← all]
    exact serves
  · have valid : ¬ (s.after later).log.size < s.position := Nat.not_lt.2 (position.trans grows)
    simp [Scanner.perform, Scanner.reset, valid, Scanner.settle]

end VisualBasic
