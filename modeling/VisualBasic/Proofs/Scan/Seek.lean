import Mathlib.Data.List.Nodup
import VisualBasic.Proofs.Scan.Log

/-!
Going back to a token.  The tokens of a text all start at different places, so a token that has
been read or is the next one stands at one place of the log only; a scanner that goes back there
reads on as it did before.
-/

set_option autoImplicit false

namespace VisualBasic

/-- All tokens but the last one are wide, so each one starts behind the one before. -/
theorem Tiles.starts_ascend {text : List Char} {tokens : List Token} (tiles : Tiles text tokens) :
    (tokens.map Token.imprint).Pairwise fun a b => a.start < b.start := by
  rw [List.pairwise_map, List.pairwise_iff_getElem]
  intro i j hi hj before
  have notLast : tokens[i] ∈ tokens.dropLast := by
    rw [List.mem_iff_getElem]
    exact ⟨i, by rw [List.length_dropLast]; omega, List.getElem_dropLast _⟩
  have wide := tiles.wide _ notLast
  have ordered := List.pairwise_iff_getElem.1 tiles.ordered i j hi hj before
  exact Nat.lt_of_lt_of_le wide ordered

theorem Tiles.nodup {text : List Char} {tokens : List Token} (tiles : Tiles text tokens) :
    (tokens.map Token.imprint).Nodup := by
  refine tiles.starts_ascend.imp fun lower same => ?_
  rw [same] at lower
  exact Nat.lt_irrefl _ lower

namespace Scanner

/-- The place of the log is not behind the position and has this token. -/
def Holds (s : Scanner) (t : Token) (place : Nat) : Prop :=
  place ≤ s.position ∧ ∃ logged, s.log[place]? = some logged ∧ logged.sameAs t = true

/-- One token after the other, as many as the number says. -/
def readTimes : Nat → Scanner → List Token × Scanner
  | 0, s => ([], s)
  | n + 1, s =>
    let (token, s) := s.read
    let (rest, s) := readTimes n s
    (token :: rest, s)

theorem holds_iff_behind {s : Scanner} (t : Token) (place : Nat) :
    s.Holds t place ↔ s.Behind s.all t place := by
  constructor
  · rintro ⟨passed, logged, found, same⟩
    obtain ⟨inside, -⟩ := Array.getElem?_eq_some_iff.1 found
    refine ⟨passed, inside, ?_⟩
    rw [getElem?_all inside, found, Option.map_some, (Token.sameAs_iff logged t).1 same]
  · rintro ⟨passed, inside, found⟩
    rw [getElem?_all inside, Array.getElem?_eq_getElem inside, Option.map_some,
      Option.some.injEq] at found
    exact ⟨passed, s.log[place], Array.getElem?_eq_getElem inside,
      (Token.sameAs_iff _ t).2 found⟩

theorem Holds.eq {s : Scanner} {t : Token} {place other : Nat} (distinct : s.all.Nodup)
    (here : s.Holds t place) (there : s.Holds t other) : other = place := by
  obtain ⟨-, -, found⟩ := (holds_iff_behind t place).1 here
  obtain ⟨-, -, found'⟩ := (holds_iff_behind t other).1 there
  obtain ⟨inside, at_place⟩ := List.getElem?_eq_some_iff.1 found
  obtain ⟨inside', at_other⟩ := List.getElem?_eq_some_iff.1 found'
  exact distinct.getElem_inj_iff.1 (at_other.trans at_place.symm)

namespace Sound

variable {s s' : Scanner} {text : List Char}

theorem seek (sound : s.Sound text) (t : Token) :
    (∃ place, s.Holds t place ∧ s.perform (.seek t) = (.done, { s with position := place })) ∨
      (∀ place, ¬ s.Holds t place) ∧
        s.perform (.seek t) = (.failed (.unknownToken t.span), s) := by
  obtain ⟨-, -, -, ⟨place, behind, -, done, moved⟩ | ⟨absent, failed, still⟩, -⟩ :=
    sound.perform (.seek t)
  · exact .inl ⟨place, (holds_iff_behind t place).2 behind, Prod.ext done moved⟩
  · refine .inr ⟨fun place held => ?_, Prod.ext failed still⟩
    exact absent place ((holds_iff_behind t place).1 held)

theorem seek_of_holds (sound : s.Sound text) (distinct : s.all.Nodup) {t : Token} {place : Nat}
    (held : s.Holds t place) :
    s.perform (.seek t) = (.done, { s with position := place }) := by
  obtain ⟨found, there, sought⟩ | ⟨absent, -⟩ := sound.seek t
  · rwa [held.eq distinct there] at sought
  · exact absurd held (absent place)

/-- The token that is read is in the log then. -/
theorem seat_lt_size_read (sound : s.Sound text) :
    seat s.all s.position < s.read.2.log.size := by
  obtain ⟨-, -, -, -, size⟩ := sound.peek
  have positive := sound.length_pos
  have same : s.read.2.log = s.peek.2.log := by
    unfold Scanner.read
    dsimp only
    split <;> rfl
  rw [same, size, seat]
  omega

theorem seat_read (sound : s.Sound text) :
    seat s.read.2.all s.read.2.position = seat s.all (s.position + 1) := by
  obtain ⟨-, -, same, -, position⟩ := sound.read
  rw [same, position, seat, seat]
  split <;> omega

theorem readTimes (sound : s.Sound text) (n : Nat) :
    (s.readTimes n).2.Sound text ∧ (s.readTimes n).2.stream = s.stream ∧
      s.log.size ≤ (s.readTimes n).2.log.size ∧ s.position ≤ (s.readTimes n).2.position := by
  induction n generalizing s with
  | zero => exact ⟨sound, rfl, Nat.le_refl _, Nat.le_refl _⟩
  | succ n ih =>
    obtain ⟨-, later, -, grows, position⟩ := sound.read
    obtain ⟨later', same', grows', position'⟩ := ih later
    have onwards : s.position ≤ s.read.2.position := by
      rw [position]
      split <;> omega
    exact ⟨later', same'.trans sound.stream_read.2, grows.trans grows', onwards.trans position'⟩

/-- What is read next is a matter of the stream and the position. -/
theorem readTimes_congr (sound : s.Sound text) (sound' : s'.Sound text)
    (stream : s.stream = s'.stream) (place : seat s.all s.position = seat s'.all s'.position)
    (n : Nat) : (s.readTimes n).1 = (s'.readTimes n).1 := by
  induction n generalizing s s' with
  | zero => rfl
  | succ n ih =>
    obtain ⟨found, same⟩ := sound.stream_read
    obtain ⟨found', same'⟩ := sound'.stream_read
    have token : s.read.1 = s'.read.1 := by
      rw [stream, place, found'] at found
      exact (Option.some.inj found).symm
    have all : s.all = s'.all := congrArg (List.map Token.imprint) stream
    -- behind the end of the stream the positions may differ, but they read the same token
    have onwards : seat s.read.2.all s.read.2.position = seat s'.read.2.all s'.read.2.position := by
      rw [sound.seat_read, sound'.seat_read, all]
      rw [all] at place
      unfold seat at place ⊢
      omega
    have rest := ih sound.read.2.1 sound'.read.2.1 (by rw [same, same', stream]) onwards
    simp only [Scanner.readTimes, token, rest]

/-- A token that has been read stays where it is in the log. -/
theorem holds_readTimes (sound : s.Sound text) (n : Nat) :
    (s.read.2.readTimes n).2.Holds s.read.1 (seat s.all s.position) := by
  obtain ⟨found, same⟩ := sound.stream_read
  obtain ⟨-, later, -, -, position⟩ := sound.read
  obtain ⟨-, same', grows, onwards⟩ := later.readTimes n
  have logged := Nat.lt_of_lt_of_le sound.seat_lt_size_read grows
  refine ⟨?_, s.read.1, ?_, (Token.sameAs_iff _ _).2 rfl⟩
  · have passed : seat s.all s.position ≤ s.read.2.position := by
      rw [position, seat]
      split <;> omega
    exact passed.trans onwards
  · rw [← getElem?_stream logged, same', same, found]

/-- Reading a token and any number of others and going back to it leads to where it is read
again. -/
theorem seek_readTimes (sound : s.Sound text) (distinct : s.all.Nodup) (n : Nat) :
    let (answer, back) := (s.read.2.readTimes n).2.perform (.seek s.read.1)
    answer = .done ∧ ∀ m, (back.readTimes m).1 = (s.readTimes m).1 := by
  obtain ⟨later, same, -, -⟩ := sound.read.2.1.readTimes n
  rw [sound.stream_read.2] at same
  have all : (s.read.2.readTimes n).2.all = s.all := congrArg (List.map Token.imprint) same
  have held := sound.holds_readTimes n
  have logged := ((holds_iff_behind _ _).1 held).2.1
  rw [later.seek_of_holds (by rwa [all]) held]
  refine ⟨rfl, readTimes_congr (later.move (Nat.le_of_lt logged)) sound same ?_⟩
  have still : Scanner.all { (s.read.2.readTimes n).2 with position := seat s.all s.position } =
      s.all := all
  rw [still]
  simp only [seat]
  omega

end Sound

end Scanner

/-- Whatever has been asked of a scanner, it goes back to just the tokens in its log that are not
behind its position.  Such a token has one place, and it is read next; another token is refused and
nothing changes.  After a token and any number of others have been read, going back to it makes the
reading repeat itself. -/
theorem seek_is_exact (o : ScanOptions) (text : String) (requests : List Scanner.Request) :
    let s := (Scanner.ofText o text).after requests
    (∀ t place, s.Holds t place →
        (∀ other, s.Holds t other → other = place) ∧
          s.perform (.seek t) = (.done, { s with position := place }) ∧
          s.log[place]? = some ({ s with position := place } : Scanner).read.1) ∧
      (∀ t, (∀ place, ¬ s.Holds t place) →
        s.perform (.seek t) = (.failed (.unknownToken t.span), s)) ∧
      ∀ n, let (t, after) := s.read
        let (answer, back) := (after.readTimes n).2.perform (.seek t)
        answer = .done ∧ ∀ m, (back.readTimes m).1 = (s.readTimes m).1 := by
  intro s
  obtain ⟨sound, same, -⟩ := (Scanner.Sound.ofText o text).after requests
  have distinct : s.all.Nodup := by
    rw [same, Scanner.all_ofText]
    exact (readToEnd_tiles o text).nodup
  refine ⟨fun t place held => ⟨fun _ => held.eq distinct, sound.seek_of_holds distinct held, ?_⟩,
    fun t absent => ?_, sound.seek_readTimes distinct⟩
  · obtain ⟨-, logged, -⟩ := (Scanner.holds_iff_behind t place).1 held
    have bound := s.size_le
    have found := (sound.move (Nat.le_of_lt logged)).stream_read.1
    have here : Scanner.seat s.all place = place := by unfold Scanner.seat; omega
    rw [← Scanner.getElem?_stream logged, ← found]
    exact congrArg (s.stream[·]?) here.symm
  · obtain ⟨place, held, -⟩ | ⟨-, refused⟩ := sound.seek t
    · exact absurd held (absent place)
    · exact refused

end VisualBasic
