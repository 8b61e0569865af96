import VisualBasic.Proofs.Scan.Resume

/-!
Lines and columns.  Where a reader stands depends on nothing but the text before it: the line counts
the line breaks, the column the width of what follows the last of them.  A reader never stands within
a line break, although it passes one character after the other.
-/

set_option autoImplicit false

namespace VisualBasic

/-- The number of line breaks.  A carriage return and the line feed behind it are one break. -/
def countBreaks : List Char → Nat
  | [] => 0
  | '\r' :: '\n' :: rest => countBreaks rest + 1
  | c :: rest => if isLineTerminator c then countBreaks rest + 1 else countBreaks rest

/-- What stands behind the last line break. -/
def lastLine (cs : List Char) : List Char :=
  (cs.reverse.takeWhile fun c => !isLineTerminator c).reverse

/-- The number of columns that a line takes. -/
def columns (tab : Nat) : List Char → Nat
  | [] => 0
  | c :: rest => (if c = '\t' then tab else 1) + columns tab rest

/-- The location behind a text. -/
def placeBehind (tab : Nat) (cs : List Char) : Location :=
  ⟨cs.length, 1 + countBreaks cs, 1 + columns tab (lastLine cs)⟩

instance (y q : List Char) : Decidable (CutsBreak y q) :=
  inferInstanceAs (Decidable (_ ∧ _))

-- One more character

theorem countBreaks_cons {c : Char} {rest : List Char} (whole : ¬ CutsBreak [c] rest) :
    countBreaks (c :: rest) = if isLineTerminator c then countBreaks rest + 1 else countBreaks rest := by
  rw [countBreaks]
  rintro more rfl rfl
  exact whole ⟨rfl, rfl⟩

/-- A line feed that goes on with a break does not count again. -/
theorem countBreaks_snoc (cs : List Char) (c : Char) :
    countBreaks (cs ++ [c]) =
      if isLineTerminator c = true ∧ ¬ CutsBreak cs [c] then countBreaks cs + 1
      else countBreaks cs := by
  induction cs using countBreaks.induct with
  | case1 => simp [countBreaks, CutsBreak]
  | case2 rest ih =>
    have same : CutsBreak ('\r' :: '\n' :: rest) [c] ↔ CutsBreak rest [c] := by
      cases rest <;> simp [CutsBreak]
    simp only [List.cons_append, countBreaks, ih, same]
    split <;> rfl
  | case3 d rest other _ ih | case4 d rest other _ ih =>
    cases rest with
    | nil =>
      by_cases cut : CutsBreak [d] [c]
      · obtain ⟨rfl, rfl⟩ : d = '\r' ∧ c = '\n' := by simpa [CutsBreak] using cut
        rfl
      · have last : ¬ CutsBreak [c] [] := by simp [CutsBreak]
        have first : ¬ CutsBreak [d] [] := by simp [CutsBreak]
        rw [List.singleton_append, countBreaks_cons cut, countBreaks_cons last,
          countBreaks_cons first]
        simp only [cut, not_false_eq_true, and_true]
        grind
    | cons e rest =>
      have whole (more : List Char) : ¬ CutsBreak [d] (e :: more) := by
        rintro ⟨last, first⟩
        obtain rfl : d = '\r' := by simpa using last
        obtain rfl : e = '\n' := by simpa using first
        exact other rest rfl rfl
      have same : CutsBreak (d :: e :: rest) [c] ↔ CutsBreak (e :: rest) [c] := by
        simp [CutsBreak]
      rw [List.cons_append, List.cons_append, countBreaks_cons (whole _), ← List.cons_append, ih,
        countBreaks_cons (whole _)]
      simp only [same]
      grind

theorem lastLine_snoc (cs : List Char) (c : Char) :
    lastLine (cs ++ [c]) = if isLineTerminator c then [] else lastLine cs ++ [c] := by
  unfold lastLine
  rw [List.reverse_append, List.reverse_singleton, List.singleton_append, List.takeWhile_cons]
  cases isLineTerminator c <;> simp

theorem columns_snoc (tab : Nat) (line : List Char) (c : Char) :
    columns tab (line ++ [c]) = columns tab line + if c = '\t' then tab else 1 := by
  induction line with
  | nil => simp [columns]
  | cons k rest ih => rw [List.cons_append, columns, columns, ih, Nat.add_assoc]

/-- The place of a reader between what it has passed and what is left.  Within a line break the line
that ends still counts. -/
structure StandsBetween (tab : Nat) (before after : List Char) (l : Location) : Prop where
  index : l.index = before.length
  line : CutsBreak before after → l.line = countBreaks before
  whole : ¬ CutsBreak before after → l = placeBehind tab before

theorem cutsBreak_snoc {before after : List Char} {c : Char} :
    CutsBreak (before ++ [c]) after ↔ c = '\r' ∧ after.head? = some '\n' := by
  simp [CutsBreak]

/-- One character more. -/
theorem StandsBetween.advance {tab : Nat} {before after : List Char} {c : Char} {l : Location}
    (stands : StandsBetween tab before (c :: after) l) :
    StandsBetween tab (before ++ [c]) after (l.advance tab c after.head?) := by
  have index : (l.advance tab c after.head?).index = (before ++ [c]).length := by
    rw [Reader.index_advance, stands.index, List.length_append, List.length_singleton]
  by_cases within : CutsBreak before (c :: after)
  · -- the line feed ends the line that the carriage return has left open
    obtain rfl : c = '\n' := by simpa [CutsBreak] using within.2
    refine ⟨index, fun cut => by simp [cutsBreak_snoc] at cut, fun _ => ?_⟩
    have goesOn : CutsBreak before ['\n'] := within
    simp [placeBehind, Location.advance, countBreaks_snoc, lastLine_snoc, columns, goesOn,
      stands.index, stands.line within, isLineTerminator, Nat.add_comm]
  · obtain rfl := stands.whole within
    have fresh : ¬ CutsBreak before [c] := within
    refine ⟨index, fun cut => ?_, fun whole => ?_⟩
    · obtain ⟨rfl, follows⟩ := cutsBreak_snoc.1 cut
      simp [placeBehind, Location.advance, countBreaks_snoc, fresh, follows, isLineTerminator,
        Nat.add_comm]
    · rw [cutsBreak_snoc] at whole
      by_cases isTab : c = '\t'
      · subst isTab
        simp [placeBehind, Location.advance, countBreaks_snoc, lastLine_snoc, columns_snoc,
          isLineTerminator, Nat.add_assoc]
      · cases isBreak : isLineTerminator c with
        | true =>
          have ends : (c == '\r' && after.head? == some '\n') = false := by simpa using whole
          simp [placeBehind, Location.advance, countBreaks_snoc, lastLine_snoc, columns, isTab,
            isBreak, fresh, ends, Nat.add_assoc]
        | false =>
          simp [placeBehind, Location.advance, countBreaks_snoc, lastLine_snoc, columns_snoc, isTab,
            isBreak, Nat.add_assoc]

namespace Reader

/-- The reader stands where the text before it ends, and not within a line break. -/
structure Placed (r : Reader) (tab : Nat) (text before : List Char) : Prop where
  parts : text = before ++ r.rest
  location : r.location = placeBehind tab before
  whole : ¬ CutsBreak before r.rest

theorem standsBetween_skip {tab n : Nat} {before : List Char} {r : Reader}
    (stands : StandsBetween tab before r.rest r.location) :
    StandsBetween tab (before ++ r.rest.take n) (r.rest.drop n) (r.skip tab n).location := by
  induction n generalizing before r with
  | zero => simpa [skip] using stands
  | succ n ih =>
    rcases r with ⟨rest, l⟩
    cases rest with
    | nil => simpa [skip] using stands
    | cons c rest =>
      have more := ih (r := ⟨rest, l.advance tab c rest.head?⟩) stands.advance
      simpa [skip] using more

/-- A reader that passes some of the text, and stops within no line break. -/
theorem Placed.skip {tab n : Nat} {text before : List Char} {r : Reader}
    (placed : r.Placed tab text before)
    (whole : ¬ CutsBreak (before ++ r.rest.take n) (r.rest.drop n)) :
    (r.skip tab n).Placed tab text (before ++ r.rest.take n) := by
  have start : StandsBetween tab before r.rest r.location := by
    rw [placed.location]
    exact ⟨rfl, fun cut => absurd cut placed.whole, fun _ => rfl⟩
  refine ⟨?_, (standsBetween_skip start).whole whole, ?_⟩
  · rw [rest_skip, List.append_assoc, List.take_append_drop, placed.parts]
  · rwa [rest_skip]

end Reader

-- Line breaks are not cut

theorem cutsBreak_cons {c : Char} {y q : List Char} :
    CutsBreak (c :: y) q ↔ y = [] ∧ CutsBreak [c] q ∨ CutsBreak y q := by
  cases y <;> simp [CutsBreak]

theorem cutsBreak_append {x y q : List Char} (cut : CutsBreak (x ++ y) q) :
    y = [] ∧ CutsBreak x q ∨ CutsBreak y q := by
  cases y with
  | nil => exact .inl ⟨rfl, by simpa using cut⟩
  | cons => exact .inr (by simpa [CutsBreak] using cut)

/-- The place after some characters lies within a line break. -/
def CutsAt (cs : List Char) (n : Nat) : Prop := CutsBreak (cs.take n) (cs.drop n)

theorem not_cutsAt_zero (cs : List Char) : ¬ CutsAt cs 0 := by
  simp [CutsAt, CutsBreak]

theorem CutsAt.of_cons {c : Char} {rest : List Char} {n : Nat} (other : c ≠ '\r')
    (cut : CutsAt (c :: rest) (n + 1)) : CutsAt rest n := by
  rcases cutsBreak_cons.1 cut with ⟨-, last, -⟩ | later
  · exact absurd (by simpa using last) other
  · exact later

theorem not_cutsAt_of_inside {cs : List Char} {n : Nat}
    (inside : ∀ c ∈ cs.take n, isLineTerminator c = false) : ¬ CutsAt cs n := by
  rintro ⟨last, -⟩
  have := inside '\r' (List.mem_of_getLast? last)
  contradiction

/-- A line break is taken whole. -/
theorem not_cutsAt_lineBreak (c : Char) (rest : List Char) :
    ¬ CutsAt (c :: rest) (Scan.lineBreakLength (c :: rest)) := by
  unfold Scan.lineBreakLength CutsAt
  split
  next after same =>
    rw [same]
    simp [CutsBreak]
  next alone =>
    rintro ⟨last, first⟩
    obtain rfl : c = '\r' := by simpa using last
    obtain ⟨after, rfl⟩ := List.head?_eq_some_iff.1 first
    exact alone after rfl

theorem not_cutsAt_continuation {c : Char} {rest : List Char} {n : Nat}
    (follows : Reader.continuationTail? c rest = some n) : ¬ CutsAt rest n := by
  unfold Reader.continuationTail? at follows
  split at follows
  next =>
    dsimp only at follows
    split at follows
    next none =>
      obtain rfl := Option.some.inj follows
      rintro ⟨-, first⟩
      rw [none] at first
      cases first
    next d after behind =>
      split at follows
      next isBreak =>
        obtain rfl := Option.some.inj follows
        intro cut
        unfold CutsAt at cut
        rw [List.take_add, ← List.drop_drop, behind] at cut
        rcases cutsBreak_append cut with ⟨empty, -⟩ | within
        · obtain ⟨-, positive, -⟩ := take_lineBreakLength after isBreak
          rw [List.take_eq_nil_iff] at empty
          rcases empty with zero | none
          · omega
          · cases none
        · exact not_cutsAt_lineBreak d after within
      next => cases follows
  next => cases follows

/-- What stands before a lexeme ends within no line break, if what has been recognised of it does
not. -/
theorem not_cutsAt_trivia (n : Nat) (cs : List Char) (fits : n ≤ cs.length)
    (start : ¬ CutsAt cs n) : ¬ CutsAt cs (Reader.triviaLength n cs) := by
  fun_induction Reader.triviaLength n cs with
  | case1 n => exact not_cutsAt_zero []
  | case2 n c rest ih =>
    have fits := Nat.le_of_succ_le_succ fits
    intro cut
    rcases cutsBreak_cons.1 cut with ⟨empty, single⟩ | later
    · have reach := Reader.le_triviaLength fits
      rcases List.take_eq_nil_iff.1 empty with zero | rfl
      · obtain rfl : n = 0 := by omega
        rw [List.drop_succ_cons, zero] at single
        exact start single
      · simpa using single.2
    · exact ih fits (fun within => start (cutsBreak_cons.2 (.inr within))) later
  | case3 c rest blank ih =>
    intro cut
    refine ih (Nat.zero_le _) (not_cutsAt_zero rest) (cut.of_cons ?_)
    rintro rfl
    cases blank
  | case4 c rest solid n follows ih =>
    intro cut
    refine ih (Reader.continuationTail?_le follows) (not_cutsAt_continuation follows)
      (cut.of_cons ?_)
    rintro rfl
    cases follows
  | case5 c rest => exact not_cutsAt_zero _

theorem not_cutsAt_recognize (version : Version) (cs : List Char) :
    ¬ CutsAt cs (Scan.recognize version cs).length := by
  cases cs with
  | nil => exact not_cutsAt_zero []
  | cons c rest =>
    rcases Scan.recognize_cons version c rest with takes | ⟨-, isBreak⟩
    · exact not_cutsAt_of_inside takes.clear.2
    · rw [isBreak]
      exact not_cutsAt_lineBreak c rest

namespace Reader

variable {tab : Nat} {text before : List Char} {r : Reader}

theorem Placed.take {n : Nat} (placed : r.Placed tab text before) (whole : ¬ CutsAt r.rest n) :
    (r.skip tab n).Placed tab text (before ++ r.rest.take n) := by
  refine placed.skip fun cut => ?_
  rcases cutsBreak_append cut with ⟨empty, behind⟩ | within
  · refine placed.whole ?_
    rwa [← List.take_append_drop n r.rest, empty]
  · exact whole within

/-- The reader stands at a place that the text before it determines. -/
def Stands (r : Reader) (tab : Nat) (text : List Char) : Prop :=
  ∃ before, r.Placed tab text before

theorem Stands.next (version : Version) (stands : r.Stands tab text) :
    (r.skipTrivia tab).Stands tab text ∧ (r.next version tab).2.Stands tab text := by
  obtain ⟨before, placed⟩ := stands
  have start := placed.take (not_cutsAt_trivia 0 r.rest (Nat.zero_le _) (not_cutsAt_zero _))
  exact ⟨⟨_, start⟩, ⟨_, start.take (not_cutsAt_recognize version _)⟩⟩

theorem Stands.ofText (tab : Nat) (text : List Char) : (Reader.ofText tab text).Stands tab text := by
  have start : (⟨text, .origin⟩ : Reader).Placed tab text [] :=
    ⟨rfl, rfl, by simp [CutsBreak]⟩
  unfold Reader.ofText
  dsimp only
  split
  next mark =>
    obtain ⟨rest, rfl⟩ := List.head?_eq_some_iff.1 mark
    refine ⟨_, start.take (not_cutsAt_of_inside fun c member => ?_)⟩
    obtain rfl : c = byteOrderMark := by simpa using member
    rfl
  next => exact ⟨_, start⟩

end Reader

/-- The location is the one that the text before it determines, and it is within no line break. -/
structure Location.IsExact (l : Location) (tab : Nat) (text : List Char) : Prop where
  within : l.index ≤ text.length
  place : l = placeBehind tab (text.take l.index)
  whole : ¬ CutsAt text l.index

theorem Reader.Stands.isExact {tab : Nat} {text : List Char} {r : Reader}
    (stands : r.Stands tab text) : r.location.IsExact tab text := by
  obtain ⟨before, parts, location, whole⟩ := stands
  have index : r.location.index = before.length := by rw [location]; rfl
  have front : text.take r.location.index = before := by rw [index, parts, List.take_left]
  refine ⟨?_, by rwa [front], ?_⟩
  · rw [index, parts, List.length_append]
    exact Nat.le_add_right _ _
  · rw [CutsAt, front, index, parts, List.drop_left]
    exact whole

theorem Reader.Stands.tokens {version : Version} {tab : Nat} {text : List Char} {r : Reader} (n : Nat)
    (stands : r.Stands tab text) :
    ∀ t ∈ r.tokens version tab n,
      t.span.start.IsExact tab text ∧ t.span.finish.IsExact tab text := by
  induction n generalizing r with
  | zero => simp [Reader.tokens]
  | succ n ih =>
    obtain ⟨start, after⟩ := stands.next version
    have first : (r.next version tab).1.span.start.IsExact tab text ∧
        (r.next version tab).1.span.finish.IsExact tab text := ⟨start.isExact, after.isExact⟩
    intro t member
    rw [Reader.tokens_succ] at member
    split at member
    next =>
      obtain rfl := List.mem_singleton.1 member
      exact first
    next =>
      rcases List.mem_cons.1 member with rfl | later
      · exact first
      · exact ih after t later

end VisualBasic
