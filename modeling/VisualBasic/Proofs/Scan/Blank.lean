import VisualBasic.Proofs.Scan.Demotion
import VisualBasic.Proofs.Scan.Place

/-!
A text with blanks in place of its directives.  Every line that a directive does not stand in has the
same tokens at the same places, and a line with a directive has none but its ends.
-/

set_option autoImplicit false

namespace VisualBasic

/-- What is left of a character when the text around it is taken away: line breaks stay. -/
def blankOut (c : Char) : Char := if isLineTerminator c then c else ' '

/-- Where the line ends that the tokens go on with. -/
def lineEnd (tokens : List Token) : Nat :=
  ((tokens.find? fun t => t.kind == .lineTerminator).map fun t => t.span.start.index).getD 0

/-- The place is in a directive: from a sign that starts a line up to the end of the line.  The flag
tells whether the tokens start a line. -/
def inDirective : Bool → List Token → Nat → Bool
  | _, [], _ => false
  | fresh, t :: rest, i =>
    (fresh && t.kind == .mark .pound && t.span.start.index ≤ i && i < lineEnd rest) ||
      inDirective (t.kind == .lineTerminator) rest i

/-- Takes away the characters at some places of a text, counted from a given one. -/
def blankAt (places : Nat → Bool) : Nat → List Char → List Char
  | _, [] => []
  | i, c :: rest => (if places i then blankOut c else c) :: blankAt places (i + 1) rest

-- Taking characters away

@[simp] theorem isLineTerminator_blankOut (c : Char) :
    isLineTerminator (blankOut c) = isLineTerminator c := by
  unfold blankOut
  split
  next => rfl
  next inside => rw [Bool.of_not_eq_true inside]; rfl

theorem blankOut_of_isLineTerminator {c : Char} (isBreak : isLineTerminator c = true) :
    blankOut c = c :=
  if_pos isBreak

theorem blankOut_of_inside {c : Char} (inside : isLineTerminator c = false) : blankOut c = ' ' :=
  if_neg (by simp [inside])

theorem blankAt_cons (places : Nat → Bool) (i : Nat) (c : Char) (rest : List Char) :
    blankAt places i (c :: rest)
      = (if places i then blankOut c else c) :: blankAt places (i + 1) rest := rfl

theorem blankAt_append (places : Nat → Bool) (i : Nat) (a b : List Char) :
    blankAt places i (a ++ b) = blankAt places i a ++ blankAt places (i + a.length) b := by
  induction a generalizing i with
  | nil => rfl
  | cons c a ih =>
    rw [List.cons_append, blankAt_cons, ih, blankAt_cons, List.cons_append, List.length_cons,
      Nat.add_right_comm, Nat.add_assoc]

theorem blankAt_of_outside {places : Nat → Bool} {i : Nat} {cs : List Char}
    (outside : ∀ j, i ≤ j → j < i + cs.length → places j = false) : blankAt places i cs = cs := by
  induction cs generalizing i with
  | nil => rfl
  | cons c rest ih =>
    have first := outside i (Nat.le_refl i) (Nat.lt_add_of_pos_right (Nat.succ_pos _))
    rw [blankAt_cons, first, if_neg Bool.false_ne_true, ih]
    intro j later upTo
    rw [List.length_cons] at outside
    exact outside j (by omega) (by omega)

theorem blankAt_of_inside {places : Nat → Bool} {i : Nat} {cs : List Char}
    (inside : ∀ j, i ≤ j → j < i + cs.length → places j = true) :
    blankAt places i cs = cs.map blankOut := by
  induction cs generalizing i with
  | nil => rfl
  | cons c rest ih =>
    have first := inside i (Nat.le_refl i) (Nat.lt_add_of_pos_right (Nat.succ_pos _))
    rw [blankAt_cons, first, if_pos rfl, ih, List.map_cons]
    intro j later upTo
    rw [List.length_cons] at inside
    exact inside j (by omega) (by omega)

theorem blankAt_congr {places places' : Nat → Bool} {i : Nat} {cs : List Char}
    (same : ∀ j, i ≤ j → places j = places' j) : blankAt places i cs = blankAt places' i cs := by
  induction cs generalizing i with
  | nil => rfl
  | cons c rest ih =>
    rw [blankAt_cons, blankAt_cons, same i (Nat.le_refl i), ih]
    intro j later
    exact same j (Nat.le_of_succ_le later)

theorem blankAt_drop (places : Nat → Bool) (i n : Nat) (cs : List Char) :
    (blankAt places i cs).drop n = blankAt places (i + n) (cs.drop n) := by
  induction n generalizing i cs with
  | zero => rfl
  | succ n ih =>
    cases cs with
    | nil => rfl
    | cons c rest =>
      rw [blankAt_cons, List.drop_succ_cons, List.drop_succ_cons, ih, Nat.add_right_comm,
        Nat.add_assoc]

theorem blankOut_eq_iff {c d : Char} (isBreak : isLineTerminator d = true) :
    blankOut c = d ↔ c = d := by
  by_cases inside : isLineTerminator c = true
  · rw [blankOut_of_isLineTerminator inside]
  · have other := Bool.of_not_eq_true inside
    rw [blankOut_of_inside other]
    constructor
    · rintro rfl
      cases isBreak
    · rintro rfl
      exact absurd isBreak inside

/-- Line breaks stay as they are. -/
theorem blankAt_cons_of_isLineTerminator {c : Char} (isBreak : isLineTerminator c = true)
    (places : Nat → Bool) (i : Nat) (rest : List Char) :
    blankAt places i (c :: rest) = c :: blankAt places (i + 1) rest := by
  rw [blankAt_cons, blankOut_of_isLineTerminator isBreak, ite_self]

theorem head?_blankAt {d : Char} (isBreak : isLineTerminator d = true) (places : Nat → Bool) (i : Nat)
    (cs : List Char) : (blankAt places i cs).head? = some d ↔ cs.head? = some d := by
  cases cs with
  | nil => rfl
  | cons c rest =>
    rw [blankAt_cons, List.head?_cons, List.head?_cons, Option.some_inj, Option.some_inj]
    split
    · exact blankOut_eq_iff isBreak
    · rfl

theorem Scan.lineBreakLength_eq (cs : List Char) :
    lineBreakLength cs = if cs.head? = some '\r' ∧ cs.tail.head? = some '\n' then 2 else 1 := by
  unfold lineBreakLength
  split
  next => simp
  next single =>
    rw [if_neg]
    rintro ⟨first, second⟩
    obtain ⟨rest, rfl⟩ := List.head?_eq_some_iff.1 first
    obtain ⟨rest, rfl⟩ := List.head?_eq_some_iff.1 second
    exact single rest rfl

theorem lineBreakLength_blankAt (places : Nat → Bool) (i : Nat) (cs : List Char) :
    Scan.lineBreakLength (blankAt places i cs) = Scan.lineBreakLength cs := by
  have tail : (blankAt places i cs).tail = blankAt places (i + 1) cs.tail := by
    rw [← List.drop_one, blankAt_drop, List.drop_one]
  rw [Scan.lineBreakLength_eq, Scan.lineBreakLength_eq, tail]
  exact if_congr (and_congr (head?_blankAt (by decide) ..) (head?_blankAt (by decide) ..)) rfl rfl

-- Directives

/-- Before the first token there is no directive. -/
theorem inDirective_of_before {tokens : List Token} {i : Nat}
    (before : ∀ t ∈ tokens, i < t.span.start.index) (fresh : Bool) :
    inDirective fresh tokens i = false := by
  induction tokens generalizing fresh with
  | nil => rfl
  | cons t rest ih =>
    obtain ⟨first, later⟩ := List.forall_mem_cons.1 before
    have early : decide (t.span.start.index ≤ i) = false := decide_eq_false (Nat.not_le.2 first)
    rw [inDirective, ih later, early]
    simp

theorem lineEnd_append {line rest : List Token} {ending : Token}
    (inside : ∀ t ∈ line, t.kind ≠ .lineTerminator) (breaks : ending.kind = .lineTerminator) :
    lineEnd (line ++ ending :: rest) = ending.span.start.index := by
  have none : line.find? (fun t => t.kind == .lineTerminator) = none := by
    simpa using inside
  rw [lineEnd, List.find?_append, none]
  simp [breaks]

/-- A line is a directive if its first token is a sign; the next lines have directives of their own. -/
theorem inDirective_line {line rest : List Token} {ending : Token}
    (inside : ∀ t ∈ line, t.kind ≠ .lineTerminator) (breaks : ending.kind = .lineTerminator)
    (fresh : Bool) (i : Nat) :
    inDirective fresh (line ++ ending :: rest) i =
      ((line.head?.any fun t => fresh && t.kind == .mark .pound && t.span.start.index ≤ i &&
          i < ending.span.start.index) || inDirective true rest i) := by
  induction line generalizing fresh with
  | nil => simp [inDirective, breaks]
  | cons t line ih =>
    obtain ⟨first, others⟩ := List.forall_mem_cons.1 inside
    have goesOn : (t.kind == .lineTerminator) = false := beq_eq_false_iff_ne.2 first
    rw [List.cons_append, inDirective, lineEnd_append others breaks, goesOn, ih others]
    simp

-- Comments

namespace Lexeme

theorem eq_comment {l : Lexeme} (kind : l.kind = .comment) : ∃ text isRem, l = comment text isRem := by
  cases l with
  | comment text isRem => exact ⟨text, isRem, rfl⟩
  | literal value => rcases value with ⟨⟨⟩⟩ | _ | _ | _ | _ | _ <;> cases kind
  | _ => cases kind

end Lexeme

namespace Scan

theorem endsLine_lineText (cs : List Char) : EndsLine (cs.drop (lineText cs).length) := by
  intro c head
  rw [lineText, drop_length_takeWhile] at head
  have stops := List.head?_dropWhile_not (fun c => !isLineTerminator c) cs
  rw [head] at stops
  simpa using stops

theorem endsLine_commentMatch (isRem : Bool) (introducer : Nat) (cs : List Char) :
    EndsLine (cs.drop (commentMatch isRem introducer cs).length) := by
  have ends := endsLine_lineText (cs.drop introducer)
  rwa [List.drop_drop] at ends

theorem endsLine_wordMatch {version : Version} {cs : List Char} {text : String} {isRem : Bool}
    (remark : (wordMatch version cs).lexeme = .comment text isRem) :
    EndsLine (cs.drop (wordMatch version cs).length) := by
  revert remark
  unfold wordMatch
  dsimp only
  split
  · exact fun _ => endsLine_commentMatch _ _ _
  · split <;> simp
  · simp

/-- A comment takes the rest of its line. -/
theorem endsLine_of_comment {version : Version} {cs : List Char}
    (kind : (recognize version cs).lexeme.kind = .comment) :
    EndsLine (cs.drop (recognize version cs).length) := by
  obtain ⟨text, isRem, remark⟩ := Lexeme.eq_comment kind
  cases cs with
  | nil => cases remark
  | cons c rest =>
    unfold recognize at remark ⊢
    dsimp only at remark ⊢
    cases start : startOf c rest.head? with
    | comment => exact endsLine_commentMatch _ _ _
    | word =>
      rw [start] at remark
      exact endsLine_wordMatch remark
    | lineBreak | looseUnderscore =>
      rw [start] at remark
      cases remark
    | escapedName =>
      rw [start] at remark
      unfold escapedMatch at remark
      grind
    | string =>
      rw [start] at remark
      unfold stringMatch at remark
      grind
    | numberSign =>
      rw [start] at remark
      unfold dateMatch at remark
      grind
    | decimalNumber =>
      rw [start] at remark
      have numeric : (decimalNumber version (c :: rest)).lexeme.isNumeric = true :=
        isNumeric_numeralLexeme ..
      rw [show (decimalNumber version (c :: rest)).lexeme = _ from remark] at numeric
      cases numeric
    | radixNumber =>
      rw [start] at remark
      have numeric := isNumeric_radixNumber version (c :: rest)
      rw [show (radixNumber version (c :: rest)).lexeme = _ from remark] at numeric
      cases numeric
    | punctuator =>
      rw [start] at remark
      unfold punctuatorMatch at remark
      grind

end Scan

namespace Reader

variable {version : Version} {tab : Nat} {r : Reader} {y q : List Char}

-- Line breaks

theorem eq_of_rest (rest : r.rest = q) : r = ⟨q, r.location⟩ := by
  rw [← rest]

theorem skip_skip (tab m n : Nat) (r : Reader) :
    (r.skip tab m).skip tab n = r.skip tab (m + n) := by
  induction m generalizing r with
  | zero => rw [skip, Nat.zero_add]
  | succ m ih =>
    rw [Nat.add_right_comm]
    obtain ⟨rest, l⟩ := r
    cases rest with
    | nil => cases n <;> rfl
    | cons c rest => exact ih _

/-- A line break leads to the start of the next line. -/
theorem skip_lineBreak {c : Char} {more : List Char} (isBreak : isLineTerminator c = true)
    (l : Location) :
    (⟨c :: more, l⟩ : Reader).skip tab (Scan.lineBreakLength (c :: more)) =
      ⟨(c :: more).drop (Scan.lineBreakLength (c :: more)),
        ⟨l.index + Scan.lineBreakLength (c :: more), l.line + 1, 1⟩⟩ := by
  have solid : c ≠ '\t' := by
    rintro rfl
    cases isBreak
  unfold Scan.lineBreakLength
  split
  next rest both =>
    obtain ⟨rfl, rfl⟩ := List.cons.inj both
    simp [skip, Location.advance, isLineTerminator]
  next single =>
    have alone : (c == '\r' && more.head? == some '\n') = false := by
      by_contra both
      obtain ⟨cr, feed⟩ := Bool.and_eq_true_iff.1 (Bool.of_not_eq_false both)
      obtain ⟨rest, rfl⟩ := List.head?_eq_some_iff.1 (beq_iff_eq.1 feed)
      exact single rest (by rw [beq_iff_eq.1 cr])
    simp [skip, Location.advance, solid, isBreak, alone]

theorem next_lineBreak (version : Version) (tab : Nat) {c : Char} (more : List Char)
    (isBreak : isLineTerminator c = true) (l : Location) :
    (⟨c :: more, l⟩ : Reader).next version tab =
      (⟨.lineTerminator, ⟨l, ⟨l.index + Scan.lineBreakLength (c :: more), l.line + 1, 1⟩⟩⟩,
        ⟨(c :: more).drop (Scan.lineBreakLength (c :: more)),
          ⟨l.index + Scan.lineBreakLength (c :: more), l.line + 1, 1⟩⟩) := by
  have start : (⟨c :: more, l⟩ : Reader).skipTrivia tab = ⟨c :: more, l⟩ := by
    rw [skipTrivia, triviaLength_of_endsLine (.cons isBreak more)]
    rfl
  simp only [next, start, Scan.recognize_lineBreak version more isBreak, skip_lineBreak isBreak]

theorem left_lineBreak {c : Char} {more : List Char} (isBreak : isLineTerminator c = true)
    (l : Location) :
    (⟨c :: more, l⟩ : Reader).left version tab =
      let next : Location := ⟨l.index + Scan.lineBreakLength (c :: more), l.line + 1, 1⟩
      ⟨.lineTerminator, ⟨l, next⟩⟩ ::
        (⟨(c :: more).drop (Scan.lineBreakLength (c :: more)), next⟩ : Reader).left version tab := by
  have step := next_lineBreak version tab more isBreak l
  have goesOn : ((⟨c :: more, l⟩ : Reader).next version tab).1.kind ≠ .endOfStream := by
    rw [step]
    simp [Token.kind, Lexeme.kind]
  rw [left_of_goesOn goesOn, step]

/-- What is skipped before a token ends within no line break. -/
theorem skipTrivia_eq (tab : Nat) (r : Reader) :
    ∃ y, r.rest = y ++ (r.skipTrivia tab).rest ∧ ¬ CutsBreak y (r.skipTrivia tab).rest ∧
      y.length = triviaLength 0 r.rest ∧ r.skipTrivia tab = r.skip tab y.length := by
  refine ⟨r.rest.take (triviaLength 0 r.rest), ?_, ?_, ?_, ?_⟩
  · rw [skipTrivia, rest_skip, List.take_append_drop]
  · rw [skipTrivia, rest_skip]
    exact not_cutsAt_trivia 0 r.rest (Nat.zero_le _) (not_cutsAt_zero _)
  · rw [List.length_take, Nat.min_eq_left (triviaLength_le 0 r.rest)]
  · rw [List.length_take, Nat.min_eq_left (triviaLength_le 0 r.rest)]
    rfl

/-- What is read with a token ends within no line break. -/
theorem next_eq (version : Version) (tab : Nat) (r : Reader) :
    ∃ y, r.rest = y ++ (r.next version tab).2.rest ∧
      ¬ CutsBreak y (r.next version tab).2.rest ∧ (r.next version tab).2 = r.skip tab y.length := by
  obtain ⟨x, front, uncut, -, start⟩ := skipTrivia_eq tab r
  generalize here : r.skipTrivia tab = r' at front uncut start
  have after : (r.next version tab).2 = r'.skip tab (Scan.recognize version r'.rest).length := by
    rw [← here]
    rfl
  have fits := recognize_fits version r'.rest
  have rest : (r.next version tab).2.rest = r'.rest.drop (Scan.recognize version r'.rest).length := by
    rw [after, rest_skip]
  refine ⟨x ++ r'.rest.take (Scan.recognize version r'.rest).length, ?_, ?_, ?_⟩
  · rw [rest, List.append_assoc, List.take_append_drop, front]
  · intro cut
    rw [rest] at cut
    rcases cutsBreak_append cut with ⟨empty, behind⟩ | within
    · refine uncut ?_
      rwa [← List.take_append_drop (Scan.recognize version r'.rest).length r'.rest, empty]
    · exact not_cutsAt_recognize version r'.rest within
  · rw [after, List.length_append, List.length_take, Nat.min_eq_left fits, ← skip_skip, ← start]

/-- The reader comes to the end of its line behind some characters, with a line break and more to
read. -/
structure Breaks (version : Version) (tab : Nat) (r : Reader) (ending : Token) (rest : List Token)
    (y : List Char) (c : Char) (more : List Char) : Prop where
  front : r.rest = y ++ c :: more
  isBreak : isLineTerminator c = true
  uncut : ¬ CutsBreak y (c :: more)
  start : r.skip tab y.length = ⟨c :: more, ending.span.start⟩
  left : (⟨c :: more, ending.span.start⟩ : Reader).left version tab = ending :: rest

/-- Where a token ends a line, a line break is left to read. -/
theorem exists_breaks {line rest : List Token} {ending : Token}
    (found : r.left version tab = line ++ ending :: rest) (breaks : ending.kind = .lineTerminator) :
    ∃ y c more, r.Breaks version tab ending rest y c more := by
  induction line generalizing r with
  | nil =>
    have first : (r.next version tab).1 = ending := next_of_left found
    obtain ⟨y, front, uncut, -, start⟩ := skipTrivia_eq tab r
    have place : (r.skipTrivia tab).location = ending.span.start := by
      rw [← first]
      rfl
    have kind : (Scan.recognize version (r.skipTrivia tab).rest).lexeme.kind = .lineTerminator := by
      rw [← breaks, ← first]
      rfl
    cases here : (r.skipTrivia tab).rest with
    | nil =>
      rw [here] at kind
      cases kind
    | cons c more =>
      rw [here] at kind front uncut
      rcases Scan.recognize_cons version c more with takes | ⟨isBreak, -⟩
      · exact absurd kind takes.proper.kind_ne.2
      · have stands : r.skipTrivia tab = ⟨c :: more, ending.span.start⟩ := by
          rw [← place, ← here]
        refine ⟨y, c, more, front, isBreak, uncut, start.symm.trans stands, ?_⟩
        refine (left_congr ?_).trans found
        have same : (⟨c :: more, ending.span.start⟩ : Reader).skipTrivia tab = r.skipTrivia tab := by
          rw [stands, skipTrivia, triviaLength_of_endsLine (.cons isBreak more)]
          rfl
        unfold next
        rw [same]
  | cons t line ih =>
    have goesOn : (r.next version tab).1.kind ≠ .endOfStream := by
      intro atEnd
      rw [left_of_ends atEnd] at found
      simp at found
    rw [left_of_goesOn goesOn] at found
    obtain ⟨y, front, uncut, after⟩ := next_eq version tab r
    obtain ⟨z, c, more, later⟩ := ih (List.cons.inj found).2
    refine ⟨y ++ z, c, more, ?_, later.isBreak, ?_, ?_, later.left⟩
    · rw [front, later.front, List.append_assoc]
    · intro cut
      rcases cutsBreak_append cut with ⟨rfl, early⟩ | late
      · rw [later.front] at uncut
        exact uncut early
      · exact later.uncut late
    · rw [List.length_append, ← skip_skip, ← after, later.start]

namespace Breaks

variable {ending : Token} {rest : List Token} {c : Char} {more : List Char}
  (breaks : r.Breaks version tab ending rest y c more)
include breaks

theorem index : ending.span.start.index = r.location.index + y.length := by
  have fits : y.length ≤ r.rest.length := by simp [breaks.front]
  have moved := (index_skip_add tab r fits).1
  rwa [breaks.start] at moved

/-- The token takes the line break, and the rest is read from the start of the next line. -/
theorem next_line : ending = ⟨.lineTerminator, ending.span⟩ ∧
    ending.span.finish = ⟨ending.span.start.index + Scan.lineBreakLength (c :: more),
      ending.span.start.line + 1, 1⟩ ∧
    (⟨(c :: more).drop (Scan.lineBreakLength (c :: more)), ending.span.finish⟩ : Reader).left
      version tab = rest := by
  have left := breaks.left
  rw [left_lineBreak breaks.isBreak] at left
  obtain ⟨same, behind⟩ := List.cons.inj left
  have finish := congrArg (fun t : Token => t.span.finish) same
  dsimp only at finish
  rw [finish] at same behind
  exact ⟨same.symm, finish.symm, behind⟩

theorem index_finish : ending.span.finish.index =
    ending.span.start.index + Scan.lineBreakLength (c :: more) := by
  rw [breaks.next_line.2.1]

theorem order : ending.span.start.index < ending.span.finish.index := by
  obtain ⟨-, positive, -⟩ := take_lineBreakLength more breaks.isBreak
  rw [breaks.index_finish]
  omega

theorem le_start {t : Token} (member : t ∈ rest) :
    ending.span.finish.index ≤ t.span.start.index := by
  rw [← breaks.next_line.2.2] at member
  exact index_le_of_mem_left member

end Breaks

-- Blanks

/-- A blank before a part changes nothing in it. -/
theorem Part.blank {l l' : Location} {ts : List Token}
    (part : Part version tab y (l.advance tab ' ' y.head?) ts l') :
    Part version tab (' ' :: y) l ts l' := by
  cases part with
  | done closed whole =>
    have all : triviaLength 0 (' ' :: y) = (' ' :: y).length := congrArg (· + 1) whole
    exact .done (y := ' ' :: y) (l := l) closed all
  | token starts behind => exact .token (Nat.succ_lt_succ starts) behind

/-- What is left of a line has no tokens but its ends. -/
theorem exists_part_of_blank (version : Version) (tab : Nat) (l : Location)
    (blank : ∀ c ∈ y, isLineTerminator c = true ∨ c = ' ') :
    ∃ ts l', Part version tab y l ts l' ∧ ∀ t ∈ ts, t.kind = .lineTerminator := by
  induction size : y.length using Nat.strong_induction_on generalizing y l with
  | _ n ih =>
    cases y with
    | nil => exact ⟨[], _, .done rfl rfl, by simp⟩
    | cons c rest =>
      obtain ⟨first, others⟩ := List.forall_mem_cons.1 blank
      rcases first with isBreak | rfl
      · obtain ⟨-, positive, -⟩ := take_lineBreakLength rest isBreak
        have step := next_lineBreak version tab rest isBreak l
        have fewer : ((c :: rest).drop (Scan.lineBreakLength (c :: rest))).length < n := by
          simp only [List.length_drop, List.length_cons] at size ⊢
          omega
        obtain ⟨ts, l', part, breaks⟩ := ih _ fewer
          ⟨l.index + Scan.lineBreakLength (c :: rest), l.line + 1, 1⟩
          (fun d member => blank d (List.mem_of_mem_drop member)) rfl
        have starts : triviaLength 0 (c :: rest) < (c :: rest).length := by
          rw [triviaLength_of_endsLine (.cons isBreak rest)]
          exact Nat.succ_pos _
        refine ⟨_, l', .token starts (by rw [step]; exact part), ?_⟩
        rw [step]
        exact List.forall_mem_cons.2 ⟨rfl, breaks⟩
      · obtain ⟨ts, l', part, breaks⟩ := ih _ (by rw [← size]; simp) _ others rfl
        exact ⟨ts, l', part.blank, breaks⟩

theorem Part.location_eq {l l' : Location} {ts : List Token} (part : Part version tab y l ts l') :
    l' = ((⟨y, l⟩ : Reader).skip tab y.length).location := by
  induction part with
  | done => rfl
  | @token y l l' ts _ _ ih =>
    obtain ⟨x, front, -, after⟩ := next_eq version tab ⟨y, l⟩
    have length := congrArg List.length front
    rw [List.length_append] at length
    rw [ih, length, ← skip_skip, ← after]

/-- What is left of a line, up to a line break. -/
theorem exists_left_of_blank (version : Version) (tab : Nat) (l : Location)
    (blank : ∀ c ∈ y, isLineTerminator c = true ∨ c = ' ') (ends : EndsLine q)
    (uncut : ¬ CutsBreak y q) :
    ∃ breaks, (∀ t ∈ breaks, t.kind = .lineTerminator) ∧ (⟨y ++ q, l⟩ : Reader).left version tab =
      breaks ++ ((⟨y ++ q, l⟩ : Reader).skip tab y.length).left version tab := by
  obtain ⟨breaks, l', part, all⟩ := exists_part_of_blank version tab l blank
  refine ⟨breaks, all, ?_⟩
  have place := part.location_eq
  rw [part.left_append ends uncut, place, skip_append tab y.length l (Nat.le_refl _) uncut, rest_skip,
    List.drop_length, List.nil_append]

/-- Blanks and line continuations before a line are passed with what is left of the line. -/
theorem left_trivia {x : List Char} (l : Location) (whole : triviaLength 0 x = x.length)
    (closed : leavesOpen 0 x = false) (uncut : ¬ CutsBreak x y) :
    (⟨x ++ y, l⟩ : Reader).left version tab =
      ((⟨x ++ y, l⟩ : Reader).skip tab x.length).left version tab := by
  have behind : (⟨x ++ y, l⟩ : Reader).skip tab x.length =
      ⟨y, ((⟨x, l⟩ : Reader).skip tab x.length).location⟩ := by
    rw [skip_append tab x.length l (Nat.le_refl _) uncut, rest_skip, List.drop_length,
      List.nil_append]
  apply left_congr
  have start : (⟨x ++ y, l⟩ : Reader).skipTrivia tab =
      ((⟨x ++ y, l⟩ : Reader).skip tab x.length).skipTrivia tab := by
    rw [skipTrivia, triviaLength_append (Nat.zero_le _) uncut closed, if_pos whole, ← skip_skip, behind]
    rfl
  unfold next
  rw [start]

theorem line_advance (tab : Nat) (c : Char) (next : Option Char) (l : Location) :
    (l.advance tab c next).line =
      if isLineTerminator c = true ∧ ¬ (c = '\r' ∧ next = some '\n') then l.line + 1 else l.line := by
  unfold Location.advance
  by_cases isTab : c = '\t'
  · subst isTab
    rfl
  · by_cases breaks : (isLineTerminator c && !(c == '\r' && next == some '\n')) = true
    · rw [if_neg isTab, if_pos breaks, if_pos (by simpa [imp_iff_not_or] using breaks)]
    · rw [if_neg isTab, if_neg breaks, if_neg (by simpa [imp_iff_not_or] using breaks)]

/-- Taking characters away changes neither how many there are nor the lines that they are in. -/
theorem skip_blankAt (tab : Nat) (places : Nat → Bool) (i n : Nat) (cs : List Char) {l l' : Location}
    (index : l'.index = l.index) (line : l'.line = l.line) :
    ((⟨blankAt places i cs, l'⟩ : Reader).skip tab n).location.index =
        ((⟨cs, l⟩ : Reader).skip tab n).location.index ∧
      ((⟨blankAt places i cs, l'⟩ : Reader).skip tab n).location.line =
        ((⟨cs, l⟩ : Reader).skip tab n).location.line := by
  induction n generalizing cs i l l' with
  | zero => exact ⟨index, line⟩
  | succ n ih =>
    cases cs with
    | nil => exact ⟨index, line⟩
    | cons c rest =>
      have kept : isLineTerminator (if places i then blankOut c else c) = isLineTerminator c := by
        split
        · exact isLineTerminator_blankOut c
        · rfl
      have carriage : (if places i then blankOut c else c) = '\r' ↔ c = '\r' := by
        split
        · exact blankOut_eq_iff (by decide)
        · rfl
      have feed := head?_blankAt (d := '\n') (by decide) places (i + 1) rest
      rw [blankAt_cons]
      apply ih
      · rw [index_advance, index_advance, index]
      · rw [line_advance, line_advance, kept, line]
        exact if_congr (and_congr_right' (not_congr (and_congr carriage feed))) rfl rfl

-- Lines

/-- Behind blanks and line continuations there are no more of them. -/
theorem triviaLength_behind (n : Nat) (cs : List Char) :
    triviaLength 0 (cs.drop (triviaLength n cs)) = 0 := by
  fun_induction triviaLength n cs with
  | case1 => rfl
  | case2 n c rest ih => exact ih
  | case3 c rest blank ih => exact ih
  | case4 c rest solid n follows ih => exact ih
  | case5 c rest solid nothing => simp [triviaLength, solid, nothing]

/-- Blanks and line continuations before a lexeme leave nothing open. -/
theorem closed_of_trivia {x rest : List Char} {d : Char}
    (trivia : triviaLength 0 (x ++ d :: rest) = x.length) (solid : isBlank d = false)
    (inside : isLineTerminator d = false) :
    triviaLength 0 x = x.length ∧ leavesOpen 0 x = false := by
  have uncut : ¬ CutsBreak x (d :: rest) := by
    rintro ⟨-, feed⟩
    obtain rfl : d = '\n' := by simpa using feed
    cases inside
  have closed : leavesOpen 0 x = false := by
    by_contra opened
    have early := (triviaLength_of_leavesOpen (Nat.zero_le _) uncut (Bool.of_not_eq_false opened)).2.2
      d rfl solid inside
    omega
  refine ⟨?_, closed⟩
  rw [triviaLength_append (Nat.zero_le _) uncut closed] at trivia
  split at trivia
  next all => exact all
  next => exact trivia

/-- The reader at the same place of the text with blanks at some places. -/
def blankedAt (places : Nat → Bool) (r : Reader) : Reader :=
  ⟨blankAt places r.location.index r.rest, r.location⟩

/-- The reader at the same place of the text without directives. -/
def blank (version : Version) (tab : Nat) (r : Reader) : Reader :=
  ⟨blankAt (inDirective true (r.left version tab)) r.location.index r.rest, r.location⟩

/-- Where a token starts, the reader has passed blanks and line continuations only. -/
theorem exists_solid {t : Token} {rest : List Token} (found : r.left version tab = t :: rest)
    (goesOn : t.kind ≠ .endOfStream) (inside : t.kind ≠ .lineTerminator) :
    ∃ x d z, r.rest = x ++ d :: z ∧ isLineTerminator d = false ∧
      t.span.start.index = r.location.index + x.length ∧
      triviaLength 0 x = x.length ∧ leavesOpen 0 x = false ∧
      ∀ u ∈ rest, t.span.start.index < u.span.start.index := by
  have first : (r.next version tab).1 = t := next_of_left found
  rw [left_of_goesOn (first ▸ goesOn)] at found
  have later (u : Token) (member : u ∈ rest) : t.span.start.index < u.span.start.index := by
    rw [← (List.cons.inj found).2] at member
    rw [← first]
    exact Nat.lt_of_lt_of_le ((index_next version tab r).2.1 (first ▸ goesOn))
      (index_le_of_mem_left member)
  have kind : (Scan.recognize version (r.skipTrivia tab).rest).lexeme.kind = t.kind := by
    rw [← first]
    rfl
  have start := (index_next version tab r).1
  obtain ⟨x, front, -, length, -⟩ := skipTrivia_eq tab r
  have behind := triviaLength_behind 0 r.rest
  rw [← length, front, List.drop_left] at behind
  rw [first, ← length] at start
  rw [front] at length
  cases here : (r.skipTrivia tab).rest with
  | nil =>
    rw [here] at kind
    exact absurd kind.symm goesOn
  | cons d z =>
    rw [here] at kind front behind length
    have within : isLineTerminator d = false := by
      by_contra breaks
      rw [Scan.recognize_lineBreak version z (Bool.of_not_eq_false breaks)] at kind
      exact inside kind.symm
    have solid : isBlank d = false := by
      by_contra blank
      simp [triviaLength, Bool.of_not_eq_false blank] at behind
    obtain ⟨whole, closed⟩ := closed_of_trivia length.symm solid within
    exact ⟨x, d, z, front, within, start, whole, closed, later⟩

section

variable {line rest : List Token} {ending : Token} {c : Char} {more : List Char}

/-- A line break is read in a text with blanks as in the text. -/
theorem Breaks.left_blankedAt (breaks : r.Breaks version tab ending rest y c more)
    (places : Nat → Bool) {l : Location} (index : l.index = ending.span.start.index)
    (line : l.line = ending.span.start.line) :
    ∃ r' : Reader, r'.left version tab = rest ∧ r'.rest.length < r.rest.length ∧
      r'.location = ending.span.finish ∧
      (⟨blankAt places ending.span.start.index (c :: more), l⟩ : Reader).left version tab =
        ⟨.lineTerminator, ⟨l, ending.span.finish⟩⟩ :: (r'.blankedAt places).left version tab := by
  obtain ⟨-, positive, -⟩ := take_lineBreakLength more breaks.isBreak
  obtain ⟨-, finish, rest⟩ := breaks.next_line
  refine ⟨_, rest, ?_, rfl, ?_⟩
  · simp only [breaks.front, List.length_drop, List.length_append, List.length_cons]
    omega
  · have front := blankAt_cons_of_isLineTerminator breaks.isBreak places ending.span.start.index more
    have length := lineBreakLength_blankAt places ending.span.start.index (c :: more)
    have after := blankAt_drop places ending.span.start.index (Scan.lineBreakLength (c :: more))
      (c :: more)
    rw [front] at length after ⊢
    rw [left_lineBreak breaks.isBreak, length, after, index, line, ← finish, ← breaks.index_finish,
      blankedAt]

/-- A line break is read in the text without directives as in the text. -/
theorem Breaks.left_blank (breaks : r.Breaks version tab ending rest y c more)
    {places : Nat → Bool}
    (behind : ∀ i, ending.span.finish.index ≤ i → places i = inDirective true rest i)
    {l : Location} (index : l.index = ending.span.start.index)
    (line : l.line = ending.span.start.line) :
    ∃ r' : Reader, r'.left version tab = rest ∧ r'.rest.length < r.rest.length ∧
      (⟨blankAt places ending.span.start.index (c :: more), l⟩ : Reader).left version tab =
        ⟨.lineTerminator, ⟨l, ending.span.finish⟩⟩ :: (r'.blank version tab).left version tab := by
  obtain ⟨r', left, fewer, start, after⟩ := breaks.left_blankedAt places index line
  refine ⟨r', left, fewer, ?_⟩
  rw [after, blankedAt, blank, left, start, blankAt_congr behind]

section

variable (found : r.left version tab = line ++ ending :: rest)
  (inside : ∀ t ∈ line, t.kind ≠ .lineTerminator) (isBreak : ending.kind = .lineTerminator)
  (breaks : r.Breaks version tab ending rest y c more)
include found inside isBreak breaks

/-- Where a line ends, the directives of the next lines begin. -/
theorem inDirective_left (i : Nat) :
    (ending.span.finish.index ≤ i →
        inDirective true (r.left version tab) i = inDirective true rest i) ∧
      (i < ending.span.finish.index → inDirective true (r.left version tab) i =
        line.head?.any fun t =>
          t.kind == .mark .pound && t.span.start.index ≤ i && i < ending.span.start.index) := by
  have order := breaks.order
  rw [found, inDirective_line inside isBreak]
  simp only [Bool.true_and]
  constructor
  · intro later
    have beyond : decide (i < ending.span.start.index) = false := decide_eq_false (by omega)
    simp [beyond]
  · intro early
    have none : inDirective true rest i = false :=
      inDirective_of_before (fun t member => Nat.lt_of_lt_of_le early (breaks.le_start member)) true
    rw [none, Bool.or_false]

/-- A line that is no directive stays as it is. -/
theorem left_blank_of_plain (plain : (line.head?.any fun t => t.kind == .mark .pound) = false) :
    ∃ r' : Reader, r'.left version tab = rest ∧ r'.rest.length < r.rest.length ∧
      (r.blank version tab).left version tab =
        line ++ ending :: (r'.blank version tab).left version tab := by
  have places := inDirective_left found inside isBreak breaks
  have outside (i : Nat) (early : i < ending.span.finish.index) :
      inDirective true (r.left version tab) i = false := by
    rw [(places i).2 early]
    cases line with
    | nil => rfl
    | cons t line =>
      have other : (t.kind == .mark .pound) = false := by simpa using plain
      simp [other]
  obtain ⟨r', behind, fewer, after⟩ := breaks.left_blank (fun i => (places i).1) rfl rfl
  refine ⟨r', behind, fewer, ?_⟩
  have order := breaks.order
  have index := breaks.index
  have kept : blankAt (inDirective true (r.left version tab)) r.location.index y = y := by
    apply blankAt_of_outside
    intro j later upTo
    exact outside j (by omega)
  have part : Part version tab y r.location line ending.span.start := by
    have scanned : (⟨y ++ c :: more, r.location⟩ : Reader).left version tab = line ++ ending :: rest := by
      rw [← breaks.front]
      exact found
    apply Part.ofLeft scanned
    · exact index
    · exact List.cons_ne_nil c more
    · exact .cons breaks.isBreak more
    · exact breaks.uncut
  have ends : EndsLine (blankAt (inDirective true (r.left version tab)) ending.span.start.index
      (c :: more)) := by
    rw [blankAt_cons_of_isLineTerminator breaks.isBreak]
    exact .cons breaks.isBreak _
  have uncut : ¬ CutsBreak y (blankAt (inDirective true (r.left version tab))
      ending.span.start.index (c :: more)) := by
    rw [blankAt_cons_of_isLineTerminator breaks.isBreak]
    exact breaks.uncut
  rw [blank, breaks.front, blankAt_append, kept, ← index, part.left_append ends uncut, after,
    ← breaks.next_line.1]

end

/-- A directive stands between what is passed before its sign and the end of its line. -/
theorem exists_sign {t : Token} (found : r.left version tab = t :: line ++ ending :: rest)
    (kind : t.kind = .mark .pound) (breaks : r.Breaks version tab ending rest y c more) :
    ∃ x d z, y = x ++ d :: z ∧ isLineTerminator d = false ∧
      t.span.start.index = r.location.index + x.length ∧
      triviaLength 0 x = x.length ∧ leavesOpen 0 x = false := by
  obtain ⟨x, d, w, front, solid, place, whole, closed, later⟩ :=
    exists_solid found (by simp [kind]) (by simp [kind])
  have index := breaks.index
  have early := later ending (by simp)
  obtain ⟨z, rfl, behind⟩ : ∃ z, y = x ++ z ∧ d :: w = z ++ c :: more := by
    rcases List.append_eq_append_iff.1 (front.symm.trans breaks.front) with
      ⟨z, same, behind⟩ | ⟨z, same, behind⟩
    · exact ⟨z, same, behind⟩
    · have length := congrArg List.length same
      rw [List.length_append] at length
      omega
  cases z with
  | nil =>
    have isBreak := breaks.isBreak
    rw [← (List.cons.inj behind).1, solid] at isBreak
    cases isBreak
  | cons e z =>
    obtain rfl := (List.cons.inj behind).1
    exact ⟨x, d, z, rfl, solid, place, whole, closed⟩

/-- What is left of a directive and of what is passed before it. -/
theorem exists_left_of_directive (version : Version) (tab : Nat) {x z : List Char} {d : Char}
    (l : Location)
    (solid : isLineTerminator d = false) (whole : triviaLength 0 x = x.length)
    (closed : leavesOpen 0 x = false) (ends : EndsLine q) (uncut : ¬ CutsBreak (d :: z) q) :
    ∃ breaks, (∀ t ∈ breaks, t.kind = .lineTerminator) ∧
      (⟨x ++ ((d :: z).map blankOut ++ q), l⟩ : Reader).left version tab =
        breaks ++ ((⟨x ++ ((d :: z).map blankOut ++ q), l⟩ : Reader).skip tab
          (x ++ d :: z).length).left version tab := by
  have apart : ¬ CutsBreak x ((d :: z).map blankOut ++ q) := by
    rintro ⟨-, feed⟩
    rw [List.map_cons, blankOut_of_inside solid] at feed
    simp at feed
  have uncut' : ¬ CutsBreak ((d :: z).map blankOut) q := by
    rintro ⟨last, feed⟩
    rw [List.getLast?_map, Option.map_eq_some_iff] at last
    obtain ⟨e, last, same⟩ := last
    exact uncut ⟨by rw [last, (blankOut_eq_iff (by decide)).1 same], feed⟩
  have blanks : ∀ e ∈ (d :: z).map blankOut, isLineTerminator e = true ∨ e = ' ' := by
    intro e member
    obtain ⟨e, -, rfl⟩ := List.mem_map.1 member
    by_cases isBreak : isLineTerminator e = true
    · exact .inl (by rwa [isLineTerminator_blankOut])
    · exact .inr (blankOut_of_inside (Bool.of_not_eq_true isBreak))
  have passed : (⟨x ++ ((d :: z).map blankOut ++ q), l⟩ : Reader).skip tab x.length =
      ⟨(d :: z).map blankOut ++ q,
        ((⟨x ++ ((d :: z).map blankOut ++ q), l⟩ : Reader).skip tab x.length).location⟩ :=
    eq_of_rest (by rw [rest_skip, List.drop_left])
  obtain ⟨breaks, all, left⟩ := exists_left_of_blank version tab
    ((⟨x ++ ((d :: z).map blankOut ++ q), l⟩ : Reader).skip tab x.length).location blanks ends uncut'
  refine ⟨breaks, all, ?_⟩
  rw [← passed, List.length_map, skip_skip, ← List.length_append] at left
  rw [left_trivia l whole closed apart, left]

/-- Blanks in place of a directive leave nothing of its line but line breaks. -/
theorem left_blankedAt_of_directive {t : Token} (found : r.left version tab = t :: line ++ ending :: rest)
    (breaks : r.Breaks version tab ending rest y c more) (kind : t.kind = .mark .pound)
    (places : Nat → Bool)
    (before : ∀ i, r.location.index ≤ i → i < t.span.start.index → places i = false)
    (within : ∀ i, t.span.start.index ≤ i → i < ending.span.start.index → places i = true) :
    ∃ r' : Reader, r'.left version tab = rest ∧ r'.rest.length < r.rest.length ∧
      r'.location = ending.span.finish ∧ ∃ before ending', (∀ u ∈ before, u.kind = .lineTerminator) ∧
        ending'.kind = .lineTerminator ∧ ending'.span.finish = ending.span.finish ∧
        (r.blankedAt places).left version tab =
          before ++ ending' :: (r'.blankedAt places).left version tab := by
  obtain ⟨x, d, z, rfl, solid, place, whole, closed⟩ := exists_sign found kind breaks
  have index := breaks.index
  rw [List.length_append] at index
  have passed : blankAt places r.location.index x = x :=
    blankAt_of_outside fun j later upTo => before j later (by omega)
  have taken : blankAt places (r.location.index + x.length) (d :: z) = (d :: z).map blankOut :=
    blankAt_of_inside fun j behind upTo => within j (by omega) (by omega)
  have front := blankAt_cons_of_isLineTerminator breaks.isBreak places ending.span.start.index more
  generalize rest' : blankAt places ending.span.start.index (c :: more) = q at front
  have blanked : r.blankedAt places = ⟨x ++ ((d :: z).map blankOut ++ q), r.location⟩ := by
    rw [blankedAt, breaks.front, blankAt_append, blankAt_append, passed, taken, List.length_append,
      ← index, rest', List.append_assoc]
  -- in both texts the line break is reached in the same line
  obtain ⟨l, stands⟩ : ∃ l, (r.blankedAt places).skip tab (x ++ d :: z).length = ⟨q, l⟩ := by
    refine ⟨_, eq_of_rest ?_⟩
    have length : (x ++ d :: z).length = (x ++ (d :: z).map blankOut).length := by simp
    rw [rest_skip, blanked, ← List.append_assoc, length, List.drop_left]
  obtain ⟨sameIndex, sameLine⟩ : l.index = ending.span.start.index ∧
      l.line = ending.span.start.line := by
    have there : ((r.blankedAt places).skip tab (x ++ d :: z).length).location.index =
          (r.skip tab (x ++ d :: z).length).location.index ∧
        ((r.blankedAt places).skip tab (x ++ d :: z).length).location.line =
          (r.skip tab (x ++ d :: z).length).location.line :=
      skip_blankAt tab _ _ _ _ rfl rfl
    rw [stands, breaks.start] at there
    exact there
  obtain ⟨r', behind, fewer, start, after⟩ := breaks.left_blankedAt places sameIndex sameLine
  have ends : EndsLine q := by
    rw [front]
    exact .cons breaks.isBreak _
  have uncut : ¬ CutsBreak (d :: z) q := by
    intro cut
    refine breaks.uncut (CutsBreak.of_drop (n := x.length) ?_)
    rw [List.drop_left]
    exact ⟨cut.1, by rw [front] at cut; exact cut.2⟩
  obtain ⟨before, all, left⟩ := exists_left_of_directive version tab r.location solid
    whole closed ends uncut
  refine ⟨r', behind, fewer, start, before, ⟨.lineTerminator, ⟨l, ending.span.finish⟩⟩, all, rfl, rfl, ?_⟩
  rw [rest'] at after
  rw [blanked, left, ← blanked, stands, after]

/-- A directive leaves nothing of its line but line breaks. -/
theorem left_blank_of_directive {t : Token} (found : r.left version tab = t :: line ++ ending :: rest)
    (inside : ∀ u ∈ t :: line, u.kind ≠ .lineTerminator) (isBreak : ending.kind = .lineTerminator)
    (breaks : r.Breaks version tab ending rest y c more) (kind : t.kind = .mark .pound) :
    ∃ r' : Reader, r'.left version tab = rest ∧ r'.rest.length < r.rest.length ∧
      ∃ before ending', (∀ u ∈ before, u.kind = .lineTerminator) ∧
        ending'.kind = .lineTerminator ∧ ending'.span.finish = ending.span.finish ∧
        (r.blank version tab).left version tab =
          before ++ ending' :: (r'.blank version tab).left version tab := by
  have places := inDirective_left found inside isBreak breaks
  have order := breaks.order
  obtain ⟨-, -, -, -, -, -, -, -, later⟩ := exists_solid found (by simp [kind]) (by simp [kind])
  have sooner : t.span.start.index < ending.span.start.index := later ending (by simp)
  obtain ⟨r', behind, fewer, start, before, ending', all, isBreak', finish, after⟩ :=
    left_blankedAt_of_directive found breaks kind (inDirective true (r.left version tab))
      (fun j _ upTo => by
        rw [(places j).2 (by omega)]
        simp [Nat.not_le.2 upTo])
      (fun j behind upTo => by
        rw [(places j).2 (by omega)]
        simp [kind, behind, upTo])
  refine ⟨r', behind, fewer, before, ending', all, isBreak', finish, after.trans ?_⟩
  rw [blankedAt, blank, behind, start, blankAt_congr fun j => (places j).1]

end

/-- Behind a comment its line ends. -/
theorem left_comment {t u : Token} {rest : List Token} (found : r.left version tab = t :: u :: rest)
    (remark : t.kind = .comment) : u.kind = .lineTerminator ∨ u.kind = .endOfStream := by
  have here := next_of_left found
  have goesOn : (r.next version tab).1.kind ≠ .endOfStream := by simp [here, remark]
  rw [left_of_goesOn goesOn] at found
  have behind := next_of_left (List.cons.inj found).2
  have ends : EndsLine (r.next version tab).2.rest := by
    have kind : (Scan.recognize version (r.skipTrivia tab).rest).lexeme.kind = .comment := by
      rw [← remark, ← here]
      rfl
    have ends := Scan.endsLine_of_comment kind
    rw [← rest_skip tab] at ends
    exact ends
  rw [← behind]
  rcases ends.cases with none | ⟨c, more, front, isBreak⟩
  · right
    rw [eq_of_rest none]
    rfl
  · left
    rw [eq_of_rest front, next_lineBreak version tab more isBreak]
    rfl

/-- A mark at the start of the text is no part of what is read. -/
theorem ofText_blankAt (tab : Nat) {places : Nat → Bool} {text : List Char}
    (marked : text.head? = some byteOrderMark → places 0 = false) :
    ofText tab (blankAt places 0 text) = (ofText tab text).blankedAt places := by
  by_cases mark : text.head? = some byteOrderMark
  · obtain ⟨rest, rfl⟩ := List.head?_eq_some_iff.1 mark
    rw [blankAt_cons, marked mark, if_neg Bool.false_ne_true]
    rfl
  · have unmarked : ofText tab text = ⟨text, .origin⟩ := if_neg mark
    rw [unmarked, blankedAt]
    apply if_neg
    intro marked
    cases text with
    | nil => cases marked
    | cons c rest =>
      rw [blankAt_cons, List.head?_cons, Option.some_inj] at marked
      split at marked
      · by_cases isBreak : isLineTerminator c = true
        · rw [blankOut_of_isLineTerminator isBreak] at marked
          exact mark (congrArg some marked)
        · rw [blankOut_of_inside (Bool.of_not_eq_true isBreak)] at marked
          cases marked
      · exact mark (congrArg some marked)

end Reader

theorem tokenize_eq_left (version : Version) (tab : Nat) (text : List Char) :
    tokenize version tab text = (Reader.ofText tab text).left version tab := by
  have fits : (Reader.ofText tab text).rest.length ≤ text.length := by
    unfold Reader.ofText
    dsimp only
    split
    · rw [Reader.rest_skip, List.length_drop]
      exact Nat.sub_le _ _
    · exact Nat.le_refl _
  exact Reader.tokens_eq_tokens (Nat.lt_succ_of_le fits) (Nat.lt_succ_self _)

end VisualBasic
