import VisualBasic.Proofs.Scan.Line

/-!
Reading a text in two parts.  Where a line ends, the tokens before and behind can be read on their
own, unless a line break is cut in two or a line continuation takes the end of the line.
-/

set_option autoImplicit false

namespace VisualBasic

/-- The first part ends, and the second one goes on, within a line break. -/
def CutsBreak (y q : List Char) : Prop := y.getLast? = some '\r' ∧ q.head? = some '\n'

theorem CutsBreak.of_drop {y q : List Char} {n : Nat} (cut : CutsBreak (y.drop n) q) :
    CutsBreak y q := by
  obtain ⟨last, head⟩ := cut
  refine ⟨?_, head⟩
  rw [List.getLast?_drop] at last
  split at last
  · cases last
  · exact last

namespace Scan

variable {y q : List Char}

theorem lineBreakLength_append (within : y ≠ []) (uncut : ¬ CutsBreak y q) :
    lineBreakLength (y ++ q) = lineBreakLength y := by
  obtain ⟨c, rest, rfl⟩ := List.exists_cons_of_ne_nil within
  cases rest with
  | nil =>
    unfold lineBreakLength
    split
    next after both =>
      obtain ⟨rfl, follows⟩ := List.cons.inj both
      exact absurd ⟨rfl, by rw [show q = '\n' :: after from follows]; rfl⟩ uncut
    next => split <;> simp_all
  | cons d rest =>
    unfold lineBreakLength
    grind

theorem recognize_lineBreak {c : Char} (version : Version) (rest : List Char)
    (isBreak : isLineTerminator c = true) :
    recognize version (c :: rest) = ⟨.lineTerminator, lineBreakLength (c :: rest)⟩ := by
  have starts : startOf c rest.head? = .lineBreak := by simp [startOf, isBreak]
  rw [recognize, starts]

/-- What is recognised in the first part does not depend on the second one. -/
theorem recognize_append (version : Version) (within : y ≠ []) (ends : EndsLine q)
    (uncut : ¬ CutsBreak y q) : recognize version (y ++ q) = recognize version y := by
  have parts := List.takeWhile_append_dropWhile (p := fun c => !isLineTerminator c) (l := y)
  by_cases first : lineText y = []
  · obtain ⟨c, rest, rfl⟩ := List.exists_cons_of_ne_nil within
    have isBreak : isLineTerminator c = true := by
      simpa [lineText, List.takeWhile_cons] using first
    rw [List.cons_append, recognize_lineBreak version _ isBreak,
      recognize_lineBreak version _ isBreak, ← List.cons_append,
      lineBreakLength_append within uncut]
  · have inside (c : Char) (member : c ∈ lineText y) : isLineTerminator c = false := by
      simpa using List.mem_takeWhile_imp member
    have stops : EndsLine (y.dropWhile fun c => !isLineTerminator c) := by
      intro c head
      have := List.head?_dropWhile_not (fun c => !isLineTerminator c) y
      rw [head] at this
      simpa using this
    have stops' : EndsLine ((y.dropWhile fun c => !isLineTerminator c) ++ q) := by
      rcases stops.cases with none | ⟨c, rest, some, isBreak⟩
      · rwa [none, List.nil_append]
      · rw [some, List.cons_append]
        exact .cons isBreak _
    calc recognize version (y ++ q)
        = recognize version (lineText y ++ ((y.dropWhile fun c => !isLineTerminator c) ++ q)) := by
          rw [lineText, ← List.append_assoc, parts]
      _ = recognize version (lineText y) := recognize_endsLine version first inside stops'
      _ = recognize version (lineText y ++ y.dropWhile fun c => !isLineTerminator c) :=
          (recognize_endsLine version first inside stops).symm
      _ = recognize version y := by rw [lineText, parts]

end Scan

namespace Reader

variable {y q : List Char}

theorem skip_append (tab n : Nat) (l : Location) (fits : n ≤ y.length) (uncut : ¬ CutsBreak y q) :
    (⟨y ++ q, l⟩ : Reader).skip tab n =
      ⟨((⟨y, l⟩ : Reader).skip tab n).rest ++ q, ((⟨y, l⟩ : Reader).skip tab n).location⟩ := by
  induction n generalizing y l with
  | zero => rfl
  | succ n ih =>
    cases y with
    | nil => cases fits
    | cons c y =>
      have next : l.advance tab c (y ++ q).head? = l.advance tab c y.head? := by
        cases y with
        | cons => rfl
        | nil =>
          unfold Location.advance
          by_cases cr : c = '\r'
          · have other : (q.head? == some '\n') = false := by
              rw [beq_eq_false_iff_ne]
              exact fun head => uncut ⟨by rw [cr]; rfl, head⟩
            simp [cr, other]
          · simp [cr]
      show Reader.skip tab n ⟨y ++ q, l.advance tab c (y ++ q).head?⟩ = _
      rw [next]
      exact ih _ (Nat.le_of_succ_le_succ fits) fun cut => uncut (cut.of_drop (y := c :: y) (n := 1))

/-- The blanks and line continuations that a text starts with end in a continuation whose line break
is still to come. -/
def leavesOpen : Nat → List Char → Bool
  | _, [] => false
  | n + 1, _ :: rest => leavesOpen n rest
  | 0, c :: rest =>
    if isBlank c then leavesOpen 0 rest
    else match continuationTail? c rest with
      | some n => rest.all isBlank || leavesOpen n rest
      | none => false

theorem continuationTail?_of_ne {c : Char} (other : halfWidth c ≠ '_') (rest : List Char) :
    continuationTail? c rest = none :=
  if_neg other

theorem continuationTail?_of_blank {c : Char} (underscore : halfWidth c = '_')
    (blank : y.all isBlank = true) (ends : EndsLine q) :
    continuationTail? c (y ++ q) =
      some (y.length + if q = [] then 0 else Scan.lineBreakLength q) := by
  have all : y.takeWhile isBlank = y :=
    List.takeWhile_eq_self_iff.2 fun c member => List.all_eq_true.1 blank c member
  unfold continuationTail?
  rw [if_pos underscore]
  simp only [ends.takeWhile_append fun _ => not_isLineTerminator_of_isBlank, all, List.drop_left]
  rcases ends.cases with rfl | ⟨d, rest, rfl, isBreak⟩
  · rfl
  · simp [isBreak]

theorem takeWhile_isBlank_append (solid : ¬ y.all isBlank = true) (q : List Char) :
    (y ++ q).takeWhile isBlank = y.takeWhile isBlank := by
  rw [List.takeWhile_append, if_neg]
  intro all
  have whole := (List.takeWhile_prefix isBlank).eq_of_length all
  exact solid (List.all_eq_true.2 (List.takeWhile_eq_self_iff.1 whole))

/-- Whether a continuation follows shows at the first character that is no blank. -/
theorem continuationTail?_append {c : Char} (solid : ¬ y.all isBlank = true)
    (uncut : ¬ CutsBreak y q) : continuationTail? c (y ++ q) = continuationTail? c y := by
  unfold continuationTail?
  simp only [takeWhile_isBlank_append solid, Scan.drop_takeWhile_append]
  cases behind : y.drop (y.takeWhile isBlank).length with
  | nil =>
    rw [drop_length_takeWhile, List.dropWhile_eq_nil_iff] at behind
    exact absurd (List.all_eq_true.2 behind) solid
  | cons d rest =>
    have uncut : ¬ CutsBreak (d :: rest) q := by
      rw [← behind]
      exact fun cut => uncut cut.of_drop
    have same := Scan.lineBreakLength_append (List.cons_ne_nil d rest) uncut
    rw [List.cons_append] at same
    simp only [List.cons_append, same]

theorem continuationTail?_le {c : Char} {rest : List Char} {n : Nat}
    (tail : continuationTail? c rest = some n) : n ≤ rest.length := by
  obtain ⟨_, blanks, ending, more, same, length, -⟩ := startsContinuation_of_tail tail
  obtain ⟨-, rfl⟩ := List.cons.inj same
  simp only [List.length_append]
  omega

theorem le_triviaLength {n : Nat} {cs : List Char} (fits : n ≤ cs.length) :
    n ≤ triviaLength n cs := by
  induction n generalizing cs with
  | zero => exact Nat.zero_le _
  | succ n ih =>
    cases cs with
    | nil => cases fits
    | cons c rest => exact Nat.succ_le_succ (ih (Nat.le_of_succ_le_succ fits))

theorem triviaLength_of_endsLine (ends : EndsLine q) : triviaLength 0 q = 0 := by
  rcases ends.cases with rfl | ⟨c, rest, rfl, isBreak⟩
  · rfl
  · rcases isLineTerminator_cases isBreak with rfl | rfl | rfl | rfl <;> rfl

theorem not_cutsBreak_tail {c : Char} (uncut : ¬ CutsBreak (c :: y) q) : ¬ CutsBreak y q :=
  fun cut => uncut (cut.of_drop (y := c :: y) (n := 1))

/-- What stands before the next lexeme does not depend on the second part, or goes on in it. -/
theorem triviaLength_append {n : Nat} (fits : n ≤ y.length) (uncut : ¬ CutsBreak y q)
    (closed : leavesOpen n y = false) :
    triviaLength n (y ++ q) =
      if triviaLength n y = y.length then y.length + triviaLength 0 q else triviaLength n y := by
  fun_induction leavesOpen n y with
  | case1 n =>
    obtain rfl := Nat.le_zero.1 fits
    simp [triviaLength]
  | case2 n c rest ih =>
    simp only [List.cons_append, triviaLength, List.length_cons, Nat.add_right_cancel_iff,
      ih (Nat.le_of_succ_le_succ fits) (not_cutsBreak_tail uncut) closed]
    split <;> omega
  | case3 c rest blank ih =>
    simp only [List.cons_append, triviaLength, blank, if_true, List.length_cons,
      Nat.add_right_cancel_iff, ih (Nat.zero_le _) (not_cutsBreak_tail uncut) closed]
    split <;> omega
  | case4 c rest solid n follows ih =>
    obtain ⟨mixed, closed⟩ := Bool.or_eq_false_iff.1 closed
    have same := (continuationTail?_append (c := c) (Bool.eq_false_iff.1 mixed)
      (not_cutsBreak_tail uncut)).trans follows
    simp only [List.cons_append, triviaLength, solid, same, follows, List.length_cons,
      Bool.false_eq_true, if_false, Nat.add_right_cancel_iff,
      ih (continuationTail?_le follows) (not_cutsBreak_tail uncut) closed]
    split <;> omega
  | case5 c rest solid nothing =>
    have same : continuationTail? c (rest ++ q) = none := by
      by_cases underscore : halfWidth c = '_'
      · have mixed : ¬ rest.all isBlank = true := fun blank => by
          have all := continuationTail?_of_blank underscore blank .nil
          rw [List.append_nil, nothing] at all
          cases all
        rw [continuationTail?_append mixed (not_cutsBreak_tail uncut), nothing]
      · exact continuationTail?_of_ne underscore _
    simp [triviaLength, solid, same, nothing]

/-- A continuation that is left open takes the line break which the second part starts with.  If
something else follows, it is none. -/
theorem triviaLength_of_leavesOpen {n : Nat} (fits : n ≤ y.length) (uncut : ¬ CutsBreak y q)
    (opened : leavesOpen n y = true) :
    triviaLength n y = y.length ∧
      (EndsLine q → q ≠ [] → y.length < triviaLength n (y ++ q)) ∧
      (∀ c ∈ q.head?, isBlank c = false → isLineTerminator c = false →
        triviaLength n (y ++ q) < y.length) := by
  fun_induction leavesOpen n y with
  | case1 n => cases opened
  | case2 n c rest ih =>
    obtain ⟨whole, taken, none⟩ := ih (Nat.le_of_succ_le_succ fits) (not_cutsBreak_tail uncut) opened
    simp only [List.cons_append, triviaLength, List.length_cons, Nat.add_lt_add_iff_right]
    exact ⟨by rw [whole], taken, none⟩
  | case3 c rest blank ih =>
    obtain ⟨whole, taken, none⟩ := ih (Nat.zero_le _) (not_cutsBreak_tail uncut) opened
    simp only [List.cons_append, triviaLength, blank, if_true, List.length_cons,
      Nat.add_lt_add_iff_right]
    exact ⟨by rw [whole], taken, none⟩
  | case4 c rest solid n follows ih =>
    have fits := continuationTail?_le follows
    have underscore : halfWidth c = '_' := by
      by_contra other
      simp [continuationTail?_of_ne other] at follows
    by_cases blank : rest.all isBlank = true
    · -- the continuation takes the rest, and the line break behind it
      simp only [List.cons_append, triviaLength, solid, List.length_cons, Bool.false_eq_true,
        if_false]
      refine ⟨?_, fun ends more => ?_, fun d head ink inside => ?_⟩
      · have all := continuationTail?_of_blank underscore blank .nil
        simp only [List.append_nil, if_true, Nat.add_zero] at all
        have := le_triviaLength (Nat.le_refl rest.length)
        have := triviaLength_le rest.length rest
        simp only [all]
        omega
      · have all := continuationTail?_of_blank underscore blank ends
        rw [if_neg more] at all
        obtain ⟨d, behind, rfl⟩ := List.exists_cons_of_ne_nil more
        obtain ⟨-, positive, within⟩ := take_lineBreakLength behind (ends d rfl)
        have reach : rest.length + Scan.lineBreakLength (d :: behind) ≤
            triviaLength (rest.length + Scan.lineBreakLength (d :: behind)) (rest ++ d :: behind) :=
          le_triviaLength (by simp only [List.length_append]; omega)
        simp only [all]
        omega
      · obtain ⟨behind, rfl⟩ := List.head?_eq_some_iff.1 head
        have nothing : continuationTail? c (rest ++ d :: behind) = none := by
          have blanks : (rest ++ d :: behind).takeWhile isBlank = rest := by
            rw [List.takeWhile_append_of_pos fun e member => List.all_eq_true.1 blank e member]
            simp [ink]
          unfold continuationTail?
          rw [if_pos underscore]
          simp [blanks, inside]
        simp only [nothing]
        omega
    · have same := (continuationTail?_append (c := c) blank (not_cutsBreak_tail uncut)).trans follows
      rw [Bool.eq_false_iff.2 blank, Bool.false_or] at opened
      obtain ⟨whole, taken, none⟩ := ih fits (not_cutsBreak_tail uncut) opened
      simp only [List.cons_append, triviaLength, solid, same, follows, List.length_cons,
        Bool.false_eq_true, if_false, Nat.add_lt_add_iff_right]
      exact ⟨by rw [whole], taken, none⟩
  | case5 c rest solid nothing => cases opened

/-- Where the second part starts with the end of the line, nothing goes on in it. -/
theorem triviaLength_endsLine (ends : EndsLine q) (uncut : ¬ CutsBreak y q)
    (closed : leavesOpen 0 y = false) : triviaLength 0 (y ++ q) = triviaLength 0 y := by
  rw [triviaLength_append (Nat.zero_le _) uncut closed, triviaLength_of_endsLine ends]
  split <;> omega

-- Tokens

/-- What the reader still finds. -/
def left (version : Version) (tab : Nat) (r : Reader) : List Token :=
  r.tokens version tab (r.rest.length + 1)

variable {version : Version} {tab : Nat} {r : Reader}

theorem recognize_fits (version : Version) (cs : List Char) :
    (Scan.recognize version cs).length ≤ cs.length := by
  cases cs with
  | nil => exact Nat.le_refl 0
  | cons c rest =>
    rcases Scan.recognize_cons version c rest with takes | ⟨ends, isBreak⟩
    · exact takes.clear.1
    · rw [isBreak]
      exact (take_lineBreakLength rest ends).2.2

/-- Only at the end of the text nothing is taken. -/
theorem recognize_pos {cs : List Char}
    (goesOn : (Scan.recognize version cs).lexeme.kind ≠ .endOfStream) :
    0 < (Scan.recognize version cs).length := by
  cases cs with
  | nil => exact absurd rfl goesOn
  | cons c rest =>
    rcases Scan.recognize_cons version c rest with takes | ⟨ends, isBreak⟩
    · exact takes.positive
    · rw [isBreak]
      exact (take_lineBreakLength rest ends).2.1

/-- What has been read and what is left are the text. -/
theorem index_skip_add (tab : Nat) {n : Nat} (r : Reader) (fits : n ≤ r.rest.length) :
    (r.skip tab n).location.index = r.location.index + n ∧
      (r.skip tab n).location.index + (r.skip tab n).rest.length =
        r.location.index + r.rest.length := by
  rw [index_skip fits, rest_skip, List.length_drop]
  omega

theorem index_next (version : Version) (tab : Nat) (r : Reader) :
    (r.next version tab).1.span.start.index = r.location.index + triviaLength 0 r.rest ∧
      ((r.next version tab).1.kind ≠ .endOfStream →
        (r.next version tab).1.span.start.index < (r.next version tab).2.location.index) ∧
      (r.next version tab).2.location.index + (r.next version tab).2.rest.length =
        r.location.index + r.rest.length := by
  obtain ⟨start, kept⟩ := index_skip_add tab r (triviaLength_le 0 r.rest)
  obtain ⟨finish, kept'⟩ := index_skip_add tab (r.skipTrivia tab)
    (recognize_fits version (r.skipTrivia tab).rest)
  refine ⟨start, fun goesOn => ?_, kept'.trans kept⟩
  exact Nat.lt_of_lt_of_eq (Nat.lt_add_of_pos_right (recognize_pos goesOn)) finish.symm

/-- A token that is not the end takes some of the text. -/
theorem rest_next_lt (goesOn : (r.next version tab).1.kind ≠ .endOfStream) :
    (r.next version tab).2.rest.length < r.rest.length := by
  obtain ⟨start, wide, kept⟩ := index_next version tab r
  have := wide goesOn
  omega

theorem tokens_succ (n : Nat) : r.tokens version tab (n + 1) =
    if (r.next version tab).1.kind = .endOfStream then [(r.next version tab).1]
    else (r.next version tab).1 :: (r.next version tab).2.tokens version tab n :=
  rfl

theorem tokens_eq_tokens {m n : Nat} (enough : r.rest.length < m) (also : r.rest.length < n) :
    r.tokens version tab m = r.tokens version tab n := by
  induction m generalizing r n with
  | zero => cases enough
  | succ m ih =>
    obtain ⟨n, rfl⟩ : ∃ k, n = k + 1 := ⟨n - 1, by omega⟩
    rw [tokens_succ, tokens_succ]
    split
    next => rfl
    next goesOn =>
      have fewer := rest_next_lt goesOn
      rw [ih (n := n) (by omega) (by omega)]

theorem left_of_ends (ends : (r.next version tab).1.kind = .endOfStream) :
    r.left version tab = [(r.next version tab).1] := by
  rw [left, tokens_succ, if_pos ends]

theorem left_of_goesOn (goesOn : (r.next version tab).1.kind ≠ .endOfStream) :
    r.left version tab = (r.next version tab).1 :: (r.next version tab).2.left version tab := by
  rw [left, tokens_succ, if_neg goesOn]
  exact congrArg _ (tokens_eq_tokens (rest_next_lt goesOn) (Nat.lt_succ_self _))

theorem next_of_left {t : Token} {rest : List Token} (found : r.left version tab = t :: rest) :
    (r.next version tab).1 = t := by
  by_cases ends : (r.next version tab).1.kind = .endOfStream
  · exact (List.cons.inj ((left_of_ends ends).symm.trans found)).1
  · exact (List.cons.inj ((left_of_goesOn ends).symm.trans found)).1

theorem left_congr {r' : Reader} (same : r.next version tab = r'.next version tab) :
    r.left version tab = r'.left version tab := by
  by_cases ends : (r.next version tab).1.kind = .endOfStream
  · rw [left_of_ends ends, left_of_ends (r := r') (same ▸ ends), same]
  · rw [left_of_goesOn ends, left_of_goesOn (r := r') (same ▸ ends), same]

theorem kind_next_of_lt (starts : triviaLength 0 r.rest < r.rest.length) :
    (r.next version tab).1.kind ≠ .endOfStream := by
  have start : (r.skipTrivia tab).rest = r.rest.drop (triviaLength 0 r.rest) := rest_skip ..
  show (Scan.recognize version (r.skipTrivia tab).rest).lexeme.kind ≠ _
  rw [start]
  cases front : r.rest.drop (triviaLength 0 r.rest) with
  | nil =>
    have := List.drop_eq_nil_iff.1 front
    omega
  | cons c rest =>
    rcases Scan.recognize_cons version c rest with takes | ⟨ends, isBreak⟩
    · exact takes.proper.kind_ne.1
    · rw [isBreak]
      simp [Lexeme.kind]

/-- A token that starts in the first part is read from the first part alone. -/
theorem next_append (version : Version) (tab : Nat) (l : Location)
    (starts : triviaLength 0 y < y.length) (ends : EndsLine q) (uncut : ¬ CutsBreak y q) :
    (⟨y ++ q, l⟩ : Reader).next version tab =
      let alone := (⟨y, l⟩ : Reader).next version tab
      (alone.1, ⟨alone.2.rest ++ q, alone.2.location⟩) := by
  have closed : leavesOpen 0 y = false := by
    by_contra opened
    have := (triviaLength_of_leavesOpen (Nat.zero_le _) uncut (Bool.of_not_eq_false opened)).1
    omega
  have start : (⟨y ++ q, l⟩ : Reader).skipTrivia tab =
      ⟨((⟨y, l⟩ : Reader).skipTrivia tab).rest ++ q, ((⟨y, l⟩ : Reader).skipTrivia tab).location⟩ := by
    unfold skipTrivia
    rw [triviaLength_endsLine ends uncut closed]
    exact skip_append tab _ l (Nat.le_of_lt starts) uncut
  have front : ((⟨y, l⟩ : Reader).skipTrivia tab).rest = y.drop (triviaLength 0 y) := rest_skip ..
  have within : ((⟨y, l⟩ : Reader).skipTrivia tab).rest ≠ [] := by
    rw [front, Ne, List.drop_eq_nil_iff]
    omega
  have uncut' : ¬ CutsBreak ((⟨y, l⟩ : Reader).skipTrivia tab).rest q := by
    rw [front]
    exact fun cut => uncut cut.of_drop
  unfold next
  simp only [start]
  rw [Scan.recognize_append version within ends uncut']
  have skipped := skip_append tab
    (Scan.recognize version ((⟨y, l⟩ : Reader).skipTrivia tab).rest).length
    ((⟨y, l⟩ : Reader).skipTrivia tab).location (recognize_fits version _) uncut'
  rw [skipped]

/-- A part of a text, read from a location on: its tokens, and where it ends. -/
inductive Part (version : Version) (tab : Nat) :
    List Char → Location → List Token → Location → Prop where
  | done {y : List Char} {l : Location} : leavesOpen 0 y = false → triviaLength 0 y = y.length →
      Part version tab y l [] ((⟨y, l⟩ : Reader).skip tab y.length).location
  | token {y : List Char} {l l' : Location} {ts : List Token} : triviaLength 0 y < y.length →
      Part version tab ((⟨y, l⟩ : Reader).next version tab).2.rest
        ((⟨y, l⟩ : Reader).next version tab).2.location ts l' →
      Part version tab y l (((⟨y, l⟩ : Reader).next version tab).1 :: ts) l'

theorem cutsBreak_of_next {l : Location}
    (cut : CutsBreak ((⟨y, l⟩ : Reader).next version tab).2.rest q) : CutsBreak y q := by
  have after : ((⟨y, l⟩ : Reader).next version tab).2.rest =
      (y.drop (triviaLength 0 y)).drop
        (Scan.recognize version ((⟨y, l⟩ : Reader).skipTrivia tab).rest).length := by
    show (Reader.skip tab _ _).rest = _
    rw [rest_skip]
    exact congrArg (List.drop _) (rest_skip ..)
  rw [after] at cut
  exact cut.of_drop.of_drop

/-- Where a line ends, reading goes on behind it as if the text began there. -/
theorem Part.left_append {l l' : Location} {ts : List Token} (part : Part version tab y l ts l')
    (ends : EndsLine q) (uncut : ¬ CutsBreak y q) :
    (⟨y ++ q, l⟩ : Reader).left version tab = ts ++ (⟨q, l'⟩ : Reader).left version tab := by
  induction part with
  | @done y l closed all =>
    refine left_congr ?_
    have start : (⟨y ++ q, l⟩ : Reader).skipTrivia tab =
        (⟨q, ((⟨y, l⟩ : Reader).skip tab y.length).location⟩ : Reader).skipTrivia tab := by
      unfold skipTrivia
      rw [triviaLength_endsLine ends uncut closed, all, triviaLength_of_endsLine ends,
        skip_append tab _ l (Nat.le_refl _) uncut, rest_skip]
      simp [skip]
    unfold next
    rw [start]
  | @token y l l' ts starts _ ih =>
    have step := next_append version tab l starts ends uncut
    have goesOn : ((⟨y ++ q, l⟩ : Reader).next version tab).1.kind ≠ .endOfStream := by
      rw [step]
      exact kind_next_of_lt starts
    rw [left_of_goesOn goesOn, step]
    exact congrArg _ (ih fun cut => uncut (cutsBreak_of_next cut))

/-- Nothing is found before the place where the reader stands. -/
theorem index_le_of_mem_left {t : Token} (member : t ∈ r.left version tab) :
    r.location.index ≤ t.span.start.index := by
  generalize size : r.rest.length = n
  induction n using Nat.strong_induction_on generalizing r with
  | _ n ih =>
    obtain ⟨start, wide, -⟩ := index_next version tab r
    by_cases ends : (r.next version tab).1.kind = .endOfStream
    · rw [left_of_ends ends] at member
      obtain rfl := List.mem_singleton.1 member
      omega
    · rw [left_of_goesOn ends] at member
      rcases List.mem_cons.1 member with rfl | later
      · omega
      · have := ih _ (size ▸ rest_next_lt ends) later rfl
        have := wide ends
        omega

/-- A part that ends where a token starts can be read on its own. -/
theorem Part.ofLeft {l : Location} {line rest : List Token} {ending : Token}
    (found : (⟨y ++ q, l⟩ : Reader).left version tab = line ++ ending :: rest)
    (place : ending.span.start.index = l.index + y.length) (more : q ≠ []) (ends : EndsLine q)
    (uncut : ¬ CutsBreak y q) : Part version tab y l line ending.span.start := by
  -- a token starts in the part or where it ends, so no continuation is left open
  have closed (y : List Char) (uncut : ¬ CutsBreak y q)
      (upTo : triviaLength 0 (y ++ q) ≤ y.length) :
      leavesOpen 0 y = false ∧ triviaLength 0 (y ++ q) = triviaLength 0 y := by
    cases state : leavesOpen 0 y with
    | false => exact ⟨rfl, triviaLength_endsLine ends uncut state⟩
    | true =>
      have taken := (triviaLength_of_leavesOpen (Nat.zero_le _) uncut state).2.1 ends more
      omega
  induction line generalizing y l with
  | nil =>
    have first : ((⟨y ++ q, l⟩ : Reader).next version tab).1 = ending := next_of_left found
    obtain ⟨start, -, -⟩ := index_next version tab ⟨y ++ q, l⟩
    rw [first, place] at start
    have all : triviaLength 0 (y ++ q) = y.length := by
      simp only at start
      omega
    obtain ⟨shut, same⟩ := closed y uncut (Nat.le_of_eq all)
    have last : ending.span.start = ((⟨y, l⟩ : Reader).skip tab y.length).location := by
      rw [← first]
      show ((⟨y ++ q, l⟩ : Reader).skip tab (triviaLength 0 (y ++ q))).location = _
      rw [all, skip_append tab _ l (Nat.le_refl _) uncut]
    rw [last]
    exact .done shut (same.symm.trans all)
  | cons t line ih =>
    have goesOn : ((⟨y ++ q, l⟩ : Reader).next version tab).1.kind ≠ .endOfStream := by
      intro atEnd
      rw [left_of_ends atEnd] at found
      simp at found
    rw [left_of_goesOn goesOn] at found
    obtain ⟨first, found⟩ := List.cons.inj found
    obtain ⟨start, wide, -⟩ := index_next version tab ⟨y ++ q, l⟩
    have member : ending ∈ ((⟨y ++ q, l⟩ : Reader).next version tab).2.left version tab := by
      rw [found]
      exact List.mem_append_right line List.mem_cons_self
    have before := index_le_of_mem_left member
    have := wide goesOn
    simp only at start
    have upTo : triviaLength 0 (y ++ q) < y.length := by omega
    obtain ⟨-, same⟩ := closed y uncut (Nat.le_of_lt upTo)
    have starts : triviaLength 0 y < y.length := same ▸ upTo
    have step := next_append version tab l starts ends uncut
    obtain ⟨-, -, kept⟩ := index_next version tab ⟨y, l⟩
    rw [← first, step]
    refine .token starts (ih ?_ ?_ fun cut => uncut (cutsBreak_of_next cut))
    · rw [step] at found
      exact found
    · simp only at kept
      omega

end Reader

end VisualBasic
