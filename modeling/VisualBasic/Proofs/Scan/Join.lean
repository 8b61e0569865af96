import VisualBasic.Proofs.Scan.Blank
import VisualBasic.Proofs.Scan.Width
import VisualBasic.Proofs.Syntax.RelocateStatement

/-!
A text behind another one.  The tokens of two texts with a line feed between them are those of the
first text, the line feed, and those of the second text at other places, unless the line feed is
taken by what the first text ends with.
-/

set_option autoImplicit false

namespace VisualBasic

/-- Where a location of a text goes when another text, which ends at `e` where a line does, is put
before it: characters and lines are counted from there, and columns stay. -/
def Location.behind (e l : Location) : Location :=
  ⟨e.index + l.index, e.line - 1 + l.line, l.column⟩

/-- The underscore of a line continuation ends the text, perhaps with blanks behind it.  The
underscore belongs to no token. -/
def EndsContinued (text : List Char) (tokens : List Token) : Prop :=
  ∃ front underscore blanks, text = front ++ underscore :: blanks ∧ halfWidth underscore = '_' ∧
    blanks.all isBlank = true ∧
    ∀ t ∈ tokens, t.kind ≠ .endOfStream → t.span.finish.index ≤ front.length

/-- Whether a text ends with the underscore of a continuation is seen at its last character that is
no blank. -/
theorem endsContinued_iff {text : List Char} {tokens : List Token} :
    EndsContinued text tokens ↔
      ((text.reverse.dropWhile isBlank).head?.any fun c => halfWidth c == '_') = true ∧
        ∀ t ∈ tokens, t.kind ≠ .endOfStream →
          t.span.finish.index ≤ (text.reverse.dropWhile isBlank).length - 1 := by
  constructor
  · rintro ⟨front, underscore, blanks, rfl, ends, blank, early⟩
    have solid : isBlank underscore = false := by
      rw [← isBlank_halfWidth, ends]
      rfl
    have rest : (front ++ underscore :: blanks).reverse.dropWhile isBlank =
        underscore :: front.reverse := by
      rw [List.reverse_append, List.reverse_cons, List.append_assoc, List.dropWhile_append_of_pos,
        List.singleton_append, List.dropWhile_cons_of_neg (by simp [solid])]
      simpa using blank
    rw [rest]
    refine ⟨by simp [ends], fun t member goesOn => ?_⟩
    simpa using early t member goesOn
  · rintro ⟨last, early⟩
    have whole := List.takeWhile_append_dropWhile (p := isBlank) (l := text.reverse)
    cases rest : text.reverse.dropWhile isBlank with
    | nil => simp [rest] at last
    | cons underscore front =>
      rw [rest] at whole last early
      refine ⟨front.reverse, underscore, (text.reverse.takeWhile isBlank).reverse, ?_, ?_, ?_, ?_⟩
      · simpa using (congrArg List.reverse whole).symm
      · simpa using last
      · simp
      · simpa using early

instance (text : List Char) (tokens : List Token) : Decidable (EndsContinued text tokens) :=
  decidable_of_iff _ endsContinued_iff.symm

/-- The location behind the last character of a text. -/
def endLocation (tab : Nat) (text : List Char) : Location :=
  let r := Reader.ofText tab text
  (r.skip tab r.rest.length).location

/-- There is one location at the start of a text. -/
def Location.rooted (l : Location) : Location := if l.index = 0 then .origin else l

namespace Location

theorem index_behind (e l : Location) : (e.behind l).index = e.index + l.index := rfl

theorem index_rooted (l : Location) : l.rooted.index = l.index := by
  unfold rooted
  split
  next zero => exact zero.symm
  next => rfl

theorem behind_advance (tab : Nat) (c : Char) (next : Option Char) (e l : Location) :
    (e.behind l).advance tab c next = e.behind (l.advance tab c next) := by
  unfold advance
  split
  · rfl
  split
  · rfl
  · rfl

end Location

namespace Reader

variable {version : Version} {tab : Nat} {y q : List Char}

/-- The reader of the same characters at the place where they go. -/
def behind (e : Location) (r : Reader) : Reader := ⟨r.rest, e.behind r.location⟩

theorem skip_behind (tab n : Nat) (e : Location) (r : Reader) :
    (r.behind e).skip tab n = (r.skip tab n).behind e := by
  induction n generalizing r with
  | zero => rfl
  | succ n ih =>
    obtain ⟨rest, l⟩ := r
    cases rest with
    | nil => rfl
    | cons c rest =>
      show Reader.skip tab n ⟨rest, (e.behind l).advance tab c rest.head?⟩ = _
      rw [Location.behind_advance]
      exact ih ⟨rest, l.advance tab c rest.head?⟩

theorem next_behind (version : Version) (tab : Nat) (e : Location) (r : Reader) :
    (r.behind e).next version tab =
      (relocate e.behind (r.next version tab).1, (r.next version tab).2.behind e) := by
  have start : (r.behind e).skipTrivia tab = (r.skipTrivia tab).behind e := skip_behind tab _ e r
  simp only [next, start, skip_behind]
  rfl

theorem tokens_behind (version : Version) (tab n : Nat) (e : Location) (r : Reader) :
    (r.behind e).tokens version tab n = relocate e.behind (r.tokens version tab n) := by
  induction n generalizing r with
  | zero => rfl
  | succ n ih =>
    have kind : (relocate e.behind (r.next version tab).1).kind = (r.next version tab).1.kind := rfl
    rw [tokens_succ, tokens_succ, next_behind, kind, ih]
    split
    · rfl
    · rfl

theorem left_behind (version : Version) (tab : Nat) (e : Location) (r : Reader) :
    (r.behind e).left version tab = relocate e.behind (r.left version tab) :=
  tokens_behind version tab _ e r

/-- A continuation that is left open has its underscore at the end. -/
theorem exists_underscore {n : Nat} (opened : leavesOpen n y = true) :
    ∃ front underscore blanks, y = front ++ underscore :: blanks ∧ halfWidth underscore = '_' ∧
      blanks.all isBlank = true := by
  fun_induction leavesOpen n y with
  | case1 n => cases opened
  | case2 n c rest ih =>
    obtain ⟨front, underscore, blanks, rfl, ends⟩ := ih opened
    exact ⟨c :: front, underscore, blanks, rfl, ends⟩
  | case3 c rest blank ih =>
    obtain ⟨front, underscore, blanks, rfl, ends⟩ := ih opened
    exact ⟨c :: front, underscore, blanks, rfl, ends⟩
  | case4 c rest solid n follows ih =>
    rcases Bool.or_eq_true_iff.1 opened with blank | more
    · refine ⟨[], c, rest, rfl, ?_, blank⟩
      by_contra other
      rw [continuationTail?_of_ne other] at follows
      cases follows
    · obtain ⟨front, underscore, blanks, rfl, ends⟩ := ih more
      exact ⟨c :: front, underscore, blanks, rfl, ends⟩
  | case5 c rest solid nothing => cases opened

/-- At the end of a text there is nothing but the end. -/
theorem next_of_trivia {l : Location} (all : triviaLength 0 y = y.length) :
    ((⟨y, l⟩ : Reader).next version tab).1 =
      ⟨.endOfStream, .point ((⟨y, l⟩ : Reader).skip tab y.length).location⟩ := by
  have start : (⟨y, l⟩ : Reader).skipTrivia tab =
      ⟨[], ((⟨y, l⟩ : Reader).skip tab y.length).location⟩ := by
    rw [skipTrivia, all]
    exact eq_of_rest ((rest_skip ..).trans List.drop_length)
  unfold next
  rw [start]
  rfl

/-- All of a text is a part of any longer one, unless it ends in a line continuation. -/
theorem exists_part (version : Version) (tab : Nat) (y : List Char) (l : Location) :
    (∃ ts e, Part version tab y l ts e ∧
      (⟨y, l⟩ : Reader).left version tab = ts ++ [⟨.endOfStream, .point e⟩]) ∨
    ∃ front underscore blanks, y = front ++ underscore :: blanks ∧ halfWidth underscore = '_' ∧
      blanks.all isBlank = true ∧ ∀ t ∈ (⟨y, l⟩ : Reader).left version tab,
        t.kind ≠ .endOfStream → t.span.finish.index ≤ l.index + front.length := by
  induction size : y.length using Nat.strong_induction_on generalizing y l with
  | _ n ih =>
    by_cases starts : triviaLength 0 y < y.length
    · -- the first token stands in the text, and what is behind it is shorter
      have goesOn : ((⟨y, l⟩ : Reader).next version tab).1.kind ≠ .endOfStream :=
        kind_next_of_lt starts
      have fewer := rest_next_lt goesOn
      rw [left_of_goesOn goesOn]
      obtain ⟨x, front, -, after⟩ := next_eq version tab ⟨y, l⟩
      have index : ((⟨y, l⟩ : Reader).next version tab).2.location.index = l.index + x.length := by
        rw [after]
        exact index_skip (by rw [front, List.length_append]; exact Nat.le_add_right _ _)
      rcases ih _ (size ▸ fewer) ((⟨y, l⟩ : Reader).next version tab).2.rest
        ((⟨y, l⟩ : Reader).next version tab).2.location rfl with
        ⟨ts, e, part, left⟩ | ⟨back, underscore, blanks, rest, ends, blank, early⟩
      · exact .inl ⟨_, e, .token starts part, congrArg _ left⟩
      · refine .inr ⟨x ++ back, underscore, blanks, ?_, ends, blank, ?_⟩
        · rw [List.append_assoc, ← rest]
          exact front
        · rw [List.length_append]
          refine List.forall_mem_cons.2 ⟨fun _ => ?_, fun t member inside => ?_⟩
          · show ((⟨y, l⟩ : Reader).next version tab).2.location.index ≤ _
            omega
          · have := early t member inside
            omega
    · have all : triviaLength 0 y = y.length :=
        Nat.le_antisymm (triviaLength_le 0 y) (Nat.not_lt.1 starts)
      have last : ((⟨y, l⟩ : Reader).next version tab).1 =
          ⟨.endOfStream, .point ((⟨y, l⟩ : Reader).skip tab y.length).location⟩ :=
        next_of_trivia all
      have ends : ((⟨y, l⟩ : Reader).next version tab).1.kind = .endOfStream := by
        rw [last]
        rfl
      rw [left_of_ends ends, last]
      cases opened : leavesOpen 0 y with
      | false => exact .inl ⟨[], _, .done opened all, rfl⟩
      | true =>
        obtain ⟨front, underscore, blanks, same, facts⟩ := exists_underscore opened
        refine .inr ⟨front, underscore, blanks, same, facts.1, facts.2, ?_⟩
        exact List.forall_mem_singleton.2 fun goesOn => absurd rfl goesOn

/-- What is put behind a text does not change how its reading starts. -/
theorem exists_ofText (tab : Nat) (text : List Char) :
    ∃ mark y l, text = mark ++ y ∧ l.index = mark.length ∧ ofText tab text = ⟨y, l⟩ ∧
      ∀ q : List Char, q.head? ≠ some byteOrderMark → ofText tab (text ++ q) = ⟨y ++ q, l⟩ := by
  by_cases marked : text.head? = some byteOrderMark
  · obtain ⟨rest, rfl⟩ := List.head?_eq_some_iff.1 marked
    exact ⟨[byteOrderMark], rest, ⟨1, 1, 2⟩, rfl, rfl, rfl, fun _ _ => rfl⟩
  · refine ⟨[], text, .origin, rfl, rfl, if_neg marked, fun q plain => if_neg ?_⟩
    cases text with
    | nil => exact plain
    | cons c rest => exact marked

end Reader

/-- The tokens of a text and of another one behind it, with a line feed between them. -/
theorem tokenize_join {version : Version} {tab : Nat} {text more : List Char}
    (closed : ¬ EndsContinued text (tokenize version tab text)) (uncut : text.getLast? ≠ some '\r')
    (unmarked : more.head? ≠ some Reader.byteOrderMark) :
    let e := endLocation tab (text ++ ['\n'])
    ∃ ts l, tokenize version tab text = ts ++ [⟨.endOfStream, .point l⟩] ∧
      e = ⟨l.index + 1, l.line + 1, 1⟩ ∧
      tokenize version tab (text ++ '\n' :: more) =
        ts ++ ⟨.lineTerminator, ⟨l, e⟩⟩ :: relocate e.behind (tokenize version tab more) := by
  obtain ⟨mark, y, l, rfl, index, start, longer⟩ := Reader.exists_ofText tab text
  have uncut' (q : List Char) : ¬ CutsBreak y q := fun cut => uncut (by
    have last := cut.1
    rw [List.getLast?_append, last]
    rfl)
  have feed (q : List Char) : ('\n' :: q).head? ≠ some Reader.byteOrderMark := by
    simp [Reader.byteOrderMark]
  have ends (q : List Char) : EndsLine ('\n' :: q) := .cons rfl q
  rw [tokenize_eq_left, start] at closed ⊢
  rcases Reader.exists_part version tab y l with ⟨ts, e, part, left⟩ | continued
  case inr =>
    obtain ⟨front, underscore, blanks, rfl, facts, blank, early⟩ := continued
    refine absurd ⟨mark ++ front, underscore, blanks, ?_, facts, blank, ?_⟩ closed
    · rw [List.append_assoc]
    · rw [List.length_append, ← index]
      exact early
  have next : endLocation tab (mark ++ y ++ ['\n']) = ⟨e.index + 1, e.line + 1, 1⟩ := by
    unfold endLocation
    rw [longer _ (feed [])]
    dsimp only
    rw [List.length_append, ← Reader.skip_skip,
      Reader.skip_append tab _ l (Nat.le_refl _) (uncut' _), Reader.rest_skip, List.drop_length,
      ← part.location_eq]
    rfl
  dsimp only
  rw [next]
  refine ⟨ts, e, left, rfl, ?_⟩
  have behind : (⟨more, ⟨e.index + 1, e.line + 1, 1⟩⟩ : Reader) =
      Reader.behind ⟨e.index + 1, e.line + 1, 1⟩ (Reader.ofText tab more) := by
    rw [show Reader.ofText tab more = ⟨more, .origin⟩ from if_neg unmarked]
    rfl
  rw [tokenize_eq_left, longer _ (feed more), part.left_append (ends more) (uncut' _),
    Reader.left_lineBreak rfl e, tokenize_eq_left, ← Reader.left_behind, ← behind]
  rfl

end VisualBasic
