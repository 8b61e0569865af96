import VisualBasic.Parse.Backtrack
import VisualBasic.Proofs.Parse.Progress

/-!
Looking ahead is pure.  A parser that reads on and returns finds what the tokens ahead say, and has
changed nothing but that the comments it passed are noted.  Returning forgets the furthest place
where something is missing if that place is ahead, so all this rests on its never being ahead.
-/

set_option autoImplicit false

namespace VisualBasic

namespace ParseState

variable {s t u : ParseState} {tokens : List Token}

/-- The furthest place where something is missing is not ahead of the parser. -/
def MarkBehind (s : ParseState) : Prop := s.placeholder.index ≤ s.here

theorem Wf.markBehind (wf : s.Wf) : s.MarkBehind := Nat.le_trans (Nat.le_max_right _ _) wf.behind

/-- Nothing has changed but that more comments are noted. -/
structure Untouched (s t : ParseState) : Prop where
  frame : t = { s with comments := t.comments, commentsAhead := t.commentsAhead }
  noted : s.comments <+: t.comments
  comments : t.comments ++ t.commentsAhead = s.comments ++ s.commentsAhead

namespace Untouched

theorem refl (s : ParseState) : s.Untouched s := ⟨rfl, List.prefix_refl _, rfl⟩

theorem ahead (same : s.Untouched t) : t.ahead = s.ahead := by rw [same.frame]; rfl

theorem markBehind (same : s.Untouched t) (behind : s.MarkBehind) : t.MarkBehind := by
  rw [same.frame]
  exact behind

theorem trans (first : s.Untouched t) (second : t.Untouched u) : s.Untouched u := by
  refine ⟨?_, first.noted.trans second.noted, second.comments.trans first.comments⟩
  rw [second.frame, first.frame]

end Untouched

/-- The parser has read on, and done nothing else. -/
structure ReadsTo (s t : ParseState) : Prop where
  frame : t = { s with
    previous := t.previous
    current := t.current
    following := t.following
    comments := t.comments
    commentsAhead := t.commentsAhead }
  noted : s.comments <+: t.comments
  comments : t.comments ++ t.commentsAhead = s.comments ++ s.commentsAhead
  stream : Stream t.ahead
  here : s.here ≤ t.here
  remaining : t.remaining ≤ s.remaining

namespace ReadsTo

theorem refl (stream : Stream s.ahead) : s.ReadsTo s :=
  ⟨rfl, List.prefix_refl _, rfl, stream, Nat.le_refl _, Nat.le_refl _⟩

theorem trans (first : s.ReadsTo t) (second : t.ReadsTo u) : s.ReadsTo u := by
  refine ⟨?_, first.noted.trans second.noted, second.comments.trans first.comments, second.stream,
    Nat.le_trans first.here second.here, Nat.le_trans second.remaining first.remaining⟩
  rw [second.frame, first.frame]

theorem untouched (first : s.ReadsTo t) (second : t.Untouched u) : s.ReadsTo u := by
  refine first.trans ⟨?_, second.noted, second.comments, ?_, ?_, ?_⟩
  · rw [second.frame]
  · exact second.ahead ▸ first.stream
  · rw [second.frame]; exact Nat.le_refl _
  · rw [second.frame]; exact Nat.le_refl _

theorem markBehind (reads : s.ReadsTo t) (behind : s.MarkBehind) : t.MarkBehind := by
  have same : t.placeholder = s.placeholder := by rw [reads.frame]
  rw [MarkBehind, same]
  exact Nat.le_trans behind reads.here

end ReadsTo

theorem following_eq_nil (stream : Stream s.ahead) (ends : s.kind = .endOfStream) :
    s.following = [] := by
  unfold ahead at stream
  cases follows : s.following with
  | nil => rfl
  | cons k rest =>
    rw [follows] at stream
    cases stream
    contradiction

theorem following_of_stream (stream : Stream s.ahead) (goesOn : s.kind ≠ .endOfStream) :
    ∃ k rest, s.following = k :: rest ∧ s.here ≤ k.span.start.index ∧ Stream (k :: rest) := by
  unfold ahead at stream
  cases follows : s.following with
  | nil =>
    rw [follows] at stream
    exact absurd stream.kind_eq_endOfStream goesOn
  | cons k rest =>
    rw [follows] at stream
    cases stream with
    | cons _ wide ordered _ rest => exact ⟨k, _, rfl, Nat.le_trans (Nat.le_of_lt wide) ordered, rest⟩

theorem comments_noteComments (s : ParseState) :
    s.comments <+: s.noteComments.comments ∧
      s.noteComments.comments ++ s.noteComments.commentsAhead = s.comments ++ s.commentsAhead := by
  simp [noteComments, List.takeWhile_append_dropWhile]

theorem reads_advance (stream : Stream s.ahead) : s.ReadsTo s.advance := by
  by_cases ends : s.kind = .endOfStream
  · rw [advance_of_nil (following_eq_nil stream ends)]
    exact .refl stream
  · obtain ⟨k, rest, follows, further, stream⟩ := following_of_stream stream ends
    rw [advance_of_cons follows]
    obtain ⟨noted, comments⟩ := comments_noteComments
      { s with previous := some s.current, current := k, following := rest }
    refine ⟨rfl, noted, comments, stream, further, ?_⟩
    simp [remaining, follows, noteComments]

theorem advance_of_stream (stream : Stream s.ahead) (goesOn : s.kind ≠ .endOfStream) :
    s.advance.ahead = s.following ∧ s.advance.remaining < s.remaining := by
  obtain ⟨k, rest, follows, -⟩ := following_of_stream stream goesOn
  refine ⟨ahead_advance follows, ?_⟩
  rw [advance_of_cons follows]
  simp [remaining, follows, noteComments]

/-- Returning restores everything exactly when no missing place is marked ahead. -/
theorem untouched_backtrack_iff (reads : s.ReadsTo t) :
    s.Untouched (t.backtrack s.mark) ↔ s.MarkBehind := by
  have placeholder : t.placeholder = s.placeholder := by rw [reads.frame]
  constructor
  · intro same
    by_contra ahead
    have before : s.current.span.start < s.placeholder := Nat.lt_of_not_le ahead
    have reset : (t.backtrack s.mark).placeholder = .origin := by
      rw [backtrack, placeholder]
      exact if_pos before
    rw [same.frame] at reset
    have : s.placeholder = .origin := reset
    exact ahead (by rw [MarkBehind, this]; exact Nat.zero_le _)
  · intro behind
    refine ⟨?_, reads.noted, reads.comments⟩
    have kept : ¬ s.current.span.start < s.placeholder := Nat.not_lt.2 behind
    rw [backtrack, placeholder, mark, if_neg kept, reads.frame]

/-- The parser stands before the tokens, at the end of the stream if there are none. -/
def StandsBefore (s : ParseState) (tokens : List Token) : Prop :=
  s.ahead = tokens ∨ (tokens = [] ∧ s.following = [] ∧ s.kind = .endOfStream)

end ParseState

namespace Lookahead

/-- The token at a place, which is the end of the stream behind the last one. -/
def IsAt (tokens : List Token) (place : Nat) (t : Token) : Prop :=
  tokens[place]? = some t ∨ (tokens[place]? = none ∧ t.kind = .endOfStream)

variable {tokens : List Token} {place : Nat} {t : Token}

theorem IsAt.kindAt (isAt : IsAt tokens place t) : kindAt tokens place = t.kind := by
  unfold Lookahead.kindAt
  rcases isAt with there | ⟨none, ends⟩
  · rw [there]; rfl
  · rw [none, ends]; rfl

theorem IsAt.isContextualAt (isAt : IsAt tokens place t) (keyword : Keyword) :
    isContextualAt tokens place keyword = t.isContextual keyword := by
  unfold Lookahead.isContextualAt
  rcases isAt with there | ⟨none, ends⟩
  · rw [there]; rfl
  · rw [none, Token.isContextual, ends]; rfl

/-- What a line starts depends on its first two tokens. -/
theorem ofKinds_of_isAt {first second : Token} (isFirst : IsAt tokens 0 first)
    (isSecond : IsAt tokens 1 second) :
    LineStart.ofKinds tokens = LineStart.ofKinds [first, second] := by
  unfold LineStart.ofKinds
  rw [isFirst.kindAt, isSecond.kindAt, isFirst.isContextualAt]
  rfl

end Lookahead

namespace ParseState.StandsBefore

open Lookahead

variable {s : ParseState} {tokens : List Token}

theorem isAt (stands : s.StandsBefore tokens) : IsAt tokens 0 s.current := by
  rcases stands with rfl | ⟨rfl, -, ends⟩
  · exact .inl rfl
  · exact .inr ⟨rfl, ends⟩

theorem ahead (stands : s.StandsBefore tokens) (goesOn : s.kind ≠ .endOfStream) :
    s.ahead = tokens := by
  rcases stands with same | ⟨-, -, ends⟩
  · exact same
  · exact absurd ends goesOn

theorem advance (stands : s.StandsBefore tokens) (stream : Stream s.ahead) :
    s.advance.StandsBefore tokens.tail := by
  rcases stands with rfl | ⟨rfl, none, ends⟩
  · by_cases ends : s.kind = .endOfStream
    · have none := following_eq_nil stream ends
      rw [advance_of_nil none]
      exact .inr ⟨by simp [ParseState.ahead, none], none, ends⟩
    · exact .inl (advance_of_stream stream ends).1
  · rw [advance_of_nil none]
    exact .inr ⟨rfl, none, ends⟩

end ParseState.StandsBefore

namespace Parse

open ParseState Lookahead

variable {α : Type} {s t : ParseState} {tokens : List Token}

/-- The parser finds the given answer and changes nothing but that comments are noted. -/
def Sees (p : Parse α) (s : ParseState) (answer : α) : Prop :=
  Ensures p s fun found t => found = answer ∧ s.Untouched t

theorem trial_returns {p : Parse α} {P : α → Prop} (behind : s.MarkBehind)
    (reads : Ensures p s fun found t => P found ∧ s.ReadsTo t) :
    Ensures (trial p) s fun found t => P found ∧ s.Untouched t :=
  .get (reads.bind fun _ _ ⟨holds, reads⟩ => ⟨holds, (untouched_backtrack_iff reads).2 behind⟩)

-- Tokens

theorem skipTimes_reads (n : Nat) (stream : Stream s.ahead) (stands : s.StandsBefore tokens) :
    Ensures (skipTimes n) s fun _ t => s.ReadsTo t ∧ t.StandsBefore (tokens.drop n) := by
  induction n generalizing s tokens with
  | zero => exact ⟨.refl stream, stands⟩
  | succ n ih =>
    have reads := reads_advance stream
    refine .skip ((ih reads.stream (stands.advance stream)).mono fun _ t ⟨more, further⟩ => ?_)
    rw [List.drop_tail] at further
    exact ⟨reads.trans more, further⟩

theorem peekNth_returns (n : Nat) (stream : Stream s.ahead) (behind : s.MarkBehind)
    (stands : s.StandsBefore tokens) :
    Ensures (peekNth n) s fun found t => IsAt tokens n found ∧ s.Untouched t := by
  cases n with
  | zero => exact ⟨stands.isAt, .refl s⟩
  | succ n =>
    refine trial_returns behind ((skipTimes_reads (n + 1) stream stands).bind fun _ t facts => ?_)
    obtain ⟨reads, stands⟩ := facts
    refine ⟨?_, reads⟩
    have isAt := stands.isAt
    unfold IsAt at isAt ⊢
    rwa [List.getElem?_drop] at isAt

-- Groups and attributes

/-- A token that does not end the stream is passed, and the tokens behind it are left. -/
theorem pass_token {p : Parse α} {P : α → ParseState → Prop} (stream : Stream s.ahead)
    (goesOn : s.kind ≠ .endOfStream)
    (rest : Stream s.advance.ahead → s.advance.ahead = s.following →
      s.advance.remaining < s.remaining →
      Ensures p s.advance fun found t => s.advance.ReadsTo t ∧ P found t) :
    Ensures p s.advance fun found t => s.ReadsTo t ∧ P found t := by
  have reads := reads_advance stream
  obtain ⟨further, fewer⟩ := advance_of_stream stream goesOn
  exact (rest reads.stream further fewer).mono fun _ _ facts => facts.imp_left reads.trans

theorem seekOutside_reads (kinds : List TokenKind) (n depth : Nat) (stream : Stream s.ahead)
    (fuel : s.remaining < n) :
    Ensures (seekOutside kinds n depth) s fun found t =>
      s.ReadsTo t ∧ found = firstOutside kinds depth s.ahead := by
  induction n generalizing s depth with
  | zero => omega
  | succ n ih =>
    have rest (depth : Nat) (goesOn : s.kind ≠ .endOfStream) :
        Ensures (seekOutside kinds n depth) s.advance fun found t =>
          s.ReadsTo t ∧ found = firstOutside kinds depth s.following :=
      pass_token stream goesOn fun stream further fewer =>
        further ▸ ih depth stream (by omega)
    have front : firstOutside kinds depth s.ahead =
      firstOutside kinds depth (s.current :: s.following) := rfl
    rw [firstOutside, show s.current.kind = s.kind from rfl] at front
    refine .peekKind ?_
    split
    next kind => rw [front, kind]; exact ⟨.refl stream, rfl⟩
    next kind => rw [front, kind]; exact ⟨.refl stream, rfl⟩
    next kind => rw [front, kind]; exact ⟨.refl stream, rfl⟩
    next kind => rw [front, kind]; exact .skip (rest (depth + 1) (by simp [kind]))
    next kind => rw [front, kind]; exact .skip (rest (depth - 1) (by simp [kind]))
    next ends _ _ =>
      have other : firstOutside kinds depth s.ahead =
          if depth = 0 ∧ s.kind ∈ kinds then some s.kind
          else firstOutside kinds depth s.following := by
        rw [front]
        split <;> first | contradiction | rfl
      rw [other]
      split
      · exact ⟨.refl stream, rfl⟩
      · exact .skip (rest depth ends)

theorem skipGroup_reads (n depth : Nat) (stream : Stream s.ahead) (fuel : s.remaining < n) :
    Ensures (skipGroup n depth) s fun closed t =>
      s.ReadsTo t ∧ behindParentheses? depth s.ahead = if closed then some t.ahead else none := by
  induction n generalizing s depth with
  | zero => omega
  | succ n ih =>
    have rest (depth : Nat) (goesOn : s.kind ≠ .endOfStream) :
        Ensures (skipGroup n depth) s.advance fun closed t => s.ReadsTo t ∧
          behindParentheses? depth s.following = if closed then some t.ahead else none :=
      pass_token stream goesOn fun stream further fewer =>
        further ▸ ih depth stream (by omega)
    have reads := reads_advance stream
    have front : behindParentheses? depth s.ahead = _ :=
      behindParentheses?.eq_def depth (s.current :: s.following)
    dsimp only at front
    rw [show s.current.kind = s.kind from rfl] at front
    unfold skipGroup
    refine .read ?_
    rw [show s.current.kind = s.kind from rfl]
    split
    next kind => rw [front, kind]; exact rest (depth + 1) (by simp [kind])
    next kind =>
      rw [front, kind]
      cases depth with
      | zero =>
        refine ⟨reads, ?_⟩
        exact congrArg some (advance_of_stream stream (by simp [kind])).1.symm
      | succ depth => exact rest depth (by simp [kind])
    next kind => rw [front, kind]; exact ⟨reads, rfl⟩
    next kind => rw [front, kind]; exact ⟨reads, rfl⟩
    next kind => rw [front, kind]; exact ⟨reads, rfl⟩
    next ends =>
      have other : behindParentheses? depth s.ahead = behindParentheses? depth s.following := by
        rw [front]
        split <;> first | contradiction | rfl
      rw [other]
      exact rest depth ends

theorem kindBehindGroup?_of_kind {t : Token} {rest : List Token}
    (other : t.kind ≠ .mark .leftParenthesis) : kindBehindGroup? (t :: rest) = none :=
  if_neg other

theorem skipParenthesized_reads (stream : Stream s.ahead) :
    Ensures skipParenthesized s fun closed t =>
      s.ReadsTo t ∧ kindBehindGroup? s.ahead = if closed then some t.kind else none := by
  have front : kindBehindGroup? s.ahead = kindBehindGroup? (s.current :: s.following) := rfl
  rw [kindBehindGroup?, show s.current.kind = s.kind from rfl] at front
  refine .eat (fun kind => ?_) fun other => ?_
  · rw [front, if_pos kind]
    refine pass_token stream (by simp [kind]) fun stream further _ => ?_
    refine .get ((skipGroup_reads _ 0 stream (Nat.lt_succ_self _)).mono fun closed t facts => ?_)
    obtain ⟨reads, found⟩ := facts
    rw [← further, found]
    refine ⟨reads, ?_⟩
    split <;> rfl
  · rw [front, if_neg other]
    exact ⟨.refl stream, rfl⟩

theorem skipAttribute_reads (n depth : Nat) (stream : Stream s.ahead) (fuel : s.remaining < n) :
    Ensures (skipAttribute n depth) s fun closed t => s.ReadsTo t ∧ ∃ rest, t.StandsBefore rest ∧
      behindAttributes (some depth) s.ahead =
        if closed then behindAttributes none rest else (false, rest) := by
  induction n generalizing s depth with
  | zero => omega
  | succ n ih =>
    have rest (depth : Nat) (goesOn : s.kind ≠ .endOfStream) :
        Ensures (skipAttribute n depth) s.advance fun closed t => s.ReadsTo t ∧
          ∃ rest, t.StandsBefore rest ∧ behindAttributes (some depth) s.following =
            if closed then behindAttributes none rest else (false, rest) :=
      pass_token stream goesOn fun stream further fewer =>
        further ▸ ih depth stream (by omega)
    have reads := reads_advance stream
    have behind : s.advance.StandsBefore s.following :=
      ParseState.StandsBefore.advance (.inl rfl) stream
    have front : behindAttributes (some depth) s.ahead = _ :=
      behindAttributes.eq_def (some depth) (s.current :: s.following)
    dsimp only at front
    rw [show s.current.kind = s.kind from rfl] at front
    unfold skipAttribute
    refine .read ?_
    rw [show s.current.kind = s.kind from rfl]
    split
    next kind => rw [front, kind]; exact rest (depth + 1) (by simp [kind])
    next kind => rw [front, kind]; exact rest (depth - 1) (by simp [kind])
    next kind =>
      rw [front, kind]
      dsimp only
      split
      · exact ⟨reads, s.following, behind, rfl⟩
      · exact rest depth (by simp [kind])
    next kind => rw [front, kind]; exact ⟨reads, s.following, behind, rfl⟩
    next kind => rw [front, kind]; exact ⟨reads, s.following, behind, rfl⟩
    next ends =>
      have other : behindAttributes (some depth) s.ahead =
          behindAttributes (some depth) s.following := by
        rw [front]
        split <;> first | contradiction | rfl
      rw [other]
      exact rest depth ends

theorem skipAttributeBlock_reads (stream : Stream s.ahead) (opens : s.kind = .mark .lessThan) :
    Ensures skipAttributeBlock s fun closed t =>
      s.ReadsTo t ∧ t.remaining < s.remaining ∧ ∃ rest, t.StandsBefore rest ∧
        behindAttributes none s.ahead =
          if closed then behindAttributes none rest else (false, rest) := by
  have front : behindAttributes none s.ahead = behindAttributes none (s.current :: s.following) :=
    rfl
  rw [behindAttributes, if_pos (show s.current.kind = _ from opens)] at front
  refine .eat (fun _ => ?_) fun other => absurd opens other
  obtain ⟨further, fewer⟩ := advance_of_stream stream (by simp [opens])
  have reads := reads_advance stream
  refine .get ((skipAttribute_reads _ 0 reads.stream (Nat.lt_succ_self _)).mono
    fun closed t facts => ?_)
  obtain ⟨more, found⟩ := facts
  rw [further, ← front] at found
  exact ⟨reads.trans more, Nat.lt_of_le_of_lt more.remaining fewer, found⟩

theorem skipAttributes_reads (n : Nat) (stream : Stream s.ahead) (fuel : s.remaining < n)
    (stands : s.StandsBefore tokens) :
    Ensures (skipAttributes n) s fun closed t => s.ReadsTo t ∧ ∃ rest, t.StandsBefore rest ∧
      behindAttributes none tokens = (closed, rest) := by
  induction n generalizing s tokens with
  | zero => omega
  | succ n ih =>
    have done (other : s.kind ≠ .mark .lessThan) : behindAttributes none tokens = (true, tokens) := by
      rcases stands with rfl | ⟨rfl, -⟩
      · rw [ParseState.ahead, behindAttributes, if_neg (show ¬ s.current.kind = _ from other)]
      · rw [behindAttributes]
    refine .check ?_
    split
    next opens =>
      have opens : s.kind = .mark .lessThan := by simpa using opens
      obtain rfl := stands.ahead (by simp [opens])
      refine (skipAttributeBlock_reads stream opens).bind fun closed t facts => ?_
      obtain ⟨reads, fewer, rest, stands, found⟩ := facts
      rw [found]
      cases closed with
      | true =>
        exact (ih reads.stream (by omega) stands).mono fun _ _ facts => facts.imp_left reads.trans
      | false => exact ⟨reads, rest, stands, rfl⟩
    next other => exact ⟨.refl stream, tokens, stands, done (by simpa using other)⟩

theorem skipModifiers_reads (n : Nat) (stream : Stream s.ahead) (fuel : s.remaining < n)
    (stands : s.StandsBefore tokens) :
    Ensures (skipModifiers n) s fun found t => s.ReadsTo t ∧
      found = (tokens.takeWhile isModifier).any isMemberModifier ∧
      t.StandsBefore (tokens.dropWhile isModifier) := by
  induction n generalizing s tokens with
  | zero => omega
  | succ n ih =>
    refine .peekKind ?_
    cases found : Modifier.ofKind? s.kind with
    | none =>
      have stops : tokens.takeWhile isModifier = [] ∧ tokens.dropWhile isModifier = tokens := by
        rcases stands with rfl | ⟨rfl, -⟩
        · simp [ParseState.ahead, isModifier, show s.current.kind = s.kind from rfl, found]
        · exact ⟨rfl, rfl⟩
      rw [stops.1, stops.2]
      exact ⟨.refl stream, rfl, stands⟩
    | some modifier =>
      have goesOn : s.kind ≠ .endOfStream := fun ends => by simp [ends, Modifier.ofKind?] at found
      obtain rfl := stands.ahead goesOn
      have isModifier : isModifier s.current = true := by
        simp [Lookahead.isModifier, show s.current.kind = s.kind from rfl, found]
      have isMember : isMemberModifier s.current = !Modifier.locals.contains modifier := by
        simp [isMemberModifier, show s.current.kind = s.kind from rfl, found]
      obtain ⟨further, fewer⟩ := advance_of_stream stream goesOn
      have reads := reads_advance stream
      refine .skip ((ih reads.stream (by omega) (.inl rfl)).bind fun more t facts => ?_)
      obtain ⟨on, rfl, stands⟩ := facts
      rw [further] at stands ⊢
      refine .pure ⟨reads.trans on, ?_, ?_⟩
      · rw [ParseState.ahead, List.takeWhile_cons_of_pos isModifier, List.any_cons, isMember]
      · rwa [ParseState.ahead, List.dropWhile_cons_of_pos isModifier]

-- What is ahead

variable (stream : Stream s.ahead) (behind : s.MarkBehind)
include stream behind

/-- The token behind the current one. -/
theorem peekNth_one : Ensures (peekNth 1) s fun found t =>
    found.kind = s.kindAfter ∧ s.Untouched t := by
  refine (peekNth_returns 1 stream behind (.inl rfl)).mono fun found t facts => ?_
  obtain ⟨isAt, same⟩ := facts
  refine ⟨?_, same⟩
  rw [← isAt.kindAt, kindAt, ParseState.kindAfter, ParseState.ahead, List.getElem?_cons_succ,
    List.head?_eq_getElem?]

theorem seesTypeArguments_sees : Sees seesTypeArguments s s.atTypeArguments := by
  unfold ParseState.atTypeArguments
  refine .check ?_
  split
  next opens =>
    refine (peekNth_one stream behind).bind fun found t ⟨kind, same⟩ => .pure ⟨?_, same⟩
    rw [opens, Bool.true_and, kind]
  next other => exact .pure ⟨by simp [other], .refl s⟩

theorem seesStatementEnd_sees : Sees seesStatementEnd s s.atStatementEnd := by
  have ends (kind : s.kind = .mark .colon ∨ s.kind = .lineTerminator ∨ s.kind = .endOfStream) :
      s.atStatementEnd = true := by
    unfold ParseState.atStatementEnd
    rcases kind with kind | kind | kind <;> rw [kind]
  refine .peekKind ?_
  split
  next kind => exact ⟨(ends (.inl kind)).symm, .refl s⟩
  next kind => exact ⟨(ends (.inr (.inl kind))).symm, .refl s⟩
  next kind => exact ⟨(ends (.inr (.inr kind))).symm, .refl s⟩
  next kind =>
    refine .get ⟨?_, .refl s⟩
    rw [ParseState.atStatementEnd, kind]
    rfl
  next kind =>
    have inLineIf : s.atStatementEnd =
        (decide (0 < s.lineIfDepth) && s.kindAfter == .word .kwIf) := by
      rw [ParseState.atStatementEnd, kind]
    refine .get ?_
    rw [inLineIf]
    split
    next inside =>
      refine (peekNth_one stream behind).bind fun found t facts => .pure ⟨?_, facts.2⟩
      simp [inside, facts.1]
    next outside => exact .pure ⟨by simp [outside], .refl s⟩
  next =>
    refine ⟨?_, .refl s⟩
    unfold ParseState.atStatementEnd
    split <;> first | contradiction | rfl

theorem seesTerminator_sees : Sees seesTerminator s s.terminator? := by
  have front : s.terminator? = Lookahead.terminator? s.kind s.kindAfter := rfl
  have after := peekNth_one stream behind
  refine .peekKind ?_
  split
  next kind =>
    refine after.bind fun found t ⟨next, same⟩ => ⟨?_, same⟩
    rw [front, kind, ← next]
    rfl
  next kind => exact ⟨by rw [front, kind]; rfl, .refl s⟩
  next kind => exact ⟨by rw [front, kind]; rfl, .refl s⟩
  next kind => exact ⟨by rw [front, kind]; rfl, .refl s⟩
  next kind => exact ⟨by rw [front, kind]; rfl, .refl s⟩
  next kind =>
    refine after.bind fun found t ⟨next, same⟩ => ⟨?_, same⟩
    rw [front, kind, ← next]
    rfl
  next kind =>
    refine after.bind fun found t ⟨next, same⟩ => ⟨?_, same⟩
    rw [front, kind, ← next]
    rfl
  next kind => exact ⟨by rw [front, kind]; rfl, .refl s⟩
  next kind => exact ⟨by rw [front, kind]; rfl, .refl s⟩
  next =>
    refine ⟨?_, .refl s⟩
    rw [front]
    unfold Lookahead.terminator?
    split <;> first | contradiction | rfl

theorem seesAhead_sees (kinds : List TokenKind) :
    Sees (seesAhead kinds) s (firstOutside kinds 0 s.ahead) :=
  trial_returns behind (.get ((seekOutside_reads kinds _ 0 stream (Nat.lt_succ_self _)).mono
    fun _ _ facts => facts.symm))

/-- What a line starts, by what was read of it. -/
def lineStartOf : Option (Bool × Token × Token) → LineStart
  | none => .statement
  | some (isMember, token, next) =>
    match LineStart.ofKinds [token, next] with
    | .statement => if isMember then .member else .statement
    | start => start

theorem seesLineStart_sees : Sees seesLineStart s s.lineStart := by
  have reads : Ensures readLineStart s fun found t =>
      s.lineStart = lineStartOf found ∧ s.ReadsTo t := by
    refine .check (.get ((skipAttributes_reads _ stream (Nat.lt_succ_self _) (.inl rfl)).bind
      fun closed t facts => ?_))
    obtain ⟨reads, rest, stands, found⟩ := facts
    cases closed with
    | false =>
      refine ⟨?_, reads⟩
      rw [ParseState.lineStart, LineStart.ofTokens, found]
      rfl
    | true =>
      refine .get ((skipModifiers_reads _ reads.stream (Nat.lt_succ_self _) stands).bind
        fun modified u facts => .peek ?_)
      obtain ⟨on, rfl, stands⟩ := facts
      have reads := reads.trans on
      refine (peekNth_returns 1 reads.stream (reads.markBehind behind) stands).bind
        fun next v facts => ?_
      obtain ⟨isNext, same⟩ := facts
      refine ⟨?_, reads.untouched same⟩
      rw [ParseState.lineStart, LineStart.ofTokens, found]
      dsimp only
      rw [ofKinds_of_isAt stands.isAt isNext]
      rfl
  refine (trial_returns behind reads).bind fun found t facts => ?_
  obtain ⟨start, same⟩ := facts
  cases found with
  | none => exact .pure ⟨start.symm, same⟩
  | some line =>
    obtain ⟨isMember, token, next⟩ := line
    unfold lineStartOf at start
    dsimp only at start ⊢
    cases kind : LineStart.ofKinds [token, next] <;> rw [kind] at start <;>
      exact .pure ⟨start.symm, same⟩

/-- The accessor that a line starts, by the keyword and the token behind it. -/
def accessorOf : TokenKind × TokenKind → Option (TokenKind × TokenKind)
  | (.word k, next) =>
    if k ∈ [.kwGet, .kwSet, .kwAddHandler, .kwRemoveHandler, .kwRaiseEvent] then
      some (.word k, next) else none
  | _ => none

theorem seesAccessor_sees : Sees seesAccessor s (accessor? s.ahead) := by
  have reads : Ensures readAccessor s fun found t =>
      accessor? s.ahead = accessorOf found ∧ s.ReadsTo t := by
    refine .get ((skipAttributes_reads _ stream (Nat.lt_succ_self _) (.inl rfl)).bind
      fun closed t facts => ?_)
    obtain ⟨reads, rest, stands, found⟩ := facts
    refine .get ((skipModifiers_reads _ reads.stream (Nat.lt_succ_self _) stands).bind
      fun modified u facts => .peekKind ?_)
    obtain ⟨on, -, stands⟩ := facts
    have reads := reads.trans on
    refine (peekNth_returns 1 reads.stream (reads.markBehind behind) stands).bind
      fun next v facts => ?_
    obtain ⟨isNext, same⟩ := facts
    refine .pure ⟨?_, reads.untouched same⟩
    rw [accessor?, found]
    dsimp only
    rw [stands.isAt.kindAt, isNext.kindAt, show u.current.kind = u.kind from rfl]
    cases u.kind <;> rfl
  refine (trial_returns behind reads).bind fun found t facts => ?_
  obtain ⟨keyword, next⟩ := found
  obtain ⟨answer, same⟩ := facts
  cases keyword <;> exact .pure ⟨answer.symm, same⟩

theorem seesSiblingAccessor_sees : Sees seesSiblingAccessor s s.atSiblingAccessor := by
  unfold ParseState.atSiblingAccessor
  refine .get ?_
  dsimp only
  split
  next among =>
    refine (seesAccessor_sees stream behind).bind fun found t ⟨answer, same⟩ => ?_
    rw [among, Bool.true_and, ← answer]
    split
    next => exact .pure ⟨rfl, same⟩
    next => exact .pure ⟨by grind, same⟩
    next => exact .pure ⟨rfl, same⟩
  next outside => exact .pure ⟨by simp [outside], .refl s⟩

theorem seesArraySize_sees : Sees seesArraySize s s.atArraySize := by
  unfold ParseState.atArraySize
  refine .check ?_
  split
  next opens =>
    refine (seesTypeArguments_sees stream behind).bind fun found t ⟨answer, same⟩ => ?_
    subst answer
    split
    next types => exact .pure ⟨by simp [types], same⟩
    next group =>
      have tokens := same.ahead
      have group : (!s.atTypeArguments) = true := by simpa using group
      rw [group, Bool.true_and, ← tokens]
      refine (trial_returns (same.markBehind behind)
        ((skipParenthesized_reads (tokens ▸ stream)).bind fun closed u facts => ?_)).mono
        fun _ _ facts => facts.imp_right same.trans
      obtain ⟨reads, behindGroup⟩ := facts
      rw [behindGroup]
      cases closed with
      | false => exact .pure ⟨rfl, reads⟩
      | true =>
        refine .peekKind ?_
        rw [if_pos rfl]
        split
        next kind => rw [kind]; exact .pure ⟨rfl, reads⟩
        next kind => rw [kind]; exact .pure ⟨rfl, reads⟩
        next => exact .pure ⟨by split <;> simp_all, reads⟩
  next other =>
    have missing : kindBehindGroup? s.ahead = none :=
      kindBehindGroup?_of_kind (show s.kind ≠ _ by simpa using other)
    rw [missing]
    exact .pure ⟨by simp, .refl s⟩

theorem seesMidAssignment_sees : Sees seesMidAssignment s s.atMidAssignment := by
  unfold ParseState.atMidAssignment
  refine .peek ?_
  split
  next isMid =>
    rw [isMid, Bool.true_and]
    have goesOn : s.kind ≠ .endOfStream := fun ends => by
      simp [Token.isContextual, show s.current.kind = _ from ends] at isMid
    obtain ⟨k, rest, follows, -⟩ := following_of_stream stream goesOn
    refine (peekNth_one stream behind).bind fun found t facts => ?_
    obtain ⟨kind, same⟩ := facts
    split
    next opens =>
      have tokens := same.ahead
      have goesOn : t.kind ≠ .endOfStream := by
        rwa [ParseState.kind, (List.cons.inj tokens).1]
      have reads := reads_advance (tokens ▸ stream)
      have following : t.advance.ahead = s.following := by
        rw [(advance_of_stream (tokens ▸ stream) goesOn).1, (List.cons.inj tokens).2]
      rw [← following]
      refine (trial_returns (same.markBehind behind) (.skip
        ((skipParenthesized_reads reads.stream).bind fun closed u facts => ?_))).mono
        fun _ _ facts => facts.imp_right same.trans
      obtain ⟨on, behindGroup⟩ := facts
      rw [behindGroup]
      cases closed with
      | false => exact .pure ⟨rfl, reads.trans on⟩
      | true => exact .get (.pure ⟨by simp, reads.trans on⟩)
    next other =>
      rw [kind, ParseState.kindAfter, follows] at other
      rw [follows, kindBehindGroup?_of_kind other]
      exact .pure ⟨rfl, same⟩
  next other =>
    rw [Bool.not_eq_true] at other
    rw [other]
    exact .pure ⟨rfl, .refl s⟩

theorem seesFileAttribute_sees : Sees seesFileAttribute s (atFileAttribute s.ahead) := by
  refine (peekNth_returns 1 stream behind (.inl rfl)).bind fun target t facts => .check ?_
  obtain ⟨isTarget, same⟩ := facts
  have tokens := same.ahead
  have kind : kindAt s.ahead 0 = t.kind := by
    rw [← tokens]
    rfl
  unfold atFileAttribute
  rw [isTarget.isContextualAt, isTarget.kindAt, kind]
  split
  next opens =>
    rw [opens, Bool.true_and]
    split
    next isTarget =>
      rw [isTarget, Bool.true_and, ← tokens]
      refine (peekNth_returns 2 (tokens ▸ stream) (same.markBehind behind) (.inl rfl)).bind
        fun mark u ⟨isMark, further⟩ => .pure ⟨?_, same.trans further⟩
      rw [isMark.kindAt]
    next other => exact .pure ⟨by simp [other], same⟩
  next other => exact .pure ⟨by simp [other], same⟩

/-- What a parser can find out about the tokens ahead.  Each of these is found by reading on, and it
is what the rules go by, which look at the tokens. -/
structure LooksAhead (s : ParseState) : Prop where
  current : Sees peek s s.current
  nth : ∀ n, Ensures (peekNth n) s fun found t => IsAt s.ahead n found ∧ s.Untouched t
  terminator : Sees seesTerminator s s.terminator?
  statementEnd : Sees seesStatementEnd s s.atStatementEnd
  ahead : ∀ kinds, Sees (seesAhead kinds) s (firstOutside kinds 0 s.ahead)
  lineStart : Sees seesLineStart s s.lineStart
  accessor : Sees seesAccessor s (accessor? s.ahead)
  siblingAccessor : Sees seesSiblingAccessor s s.atSiblingAccessor
  typeArguments : Sees seesTypeArguments s s.atTypeArguments
  arraySize : Sees seesArraySize s s.atArraySize
  midAssignment : Sees seesMidAssignment s s.atMidAssignment
  fileAttribute : Sees seesFileAttribute s (atFileAttribute s.ahead)

theorem looksAhead : LooksAhead s where
  current := ⟨rfl, .refl s⟩
  nth n := peekNth_returns n stream behind (.inl rfl)
  terminator := seesTerminator_sees stream behind
  statementEnd := seesStatementEnd_sees stream behind
  ahead := seesAhead_sees stream behind
  lineStart := seesLineStart_sees stream behind
  accessor := seesAccessor_sees stream behind
  siblingAccessor := seesSiblingAccessor_sees stream behind
  typeArguments := seesTypeArguments_sees stream behind
  arraySize := seesArraySize_sees stream behind
  midAssignment := seesMidAssignment_sees stream behind
  fileAttribute := seesFileAttribute_sees stream behind

end Parse

/-- In every state that a parser of a text comes to, no missing place is marked ahead, and no step
changes that.  So whatever the parser looks for ahead, it finds what the tokens say, and all that
has changed behind it is that comments are noted. -/
theorem lookahead_is_pure (o : ScanOptions) (text : String) (s : ParseState)
    (reached : (o.before text).Runs s) :
    s.MarkBehind ∧ (∀ t, s.Act t → t.MarkBehind) ∧ Parse.LooksAhead s := by
  have wf := reached.wf (ParseState.wf_start _ (stream_tokenize o text))
  exact ⟨wf.markBehind, fun t step => (step.wf wf).markBehind,
    Parse.looksAhead wf.stream wf.markBehind⟩

/-- Before `Mid` in this text, where something is marked as missing, the parser reads a group and
more to see that an assignment starts. -/
theorem lookahead_before_mid :
    let s := ScanOptions.standard.before " Mid(a) = 1 ' part"
    let marked := { s with placeholder := s.placeholder.later s.current.span.start }
    s.Runs marked ∧ marked.placeholder.index = 1 ∧ marked.atMidAssignment = true ∧
      marked.MarkBehind ∧ (∀ t, marked.Act t → t.MarkBehind) ∧ Parse.LooksAhead marked :=
  ⟨.act .mark, by decide +kernel, by decide +kernel, lookahead_is_pure _ _ _ (.act .mark)⟩

end VisualBasic
