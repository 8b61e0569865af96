import VisualBasic.Proofs.Scan.Blank
import VisualBasic.Proofs.Tandem.Source

/-!
Directives leave no trace in the tree.  A text and the same text with blanks in place of its directives
have the same tokens but for the directives, so both are parsed to the same tree; the diagnostics that
are missing are about directives.
-/

set_option autoImplicit false

namespace VisualBasic

/-- The text with blanks in place of its directives. -/
def ScanOptions.blankDirectives (o : ScanOptions) (text : String) : String :=
  String.ofList (blankAt (inDirective true (o.tokenize text)) 0 text.toList)

theorem Location.index_id (a b : Location) : (id a).index < (id b).index ↔ a.index < b.index := Iff.rfl

theorem Location.anchored_id (moved : 0 < (id Location.origin).index) (a : Location) :
    a.index = 0 → id a = id .origin :=
  absurd moved (Nat.lt_irrefl 0)

theorem Location.inPlace_id (_ : True) : (id : Location → Location) = id := rfl

theorem Token.start_id (t : Token) : t.span.start = id t.span.start := rfl

theorem Token.joint_id (t : Token) : t.kind = .lineTerminator ∨
    t = relocate (id : Location → Location) t ∧ ([] : List Token) = [] :=
  .inr ⟨(relocate_id t).symm, rfl⟩

/-- The second text has no directives. -/
def Seam.blanking (last : Token) (ends : last.kind = .endOfStream) : Seam where
  carry := id
  last := last
  first := last
  rest := []
  found := []
  recorded := .empty
  drops := True
  loops := True
  settles := False
  fresh := True
  ordered := Location.index_id
  anchored := Location.anchored_id
  inPlace := Location.inPlace_id
  ends := ends
  meets := Token.start_id last
  joint := Token.joint_id last

/-- The tokens that the parser is given. -/
abbrev significant (tokens : List Token) : List Token := tokens.filter fun t => !t.isComment

theorem significant_append (a b : List Token) : significant (a ++ b) = significant a ++ significant b :=
  List.filter_append ..

theorem significant_cons {t : Token} (plain : t.kind ≠ .comment) (rest : List Token) :
    significant (t :: rest) = t :: significant rest := by
  rw [significant, List.filter_cons_of_pos]
  simpa [Token.isComment] using plain

-- Tokens

/-- A line that both texts have. -/
theorem Seam.ahead_line {c : Seam} (inPlace : c.carry = id) {line xs ys : List Token} {ending : Token}
    (inside : ∀ t ∈ line, t.kind.endsLine = false) (breaks : ending.kind = .lineTerminator)
    (ahead : c.Ahead true xs ys) (fresh : Bool)
    (plain : ∀ t ∈ line.head?, fresh = true → t.kind ≠ .mark .pound) :
    c.Ahead fresh (line ++ ending :: xs) (line ++ ending :: ys) := by
  have stays (t : Token) : relocate c.carry t = t := by
    rw [inPlace]
    exact relocate_id t
  induction line generalizing fresh with
  | nil =>
    have cons : c.Ahead fresh (ending :: xs) (relocate c.carry ending :: ys) := by
      apply Ahead.cons
      · simp [breaks]
      · simp [breaks]
      · simp [breaks]
      · rw [breaks]
        exact ahead
    rwa [stays] at cons
  | cons t line ih =>
    obtain ⟨first, others⟩ := List.forall_mem_cons.1 inside
    have cons : c.Ahead fresh (t :: (line ++ ending :: xs))
        (relocate c.carry t :: (line ++ ending :: ys)) := by
      apply Ahead.cons
      · intro ends
        rw [ends] at first
        cases first
      · intro remark
        rw [remark] at first
        cases first
      · exact fun _ starts => plain t rfl starts
      · have goesOn : (t.kind == .lineTerminator) = false := by
          rw [beq_eq_false_iff_ne]
          intro breaks
          rw [breaks] at first
          cases first
        rw [goesOn]
        exact ih others false (by simp)
    rwa [stays] at cons

namespace Reader

variable {version : Version} {tab : Nat} {r : Reader} {line rest : List Token} {ending : Token}

theorem left_ne_nil : r.left version tab ≠ [] := by
  by_cases ends : (r.next version tab).1.kind = .endOfStream
  · simp [left_of_ends ends]
  · simp [left_of_goesOn ends]

/-- Only the last token ends the stream. -/
theorem goesOn_of_left (found : r.left version tab = line ++ ending :: rest) :
    ∀ t ∈ line, t.kind ≠ .endOfStream := by
  induction line generalizing r with
  | nil => simp
  | cons t line ih =>
    have first := next_of_left found
    have goesOn : (r.next version tab).1.kind ≠ .endOfStream := by
      intro ends
      rw [left_of_ends ends] at found
      simp at found
    rw [left_of_goesOn goesOn] at found
    exact List.forall_mem_cons.2 ⟨first ▸ goesOn, ih (List.cons.inj found).2⟩

/-- What the parser is given of a line ends no line. -/
theorem inside_significant (found : r.left version tab = line ++ ending :: rest)
    (inside : ∀ t ∈ line, t.kind ≠ .lineTerminator) :
    ∀ t ∈ significant line, t.kind.endsLine = false := by
  intro t member
  obtain ⟨member, plain⟩ := List.mem_filter.1 member
  have plain : t.kind ≠ .comment := by simpa [Token.isComment] using plain
  have goesOn := goesOn_of_left found t member
  have unbroken := inside t member
  cases kind : t.kind <;> simp [kind, TokenKind.endsLine] at plain goesOn unbroken ⊢

/-- A line that starts with no sign has none at its start when comments are passed over. -/
theorem plain_significant (found : r.left version tab = line ++ ending :: rest)
    (inside : ∀ t ∈ line, t.kind ≠ .lineTerminator)
    (plain : (line.head?.any fun t => t.kind == .mark .pound) = false) :
    ∀ t ∈ (significant line).head?, t.kind ≠ .mark .pound := by
  cases line with
  | nil => simp
  | cons t line =>
    have other : t.kind ≠ .mark .pound := by simpa using plain
    by_cases remark : t.kind = .comment
    · cases line with
      | nil => simp [significant, Token.isComment, remark]
      | cons u line =>
        -- behind a comment the line ends
        rcases left_comment found remark with breaks | ends
        · exact absurd breaks (inside u (by simp))
        · exact absurd ends (goesOn_of_left found u (by simp))
    · rw [significant_cons remark]
      simpa using other

end Reader

theorem exists_line (tokens : List Token) : (∀ t ∈ tokens, t.kind ≠ .lineTerminator) ∨
    ∃ line ending rest, tokens = line ++ ending :: rest ∧
      (∀ t ∈ line, t.kind ≠ .lineTerminator) ∧ ending.kind = .lineTerminator := by
  cases found : tokens.find? fun t => t.kind == .lineTerminator with
  | none => exact .inl (by simpa using found)
  | some ending =>
    obtain ⟨breaks, line, rest, same, inside⟩ := List.find?_eq_some_iff_append.1 found
    exact .inr ⟨line, ending, rest, same, by simpa using inside, by simpa using breaks⟩

/-- The tokens end with a line break. -/
def EndsWithBreak (tokens : List Token) : Prop :=
  ∀ t ∈ tokens.dropLast.getLast?, t.kind = .lineTerminator

theorem EndsWithBreak.behind {line rest : List Token} {ending : Token}
    (closed : EndsWithBreak (line ++ ending :: rest)) (more : rest ≠ []) : EndsWithBreak rest := by
  intro t member
  apply closed t
  have front : (line ++ ending :: rest).dropLast = (line ++ [ending]) ++ rest.dropLast := by
    rw [List.append_cons, List.dropLast_append_of_ne_nil more]
  rw [front, List.getLast?_append, member]
  rfl

/-- A text with no line break has no tokens. -/
theorem EndsWithBreak.eq_singleton {tokens : List Token} {last : Token} (closed : EndsWithBreak tokens)
    (isLast : tokens.getLast? = some last) (unbroken : ∀ t ∈ tokens, t.kind ≠ .lineTerminator) :
    tokens = [last] := by
  obtain ⟨front, rfl⟩ := List.getLast?_eq_some_iff.1 isLast
  unfold EndsWithBreak at closed
  rw [List.dropLast_concat] at closed
  cases none : front.getLast? with
  | none => rw [List.getLast?_eq_none_iff.1 none, List.nil_append]
  | some t =>
    have member : t ∈ front ++ [last] := List.mem_append_left _ (List.mem_of_getLast? none)
    exact absurd (closed t none) (unbroken t member)

/-- A text and the text without directives have the same tokens but for the directives. -/
theorem Seam.ahead_blank (version : Version) (tab : Nat) {last : Token} (ends : last.kind = .endOfStream)
    (r : Reader) (closed : EndsWithBreak (r.left version tab))
    (isLast : (r.left version tab).getLast? = some last) :
    (Seam.blanking last ends).Ahead true (significant (r.left version tab))
      (significant ((r.blank version tab).left version tab)) := by
  induction size : r.rest.length using Nat.strong_induction_on generalizing r with
  | _ n ih =>
    rcases exists_line (r.left version tab) with unbroken | ⟨line, ending, rest, found, inside, breaks⟩
    · have alone := closed.eq_singleton isLast unbroken
      have same : r.blank version tab = r := by
        unfold Reader.blank
        rw [alone, blankAt_of_outside]
        intro j _ _
        simp [inDirective, ends]
      rw [same, alone, significant_cons (by simp [ends])]
      exact Ahead.last (c := Seam.blanking last ends)
    · obtain ⟨y, c, more, reached⟩ := Reader.exists_breaks found breaks
      have solid := Reader.inside_significant found inside
      have apart : ending.kind ≠ .comment := by simp [breaks]
      -- both texts go on alike behind the line
      have behind {r' : Reader} (left : r'.left version tab = rest)
          (fewer : r'.rest.length < r.rest.length) :
          (Seam.blanking last ends).Ahead true (significant rest)
            (significant ((r'.blank version tab).left version tab)) := by
        have more : rest ≠ [] := left ▸ Reader.left_ne_nil
        have closed' := EndsWithBreak.behind (found ▸ closed) more
        have isLast' : rest.getLast? = some last := by
          rw [found, List.append_cons, List.getLast?_append_of_ne_nil _ more] at isLast
          exact isLast
        rw [← left] at closed' isLast' ⊢
        exact ih _ (size ▸ fewer) r' closed' isLast' rfl
      rw [found]
      cases plain : line.head?.any fun t => t.kind == .mark .pound with
      | false =>
        obtain ⟨r', left, fewer, same⟩ := Reader.left_blank_of_plain found inside breaks reached plain
        rw [same, significant_append, significant_append, significant_cons apart,
          significant_cons apart]
        refine Seam.ahead_line rfl solid breaks (behind left fewer) true fun t member _ => ?_
        exact Reader.plain_significant found inside plain t member
      | true =>
        obtain ⟨t, line, rfl⟩ : ∃ t tail, line = t :: tail := by
          cases line with
          | nil => cases plain
          | cons t tail => exact ⟨t, tail, rfl⟩
        have sign : t.kind = .mark .pound := by simpa using plain
        obtain ⟨r', left, fewer, before, ending', all, breaks', finish, same⟩ :=
          Reader.left_blank_of_directive found inside breaks reached sign
        have kept : significant before = before := by
          apply List.filter_eq_self.2
          intro u member
          simp [Token.isComment, all u member]
        have apart' : ending'.kind ≠ .comment := by simp [breaks']
        rw [significant_cons (by simp [sign])] at solid
        rw [same, List.cons_append, significant_cons (by simp [sign]), significant_append,
          significant_append, kept, significant_cons apart, significant_cons apart']
        exact .drop trivial sign (fun u member => solid u (List.mem_cons_of_mem t member)) all breaks
          breaks' finish (behind left fewer)

-- Whole texts

theorem ofText_blank (version : Version) (tab : Nat) (text : List Char) :
    Reader.ofText tab (blankAt (inDirective true (tokenize version tab text)) 0 text) =
      (Reader.ofText tab text).blank version tab := by
  rw [tokenize_eq_left]
  refine Reader.ofText_blankAt tab fun mark => inDirective_of_before (fun t member => ?_) true
  -- the mark stands before all tokens
  obtain ⟨rest, rfl⟩ := List.head?_eq_some_iff.1 mark
  exact Reader.index_le_of_mem_left member

namespace Parse

variable {last : Token} {ends : last.kind = .endOfStream} {k : Bound} {X Y : ParseState}
  {r r' : Rules} {b b' : Bodies}

/-- What is found in the text without directives has been found in the text. -/
theorem finish_blanking (near : Loose (Seam.blanking last ends) k X Y) :
    (finish.run Y).2.diagnostics.Sublist (finish.run X).2.diagnostics := by
  have uncut : ¬ (Seam.blanking last ends).IsCut := Seam.uncut_of_ends ends
  obtain ⟨found, all, part⟩ := (finish_near trivial near).reports uncut
  rw [all]
  exact relocate_id (finish.run X).2.diagnostics ▸ part

theorem wholeFile_blanking (readers : Readers (Seam.blanking last ends) (k + 1) r r')
    (bodies : b.Agree (Seam.blanking last ends) k b')
    (before : Before (Seam.blanking last ends) (k + 1) X Y) :
    ((wholeFile r' b').run Y).1.declarations = ((wholeFile r b).run X).1.declarations ∧
      ((wholeFile r' b').run Y).2.diagnostics.Sublist ((wholeFile r b).run X).2.diagnostics := by
  obtain ⟨value, after, -⟩ := declarations_tracks readers bodies before .file False.elim
  rw [run_wholeFile, run_wholeFile]
  refine ⟨?_, finish_blanking after⟩
  exact (congrArg Prod.fst value).trans (relocate_id ((declarations r b .file).run X).1.1)

theorem wholeScript_blanking (readers : Readers (Seam.blanking last ends) (k + 1) r r')
    (bodies : b.Agree (Seam.blanking last ends) k b')
    (before : Before (Seam.blanking last ends) (k + 1) X Y) :
    ((wholeScript r' b').run Y).1.statements = ((wholeScript r b).run X).1.statements ∧
      ((wholeScript r' b').run Y).2.diagnostics.Sublist ((wholeScript r b).run X).2.diagnostics := by
  obtain ⟨value, after, -⟩ := statements_tracks readers bodies before False.elim
  rw [run_wholeScript, run_wholeScript]
  refine ⟨?_, finish_blanking after⟩
  exact (congrArg Prod.fst value).trans (relocate_id ((statements r b).run X).1.1)

end Parse

/-- Two rules for texts that read tokens alike once directives are left out. -/
theorem parseTokens_blanking {α β : Type} (list : α → β) (rule : Rules → Bodies → Parse α)
    (version : Version) (isScript : Bool) {tokens tokens' : List Token} {last : Token}
    {ends : last.kind = .endOfStream} (stream : Stream (significant tokens))
    (ahead : (Seam.blanking last ends).Ahead true (significant tokens) (significant tokens'))
    (reads : ∀ (k : Bound) (r r' : Rules) (b b' : Bodies) (X Y : ParseState),
      Readers (Seam.blanking last ends) (k + 1) r r' → b.Agree (Seam.blanking last ends) k b' →
      Before (Seam.blanking last ends) (k + 1) X Y →
        list ((rule r' b').run Y).1 = list ((rule r b).run X).1 ∧
          ((rule r' b').run Y).2.diagnostics.Sublist ((rule r b).run X).2.diagnostics) :
    list (parseTokens rule version isScript tokens').tree =
        list (parseTokens rule version isScript tokens).tree ∧
      (parseTokens rule version isScript tokens').diagnostics.Sublist
        (parseTokens rule version isScript tokens).diagnostics := by
  have before := Before.start rfl (tokens.filterMap Token.comment?)
    (tokens'.filterMap Token.comment?) (fun _ _ keeps => absurd trivial keeps) stream ahead
  unfold parseTokens
  dsimp only
  change Seam.Ahead _ _ (tokens.filter fun t => !t.isComment) (tokens'.filter fun t => !t.isComment)
    at ahead
  unfold significant at before
  generalize tokens.filter (fun t => !t.isComment) = xs at before ⊢
  generalize tokens'.filter (fun t => !t.isComment) = ys at before ⊢
  have uncut : ¬ (Seam.blanking last ends).IsCut := Seam.uncut_of_ends ends
  have readers := Readers.ofDepth version (c := Seam.blanking last ends)
    (k := Bound.mk xs.length ys.length) trivial (fun cut => absurd cut uncut)
    ⟨Nat.le_refl _, Nat.le_refl _⟩
  have bodies := Bodies.agree_ofDepth (readers.mono (Bound.le_succ _)) isScript
    (n := xs.length + 1) (m := ys.length + 1) ⟨Nat.le_succ _, Nat.le_succ _⟩
  exact reads _ _ _ _ _ _ _ readers bodies before

theorem ahead_blankDirectives (o : ScanOptions) (text : String)
    (closed : EndsWithBreak (o.tokenize text)) :
    ∃ last, ∃ ends : last.kind = .endOfStream, (Seam.blanking last ends).Ahead true
      (significant (o.tokenize text)) (significant (o.tokenize (o.blankDirectives text))) := by
  obtain ⟨last, isLast, ends, -⟩ := (tokenize_tilesFrom o text).ending
  refine ⟨last, ends, ?_⟩
  have blanked : o.tokenize (o.blankDirectives text) =
      ((Reader.ofText o.effectiveTab text.toList).blank o.version o.effectiveTab).left o.version
        o.effectiveTab := by
    rw [ScanOptions.tokenize, ScanOptions.blankDirectives, String.toList_ofList, tokenize_eq_left,
      ScanOptions.tokenize, ofText_blank]
  have here : o.tokenize text = (Reader.ofText o.effectiveTab text.toList).left o.version
      o.effectiveTab :=
    tokenize_eq_left o.version o.effectiveTab text.toList
  rw [here] at closed isLast ⊢
  rw [blanked]
  exact Seam.ahead_blank o.version o.effectiveTab ends _ closed isLast

/-- A text whose last line is ended has the same declarations and statements, at the same places, with
its directives and without.  Without them there is no diagnostic that there was not with them. -/
theorem directives_are_inert (o : ScanOptions) (text : String)
    (closed : EndsWithBreak (o.tokenize text)) :
    ((parseFile o (o.blankDirectives text)).tree.declarations = (parseFile o text).tree.declarations ∧
        (parseFile o (o.blankDirectives text)).diagnostics.Sublist (parseFile o text).diagnostics) ∧
      (parseScript o (o.blankDirectives text)).tree.statements =
          (parseScript o text).tree.statements ∧
        (parseScript o (o.blankDirectives text)).diagnostics.Sublist
          (parseScript o text).diagnostics := by
  obtain ⟨last, ends, ahead⟩ := ahead_blankDirectives o text closed
  have stream : Stream (significant (o.tokenize text)) := stream_tokenize o text
  unfold parseFile parseScript
  generalize o.tokenize (o.blankDirectives text) = ys at ahead ⊢
  generalize o.tokenize text = xs at ahead stream ⊢
  constructor
  · apply parseTokens_blanking SourceFile.declarations Parse.wholeFile o.version false stream ahead
    intro k r r' b b' X Y readers bodies before
    exact Parse.wholeFile_blanking readers bodies before
  · apply parseTokens_blanking Script.statements Parse.wholeScript o.version true stream ahead
    intro k r r' b b' X Y readers bodies before
    exact Parse.wholeScript_blanking readers bodies before

/-- Both branches of a condition stay in the script. -/
theorem branches_are_kept :
    EndsWithBreak ((⟨.v80, 4⟩ : ScanOptions).tokenize "#If a Then\nx = 1\n#Else\ny = 2\n#End If\n") ∧
      (⟨.v80, 4⟩ : ScanOptions).blankDirectives "#If a Then\nx = 1\n#Else\ny = 2\n#End If\n" =
        "          \nx = 1\n     \ny = 2\n       \n" ∧
      (parseScript ⟨.v80, 4⟩ "          \nx = 1\n     \ny = 2\n       \n").tree.statements =
        (parseScript ⟨.v80, 4⟩ "#If a Then\nx = 1\n#Else\ny = 2\n#End If\n").tree.statements := by
  have closed : EndsWithBreak
      ((⟨.v80, 4⟩ : ScanOptions).tokenize "#If a Then\nx = 1\n#Else\ny = 2\n#End If\n") := by
    unfold EndsWithBreak
    decide +kernel
  have blank : (⟨.v80, 4⟩ : ScanOptions).blankDirectives
      "#If a Then\nx = 1\n#Else\ny = 2\n#End If\n" =
        "          \nx = 1\n     \ny = 2\n       \n" := by
    decide +kernel
  have inert := directives_are_inert ⟨.v80, 4⟩ "#If a Then\nx = 1\n#Else\ny = 2\n#End If\n" closed
  exact ⟨closed, blank, blank ▸ inert.2.1⟩

end VisualBasic
