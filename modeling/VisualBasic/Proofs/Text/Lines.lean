import VisualBasic.Proofs.Scan.Place
import VisualBasic.Proofs.Text.Bounds

/-!
The line that is shown with a diagnostic.  Locations count lines by all line breaks of the language,
a reader is shown lines that end with a line feed.  Both have the same line in the same place just
when every break up to the end of that line has a line feed.
-/

set_option autoImplicit false

namespace VisualBasic

/-- A line of a text and the place where it starts. -/
structure PlacedLine where
  start : Nat
  text : List Char
deriving DecidableEq

namespace PlacedLine

/-- Lines with one more character in front of the first one. -/
def consFirst (start : Nat) (c : Char) : List PlacedLine → List PlacedLine
  | [] => [⟨start, [c]⟩]
  | line :: lines => ⟨start, c :: line.text⟩ :: lines

theorem consFirst_zero (start : Nat) (c : Char) (lines : List PlacedLine) :
    (consFirst start c lines)[0]? = some ⟨start, c :: (lines[0]?.elim [] PlacedLine.text)⟩ := by
  cases lines <;> rfl

theorem consFirst_succ (start : Nat) (c : Char) (lines : List PlacedLine) (k : Nat) :
    (consFirst start c lines)[k + 1]? = lines[k + 1]? := by
  cases lines <;> rfl

end PlacedLine

open PlacedLine

/-- The lines that a text editor shows, each with its place. -/
def shownLines (start : Nat) : List Char → List PlacedLine
  | [] => []
  | '\n' :: rest => ⟨start, []⟩ :: shownLines (start + 1) rest
  | '\r' :: '\n' :: rest => ⟨start, []⟩ :: shownLines (start + 2) rest
  | c :: rest => consFirst start c (shownLines (start + 1) rest)

/-- The lines that locations count, each with its place.  A line follows the last line break. -/
def sourceLines (start : Nat) : List Char → List PlacedLine
  | [] => [⟨start, []⟩]
  | '\r' :: '\n' :: rest => ⟨start, []⟩ :: sourceLines (start + 2) rest
  | c :: rest =>
    if isLineTerminator c then ⟨start, []⟩ :: sourceLines (start + 1) rest
    else consFirst start c (sourceLines (start + 1) rest)

/-- The line breaks of a text in order. -/
def breaksOf : List Char → List (List Char)
  | [] => []
  | '\r' :: '\n' :: rest => ['\r', '\n'] :: breaksOf rest
  | c :: rest => if isLineTerminator c then [c] :: breaksOf rest else breaksOf rest

theorem map_text_shownLines (start : Nat) (cs : List Char) :
    (shownLines start cs).map PlacedLine.text = textLines cs := by
  fun_induction shownLines start cs with
  | case1 => rfl
  | case2 start rest ih => rw [textLines, List.map_cons, ih]
  | case3 start rest ih => rw [textLines, List.map_cons, ih]
  | case4 start c rest _ _ ih =>
    rw [textLines, ← ih]
    · cases shownLines (start + 1) rest <;> rfl
    all_goals assumption

-- One character or break more

section

variable {c : Char} {rest : List Char}

/-- The characters are no carriage return with a line feed behind it. -/
def Apart (c : Char) (rest : List Char) : Prop := ∀ more, c = '\r' → rest = '\n' :: more → False

theorem shownLines_cons (apart : Apart c rest) (noFeed : c ≠ '\n') (start : Nat) :
    shownLines start (c :: rest) = consFirst start c (shownLines (start + 1) rest) := by
  rw [shownLines]
  · exact noFeed
  · exact apart

theorem sourceLines_break (apart : Apart c rest) (isBreak : isLineTerminator c = true)
    (start : Nat) :
    sourceLines start (c :: rest) = ⟨start, []⟩ :: sourceLines (start + 1) rest := by
  rw [sourceLines, if_pos isBreak]
  exact apart

theorem sourceLines_cons (inside : isLineTerminator c = false) (start : Nat) :
    sourceLines start (c :: rest) = consFirst start c (sourceLines (start + 1) rest) := by
  rw [sourceLines, if_neg (by simp [inside])]
  rintro more rfl -
  contradiction

theorem breaksOf_break (apart : Apart c rest) (isBreak : isLineTerminator c = true) :
    breaksOf (c :: rest) = [c] :: breaksOf rest := by
  rw [breaksOf, if_pos isBreak]
  exact apart

theorem breaksOf_cons (inside : isLineTerminator c = false) :
    breaksOf (c :: rest) = breaksOf rest := by
  rw [breaksOf, if_neg (by simp [inside])]
  rintro more rfl -
  contradiction

end

/-- The first line that is counted. -/
theorem sourceLines_zero (start : Nat) (cs : List Char) :
    (sourceLines start cs)[0]? = some ⟨start, Scan.lineText cs⟩ := by
  induction cs using countBreaks.induct generalizing start with
  | case1 => rfl
  | case2 rest => rfl
  | case3 c rest apart isBreak => simp [sourceLines_break apart isBreak, Scan.lineText, isBreak]
  | case4 c rest _ inside ih =>
    have inside := Bool.of_not_eq_true inside
    rw [sourceLines_cons inside, consFirst_zero, ih]
    simp [Scan.lineText, inside]

/-- The first line that is shown, if the text is not empty. -/
theorem shownLines_zero (start : Nat) (c : Char) (rest : List Char) :
    ∃ line, (shownLines start (c :: rest))[0]? = some ⟨start, line⟩ := by
  unfold shownLines
  split
  next empty => cases empty
  next => exact ⟨[], rfl⟩
  next => exact ⟨[], rfl⟩
  next => exact ⟨_, consFirst_zero ..⟩

/-- No line starts before the text. -/
theorem le_start_of_mem_shownLines {start : Nat} {cs : List Char} {line : PlacedLine}
    (member : line ∈ shownLines start cs) : start ≤ line.start := by
  fun_induction shownLines start cs with
  | case1 => contradiction
  | case2 start rest ih | case3 start rest ih =>
    rcases List.mem_cons.1 member with rfl | later
    · exact Nat.le_refl _
    · have := ih later
      omega
  | case4 start c rest _ _ ih =>
    cases lines : shownLines (start + 1) rest with
    | nil =>
      rw [lines] at member
      obtain rfl := List.mem_singleton.1 member
      exact Nat.le_refl _
    | cons first others =>
      rw [lines] at member ih
      rcases List.mem_cons.1 member with rfl | later
      · exact Nat.le_refl _
      · have := ih (List.mem_cons_of_mem _ later)
        omega

theorem lt_start_of_shownLines {start later i : Nat} {cs : List Char} {line : PlacedLine}
    (behind : start < later) (isLater : (shownLines later cs)[i]? = some line) :
    start < line.start :=
  Nat.lt_of_lt_of_le behind (le_start_of_mem_shownLines (List.mem_of_getElem? isLater))

/-- A line that is shown starts behind every line that is counted before it: there are no more line
feeds than breaks. -/
theorem start_lt_start {cs : List Char} {start j k : Nat} {shown counted : PlacedLine}
    (before : k ≤ j) (isShown : (shownLines start cs)[j + 1]? = some shown)
    (isCounted : (sourceLines start cs)[k]? = some counted) : counted.start < shown.start := by
  induction cs using countBreaks.induct generalizing start j k with
  | case1 => cases isShown
  | case2 rest ih =>
    rw [shownLines, List.getElem?_cons_succ] at isShown
    rw [sourceLines] at isCounted
    cases k with
    | zero =>
      obtain rfl := Option.some.inj isCounted
      exact lt_start_of_shownLines (Nat.lt_add_of_pos_right Nat.two_pos) isShown
    | succ k =>
      obtain ⟨j, rfl⟩ : ∃ i, j = i + 1 := ⟨j - 1, by omega⟩
      exact ih (Nat.le_of_succ_le_succ before) isShown isCounted
  | case3 c rest apart isBreak ih =>
    rw [sourceLines_break apart isBreak] at isCounted
    by_cases feed : c = '\n'
    · subst feed
      rw [shownLines, List.getElem?_cons_succ] at isShown
      cases k with
      | zero =>
        obtain rfl := Option.some.inj isCounted
        exact lt_start_of_shownLines (Nat.lt_succ_self _) isShown
      | succ k =>
        obtain ⟨j, rfl⟩ : ∃ i, j = i + 1 := ⟨j - 1, by omega⟩
        exact ih (Nat.le_of_succ_le_succ before) isShown isCounted
    · rw [shownLines_cons apart feed, consFirst_succ] at isShown
      cases k with
      | zero =>
        obtain rfl := Option.some.inj isCounted
        exact lt_start_of_shownLines (Nat.lt_succ_self _) isShown
      | succ k => exact ih (Nat.le_of_succ_le before) isShown isCounted
  | case4 c rest apart inside ih =>
    have noFeed : c ≠ '\n' := by
      rintro rfl
      contradiction
    rw [shownLines_cons apart noFeed, consFirst_succ] at isShown
    rw [sourceLines_cons (Bool.of_not_eq_true inside)] at isCounted
    cases k with
    | zero =>
      rw [consFirst_zero] at isCounted
      obtain rfl := Option.some.inj isCounted
      exact lt_start_of_shownLines (Nat.lt_succ_self _) isShown
    | succ k =>
      rw [consFirst_succ] at isCounted
      exact ih before isShown isCounted

/-- The line that is shown is the line that is counted just when each break up to its end has a line
feed. -/
theorem shown_eq_counted_iff {cs : List Char} {start k : Nat} {shown : PlacedLine}
    (isShown : (shownLines start cs)[k]? = some shown) :
    (sourceLines start cs)[k]? = some shown ↔ ∀ b ∈ (breaksOf cs).take (k + 1), '\n' ∈ b := by
  induction cs using countBreaks.induct generalizing start k shown with
  | case1 => cases isShown
  | case2 rest ih =>
    rw [shownLines] at isShown
    rw [sourceLines, breaksOf, List.take_succ_cons, List.forall_mem_cons]
    cases k with
    | zero => simpa using isShown
    | succ k => simpa using ih isShown
  | case3 c rest apart isBreak ih =>
    rw [sourceLines_break apart isBreak, breaksOf_break apart isBreak, List.take_succ_cons,
      List.forall_mem_cons]
    by_cases feed : c = '\n'
    · subst feed
      rw [shownLines] at isShown
      cases k with
      | zero => simpa using isShown
      | succ k => simpa using ih isShown
    · -- this break is shown as part of a line
      rw [shownLines_cons apart feed] at isShown
      have loose : '\n' ∉ [c] := fun member => feed (List.mem_singleton.1 member).symm
      simp only [loose, false_and, iff_false]
      intro same
      cases k with
      | zero =>
        rw [consFirst_zero] at isShown
        rw [List.getElem?_cons_zero, ← isShown] at same
        cases same
      | succ k =>
        rw [consFirst_succ] at isShown
        exact absurd (start_lt_start (Nat.le_refl k) isShown same) (Nat.lt_irrefl _)
  | case4 c rest apart inside ih =>
    have noFeed : c ≠ '\n' := by
      rintro rfl
      contradiction
    have inside := Bool.of_not_eq_true inside
    rw [shownLines_cons apart noFeed] at isShown
    rw [sourceLines_cons inside, breaksOf_cons inside]
    cases k with
    | zero =>
      rw [consFirst_zero] at isShown
      obtain rfl := Option.some.inj isShown
      rw [consFirst_zero, sourceLines_zero]
      cases rest with
      | nil => simp [shownLines, Scan.lineText, breaksOf]
      | cons d more =>
        obtain ⟨line, first⟩ := shownLines_zero (start + 1) d more
        rw [← ih first, sourceLines_zero, first]
        simp
    | succ k =>
      rw [consFirst_succ] at isShown ⊢
      exact ih isShown

-- The line around a place

theorem countBreaks_eq_zero_iff {cs : List Char} :
    countBreaks cs = 0 ↔ ∀ c ∈ cs, isLineTerminator c = false := by
  induction cs using countBreaks.induct with
  | case1 => simp [countBreaks]
  | case2 rest => simp [countBreaks, isLineTerminator]
  | case3 c rest _ isBreak => simp [countBreaks, isBreak]
  | case4 c rest _ inside ih => simp [countBreaks, inside, ih]

theorem lastLine_eq_self {cs : List Char} (inside : ∀ c ∈ cs, isLineTerminator c = false) :
    lastLine cs = cs := by
  have all : cs.reverse.takeWhile (fun c => !isLineTerminator c) = cs.reverse :=
    List.takeWhile_eq_self_iff.2 fun c member => by simp [inside c (List.mem_reverse.1 member)]
  rw [lastLine, all, List.reverse_reverse]

/-- What stands behind the last break is the same whatever stands before a break. -/
theorem lastLine_cons (c : Char) (rest : List Char) :
    lastLine (c :: rest) =
      if isLineTerminator c = false ∧ countBreaks rest = 0 then c :: lastLine rest
      else lastLine rest := by
  unfold lastLine
  rw [List.reverse_cons, List.takeWhile_append]
  by_cases none : countBreaks rest = 0
  · have inside := lastLine_eq_self (countBreaks_eq_zero_iff.1 none)
    rw [lastLine, List.reverse_eq_iff] at inside
    rw [inside]
    cases ends : isLineTerminator c <;> simp [none, ends]
  · rw [if_neg, if_neg fun both => none both.2]
    intro whole
    have all := (List.takeWhile_prefix _).eq_of_length whole
    rw [List.takeWhile_eq_self_iff] at all
    refine none (countBreaks_eq_zero_iff.2 fun d member => ?_)
    simpa using all d (List.mem_reverse.2 member)

theorem lastLine_break {c : Char} (isBreak : isLineTerminator c = true) (rest : List Char) :
    lastLine (c :: rest) = lastLine rest := by
  rw [lastLine_cons, if_neg (by simp [isBreak])]

/-- The line behind some breaks begins with what stands behind the last of them. -/
theorem sourceLines_append {before after : List Char} (whole : ¬ CutsBreak before after)
    (start : Nat) :
    (sourceLines start (before ++ after))[countBreaks before]? =
      some ⟨start + before.length - (lastLine before).length,
        lastLine before ++ Scan.lineText after⟩ := by
  have whole' {c : Char} {rest : List Char} (whole : ¬ CutsBreak (c :: rest) after) :
      ¬ CutsBreak rest after := fun cut => whole (cutsBreak_cons.2 (.inr cut))
  induction before using countBreaks.induct generalizing start with
  | case1 => exact sourceLines_zero start after
  | case2 rest ih =>
    have found := ih (whole' (whole' whole)) (start + 2)
    rw [countBreaks, lastLine_break rfl, lastLine_break rfl, List.cons_append, List.cons_append,
      sourceLines, List.getElem?_cons_succ, found, List.length_cons, List.length_cons,
      show start + 2 + rest.length = start + (rest.length + 1 + 1) by omega]
  | case3 c rest apart isBreak ih =>
    have count : countBreaks (c :: rest) = countBreaks rest + 1 := by
      rw [countBreaks, if_pos isBreak]
      exact apart
    have apart' : Apart c (rest ++ after) := by
      rintro more rfl follows
      cases rest with
      | nil => exact whole (by simp [CutsBreak, show after = '\n' :: more from follows])
      | cons d others =>
        obtain ⟨rfl, -⟩ := List.cons.inj follows
        exact apart others rfl rfl
    have found := ih (whole' whole) (start + 1)
    rw [count, lastLine_break isBreak, List.cons_append, sourceLines_break apart' isBreak,
      List.getElem?_cons_succ, found, List.length_cons,
      show start + 1 + rest.length = start + (rest.length + 1) by omega]
  | case4 c rest apart inside ih =>
    have inside := Bool.of_not_eq_true inside
    have count : countBreaks (c :: rest) = countBreaks rest := by
      rw [countBreaks, if_neg (by simp [inside])]
      exact apart
    have found := ih (whole' whole) (start + 1)
    rw [count, List.cons_append, sourceLines_cons inside, lastLine_cons]
    cases before : countBreaks rest with
    | zero =>
      have none := lastLine_eq_self (countBreaks_eq_zero_iff.1 before)
      rw [before] at found
      rw [if_pos ⟨inside, rfl⟩, consFirst_zero, found, none]
      simp
    | succ k =>
      rw [before] at found
      rw [if_neg (by simp), consFirst_succ, found, List.length_cons,
        show start + 1 + rest.length = start + (rest.length + 1) by omega]

/-- The line around a place of a text. -/
def lineAround (cs : List Char) (place : Nat) : PlacedLine :=
  ⟨place - (lastLine (cs.take place)).length,
    lastLine (cs.take place) ++ Scan.lineText (cs.drop place)⟩

/-- The line of a location is the one around its place. -/
theorem Location.IsExact.line_eq {l : Location} {tab : Nat} {cs : List Char}
    (exact' : l.IsExact tab cs) : (sourceLines 0 cs)[l.line - 1]? = some (lineAround cs l.index) := by
  have count : l.line - 1 = countBreaks (cs.take l.index) := by
    have line : l.line = 1 + countBreaks (cs.take l.index) := congrArg Location.line exact'.place
    rw [line, Nat.add_sub_cancel_left]
  have found := sourceLines_append exact'.whole 0
  rw [List.take_append_drop] at found
  rw [count, found, List.length_take, Nat.min_eq_left exact'.within, Nat.zero_add, lineAround]

-- What is reported

/-- What holds of the places of all tokens, and of the start of the text, holds of the places of all
diagnostics. -/
theorem Moves.places {α : Type} [Relocate α] {rule : Rules → Bodies → Parse α} (moves : Moves rule)
    (isScript : Bool) (o : ScanOptions) (text : String) (P : Location → Prop)
    (places : ∀ t ∈ o.tokenize text, P t.span.start ∧ P t.span.finish) (origin : P .origin) :
    ∀ d ∈ (parseTokens rule o.version isScript (o.tokenize text)).diagnostics,
      P d.span.start ∧ P d.span.finish := by
  classical
  -- a relocation that moves only the places of which it does not hold
  let g (l : Location) : Location := if P l then l else { l with line := l.line + 1 }
  have index (l : Location) : (g l).index = l.index := by
    unfold g
    split <;> rfl
  have stays {l : Location} (holds : P l) : g l = l := if_pos holds
  have holds {l : Location} (still : g l = l) : P l := by
    by_contra other
    have moved : l.line + 1 = l.line := congrArg Location.line ((if_neg other).symm.trans still)
    omega
  have still := moves.fixed o.version isScript (stream_tokenize o text) (g := g)
    (fun a b => by rw [index, index]) (stays origin)
    (relocate_tokens fun t member => ⟨stays (places t member).1, stays (places t member).2⟩)
  intro d member
  have fixed := relocate_eq_iff_forall.1 (congrArg Parsed.diagnostics still) d member
  have span := congrArg Diagnostic.span fixed
  exact ⟨holds (congrArg Span.start span), holds (congrArg Span.finish span)⟩

/-- What is reported about a text, whatever it is parsed as. -/
def reports (o : ScanOptions) (text : String) : List Diagnostic :=
  (parseFile o text).diagnostics ++ (parseScript o text).diagnostics ++
    (parseDeclaration o text).diagnostics ++ (parseStatement o text).diagnostics ++
    (parseExpression o text).diagnostics ++ (parseTypeName o text).diagnostics

theorem isExact_of_mem_reports (o : ScanOptions) (text : String) :
    ∀ d ∈ reports o text, d.span.start.IsExact o.effectiveTab text.toList := by
  have tokens : ∀ t ∈ o.tokenize text, t.span.start.IsExact o.effectiveTab text.toList ∧
      t.span.finish.IsExact o.effectiveTab text.toList := Reader.Stands.tokens _ (.ofText _ _)
  have origin : Location.origin.IsExact o.effectiveTab text.toList :=
    ⟨Nat.zero_le _, rfl, not_cutsAt_zero _⟩
  have starts {α : Type} [Relocate α] {rule : Rules → Bodies → Parse α} (moves : Moves rule)
      (isScript : Bool) : ∀ d ∈ (parseTokens rule o.version isScript (o.tokenize text)).diagnostics,
        d.span.start.IsExact o.effectiveTab text.toList := by
    intro d member
    exact (moves.places isScript o text (fun l => l.IsExact o.effectiveTab text.toList) tokens
      origin d member).1
  unfold reports
  simp only [List.forall_mem_append]
  exact ⟨⟨⟨⟨⟨starts moves_wholeFile false, starts moves_wholeScript true⟩,
    starts moves_singleDeclaration false⟩, starts moves_singleStatement false⟩,
    starts moves_expression false⟩, starts moves_typeName false⟩

namespace Diagnostic

/-- The message over a line of the source, with the place marked below it. -/
def renderOver (line : List Char) (d : Diagnostic) : String :=
  "error: " ++ d.problem.message ++ "\n --> " ++ d.span.start.render ++ "\n  |\n  | "
    ++ String.ofList line ++ "\n  | " ++ spaces (max d.span.start.column 1 - 1)
    ++ carets (markWidth d.span)

/-- The line that is shown with a diagnostic, if there is one. -/
def shownLine? (source : String) (d : Diagnostic) : Option PlacedLine :=
  (shownLines 0 source.toList)[d.span.start.line - 1]?

theorem renderIn_eq (source : String) (d : Diagnostic) :
    d.renderIn source = (d.shownLine? source).elim d.render fun line => d.renderOver line.text := by
  unfold renderIn shownLine?
  rw [← map_text_shownLines 0, List.getElem?_map]
  cases (shownLines 0 source.toList)[d.span.start.line - 1]? <;> rfl

end Diagnostic

/-- Every location at which something is reported is in the line that it counts.  A rendered
diagnostic shows that line, if it shows one, just when each line break up to the end of the line has a
line feed. -/
theorem rendering_shows_its_line (o : ScanOptions) (text : String) :
    ∀ d ∈ reports o text,
      (sourceLines 0 text.toList)[d.span.start.line - 1]? =
          some (lineAround text.toList d.span.start.index) ∧
        d.renderIn text =
          (d.shownLine? text).elim d.render (fun line => d.renderOver line.text) ∧
        ∀ shown ∈ d.shownLine? text,
          shown = lineAround text.toList d.span.start.index ↔
            ∀ b ∈ (breaksOf text.toList).take d.span.start.line, '\n' ∈ b := by
  intro d member
  have place := isExact_of_mem_reports o text d member
  refine ⟨place.line_eq, d.renderIn_eq text, fun shown isShown => ?_⟩
  have first : 1 ≤ d.span.start.line := by
    rw [place.place]
    exact Nat.le_add_right 1 _
  have agrees := shown_eq_counted_iff isShown
  rw [place.line_eq, Nat.sub_add_cancel first, Option.some.injEq] at agrees
  rw [eq_comm, agrees]

/-- Two lines with a carriage return and a line feed between them, the second of which lacks an
expression. -/
def twoLines : String := "x = 1\r\ny ="

theorem second_line_is_shown :
    ∃ d ∈ reports .standard twoLines, d.renderIn twoLines = d.renderOver ['y', ' ', '='] ∧
      lineAround twoLines.toList d.span.start.index = ⟨7, ['y', ' ', '=']⟩ := by
  obtain ⟨d, member, line⟩ : ∃ d ∈ reports .standard twoLines, d.span.start.line = 2 := by
    decide +kernel
  obtain ⟨-, rendered, agrees⟩ := rendering_shows_its_line .standard twoLines d member
  have shown : d.shownLine? twoLines = some ⟨7, ['y', ' ', '=']⟩ := by
    rw [Diagnostic.shownLine?, line]
    decide +kernel
  have same := (agrees _ shown).2 (by rw [line]; decide +kernel)
  rw [shown] at rendered
  exact ⟨d, member, rendered, same.symm⟩

/-- A line that a lone carriage return ends is not counted by the lines that are shown: the line
behind the one with the problem is shown in its place. -/
theorem other_line_is_shown :
    ∃ d ∈ reports .standard "\ra =\nb = 1",
      d.renderIn "\ra =\nb = 1" = "error: expected expression\n --> 2:4\n  |\n  | b = 1\n  |    ^" ∧
        (sourceLines 0 "\ra =\nb = 1".toList)[d.span.start.line - 1]? = some ⟨1, ['a', ' ', '=']⟩ := by
  decide +kernel

end VisualBasic
