import VisualBasic.Proofs.Loop.Nest
import VisualBasic.Proofs.Text.Inert

/-!
Whole texts of loops within loops, as they are written down.
-/

set_option autoImplicit false

namespace VisualBasic

/-- Lines that open loops within each other, the outermost first, a line for the body of the innermost
one and the loop variables that one `Next` names. -/
structure LoopNest where
  outermost : LoopHead
  nested : List LoopHead
  target : SimpleName
  source : SimpleName
  first : SimpleName
  others : List SimpleName

namespace LoopNest

def heads (n : LoopNest) : List LoopHead := n.outermost :: n.nested

def closing (n : LoopNest) : List SimpleName := n.first :: n.others

end LoopNest

-- Lines

def LoopHead.chars (h : LoopHead) : List Char :=
  ['F', 'o', 'r', ' '] ++ (h.control.written ++ ([' ', '=', ' '] ++ (h.lower.written ++
    ([' ', 'T', 'o', ' '] ++ h.upper.written))))

def assignmentChars (target source : SimpleName) : List Char :=
  target.written ++ ([' ', '=', ' '] ++ source.written)

/-- A further line that ends loops, with a comma between any two names. -/
def nextChars : List SimpleName → List Char
  | [] => ['\n', 'N', 'e', 'x', 't']
  | n :: names => ['\n', 'N', 'e', 'x', 't', ' '] ++ (n.written ++
      names.flatMap fun other => [',', ' '] ++ other.written)

namespace LoopNest

/-- A line for every loop, the assignment, the `Next` with its variables, and a further `Next` for
every loop that has none of them. -/
def print (n : LoopNest) : String :=
  String.ofList <| (n.heads.flatMap fun h => h.chars ++ ['\n']) ++
    (assignmentChars n.target n.source ++ (nextChars n.closing ++
      (List.replicate (n.heads.length - n.closing.length) (nextChars [])).flatten))

def names (n : LoopNest) : List SimpleName :=
  n.heads.flatMap (fun h => [h.control, h.lower, h.upper]) ++ n.target :: n.source :: n.closing

def IsWritable (version : Version) (n : LoopNest) : Prop :=
  ∀ name ∈ n.names, name.IsWritable version

end LoopNest

section

variable {version : Version} {rest : List Char} {ls : List Lexeme}

theorem spells_for : SpellsBefore version EndsWord ['F', 'o', 'r'] (.keyword .kwFor "For") :=
  spells_reserved (k := .kwFor) (by decide) (by decide) (by decide) (by decide)
    (by simp [Keyword.sinceV8])

theorem spells_to : SpellsBefore version EndsWord ['T', 'o'] (.keyword .kwTo "To") :=
  spells_reserved (k := .kwTo) (by decide) (by decide) (by decide) (by decide)
    (by simp [Keyword.sinceV8])

theorem spells_next : SpellsBefore version EndsWord ['N', 'e', 'x', 't'] (.keyword .kwNext "Next") :=
  spells_reserved (k := .kwNext) (by decide) (by decide) (by decide) (by decide)
    (by simp [Keyword.sinceV8])

-- Words of these lines and what follows them

theorem scans_equals (more : Scans version rest ls) :
    Scans version ([' ', '=', ' '] ++ rest) (.punctuator .equals :: ls) := by
  have equals : Spells version ['='] (.punctuator .equals) :=
    spells_punctuator version (p := .equals) (by decide)
  change Scans version (' ' :: (['='] ++ ' ' :: rest)) _
  exact .blank (.word equals (.blank rest) (.blank more))

theorem scans_for (more : Scans version rest ls) :
    Scans version (['F', 'o', 'r', ' '] ++ rest) (.keyword .kwFor "For" :: ls) := by
  change Scans version (['F', 'o', 'r'] ++ ' ' :: rest) _
  exact .word spells_for (IsBreak.blank rest).endsWord (.blank more)

theorem scans_to (more : Scans version rest ls) :
    Scans version ([' ', 'T', 'o', ' '] ++ rest) (.keyword .kwTo "To" :: ls) := by
  change Scans version (' ' :: (['T', 'o'] ++ ' ' :: rest)) _
  exact .blank (.word spells_to (IsBreak.blank rest).endsWord (.blank more))

theorem scans_name {n : SimpleName} (writable : n.IsWritable version) (ends : EndsWord rest)
    (more : Scans version rest ls) : Scans version (n.written ++ rest) (n.lexeme version :: ls) :=
  .word (spells_written writable) ends more

theorem scans_comma (more : Scans version rest ls) :
    Scans version ([',', ' '] ++ rest) (.punctuator .comma :: ls) := by
  have comma : Spells version [','] (.punctuator .comma) :=
    spells_punctuator version (p := .comma) (by decide)
  change Scans version ([','] ++ ' ' :: rest) _
  exact .word comma (.blank rest) (.blank more)

-- The lines

theorem scans_head {h : LoopHead}
    (writable : ∀ n ∈ [h.control, h.lower, h.upper], n.IsWritable version)
    (more : Scans version rest ls) :
    Scans version (h.chars ++ '\n' :: rest) (h.lexemes version ++ .lineTerminator :: ls) := by
  simp only [List.forall_mem_cons] at writable
  obtain ⟨control, lower, upper, -⟩ := writable
  simp only [LoopHead.chars, List.append_assoc]
  refine scans_for (scans_name control ?_ (scans_equals (scans_name lower ?_ (scans_to
    (scans_name upper (.cons (by decide) rest) (.word (spells_lineEnd version) trivial more))))))
  · exact (IsBreak.blank _).endsWord
  · exact (IsBreak.blank _).endsWord

theorem scans_assignment {target source : SimpleName} (first : target.IsWritable version)
    (second : source.IsWritable version) (more : Scans version rest ls) (ends : EndsWord rest) :
    Scans version (assignmentChars target source ++ rest)
      (assignmentLexemes version target source ++ ls) := by
  simp only [assignmentChars, List.append_assoc]
  refine scans_name first ?_ (scans_equals (scans_name second ends more))
  exact (IsBreak.blank _).endsWord

/-- A comma or the end of the list follows every name. -/
theorem scans_others {names : List SimpleName} (writable : ∀ n ∈ names, n.IsWritable version)
    (ends : EndsWord rest) (more : Scans version rest ls) :
    EndsWord (names.flatMap (fun other => [',', ' '] ++ other.written) ++ rest) ∧
      Scans version (names.flatMap (fun other => [',', ' '] ++ other.written) ++ rest)
        (names.flatMap (fun other => [.punctuator .comma, other.lexeme version]) ++ ls) := by
  induction names with
  | nil => exact ⟨ends, more⟩
  | cons other names ih =>
    rw [List.forall_mem_cons] at writable
    obtain ⟨behind, scans⟩ := ih writable.2
    simp only [List.flatMap_cons, List.append_assoc]
    exact ⟨.cons (by decide) _, scans_comma (scans_name writable.1 behind scans)⟩

theorem scans_nextLine {names : List SimpleName} (writable : ∀ n ∈ names, n.IsWritable version)
    (ends : EndsWord rest) (more : Scans version rest ls) :
    EndsWord (nextChars names ++ rest) ∧ Scans version (nextChars names ++ rest)
      (.lineTerminator :: (nextLexemes version names ++ ls)) := by
  cases names with
  | nil =>
    refine ⟨.cons (by decide) _, ?_⟩
    change Scans version (['\n'] ++ (['N', 'e', 'x', 't'] ++ rest)) _
    exact .word (spells_lineEnd version) trivial (.word spells_next ends more)
  | cons n names =>
    rw [List.forall_mem_cons] at writable
    obtain ⟨behind, others⟩ := scans_others writable.2 ends more
    refine ⟨.cons (by decide) _, ?_⟩
    simp only [nextChars, nextLexemes, nameLexemes, List.append_assoc, List.cons_append]
    change Scans version (['\n'] ++ (['N', 'e', 'x', 't'] ++ ' ' :: (n.written ++ _))) _
    refine .word (spells_lineEnd version) trivial (.word spells_next ?_ (.blank ?_))
    · exact (IsBreak.blank _).endsWord
    · exact scans_name writable.1 behind others

theorem scans_later (version : Version) (count : Nat) :
    EndsWord (List.replicate count (nextChars [])).flatten ∧
      Scans version (List.replicate count (nextChars [])).flatten
        (List.replicate count (.lineTerminator :: nextLexemes version [])).flatten := by
  induction count with
  | zero => exact ⟨.nil, .nil⟩
  | succ count ih =>
    simp only [List.replicate_succ, List.flatten_cons]
    exact scans_nextLine (by simp) ih.1 ih.2

theorem scans_heads {heads : List LoopHead}
    (writable : ∀ h ∈ heads, ∀ n ∈ [h.control, h.lower, h.upper], n.IsWritable version)
    (more : Scans version rest ls) :
    Scans version ((heads.flatMap fun h => h.chars ++ ['\n']) ++ rest)
      ((heads.flatMap fun h => h.lexemes version ++ [.lineTerminator]) ++ ls) := by
  induction heads with
  | nil => exact more
  | cons h heads ih =>
    rw [List.forall_mem_cons] at writable
    simp only [List.flatMap_cons, List.append_assoc, List.singleton_append]
    exact scans_head writable.1 (ih writable.2)

end

namespace LoopNest

variable {version : Version} {n : LoopNest}

theorem names_writable (writable : n.IsWritable version) :
    (∀ h ∈ n.heads, ∀ name ∈ [h.control, h.lower, h.upper], name.IsWritable version) ∧
      n.target.IsWritable version ∧ n.source.IsWritable version ∧
      ∀ name ∈ n.closing, name.IsWritable version := by
  have member {name : SimpleName} (found : name ∈ n.names) := writable name found
  refine ⟨fun h inside name found => member ?_, member ?_, member ?_, fun name found => member ?_⟩
  · exact List.mem_append_left _ (List.mem_flatMap.2 ⟨h, inside, found⟩)
  · simp [names]
  · simp [names]
  · simp [names, found]

/-- The words of the lines. -/
theorem exists_scans (writable : n.IsWritable version) :
    ∃ ls, Scans version n.print.toList ls ∧ ls ++ [.endOfStream] =
      nestLexemes version n.heads n.target n.source n.closing n.heads.length := by
  obtain ⟨heads, target, source, closing⟩ := names_writable writable
  obtain ⟨apart, later⟩ := scans_later version (n.heads.length - n.closing.length)
  obtain ⟨apart, ends⟩ := scans_nextLine closing apart later
  have lines := scans_heads heads (scans_assignment target source ends apart)
  refine ⟨_, by rw [print, String.toList_ofList]; exact lines, ?_⟩
  simp only [nestLexemes, endLexemes, laterLexemes, List.append_assoc, List.cons_append]

/-- The tokens of the lines. -/
theorem significant_print {o : ScanOptions} (writable : n.IsWritable o.version) :
    (significant (o.tokenize n.print)).map Token.lexeme =
      nestLexemes o.version n.heads n.target n.source n.closing n.heads.length := by
  obtain ⟨ls, scans, whole⟩ := exists_scans writable
  have unmarked : n.print.toList.head? ≠ some Reader.byteOrderMark := by
    simp [print, LoopNest.heads, LoopHead.chars, Reader.byteOrderMark]
  have tokens : (o.tokenize n.print).map Token.lexeme = ls ++ [.endOfStream] :=
    scans.lexemes o.effectiveTab unmarked
  rw [significant, filter_isComment tokens scans.kind_ne_comment, ← whole]
  exact tokens

end LoopNest

namespace Parse

variable {version : Version} {s : ParseState} {blocks : List OpenBlock} {k : Nat}

theorem dropPendingNext_reports (pending : PendingNext) (s : ParseState) :
    Ensures (dropPendingNext pending) s fun _ t =>
      t.diagnostics = s.diagnostics ++ [⟨.stray .next, pending.span⟩] ∧
        t.directives = s.directives :=
  ⟨rfl, rfl⟩

theorem finishDirectives_none (closed : s.directives = .none) :
    Ensures finishDirectives s fun _ t => t = s := by
  refine .get ?_
  rw [closed]
  exact rfl

/-- The first variable that has no loop is the problem with a `Next`, if there is one. -/
theorem finish_leftOver {ls : List Lexeme} {shared : NextStatement} {closed : Nat}
    (stands : s.Stands ls blocks (shared.leftOver closed)) :
    Ensures finish s fun _ t =>
      t.diagnostics = shared.loopVariables.items[closed]?.toList.map fun x =>
        ⟨.stray .next, x.span⟩ := by
  refine .get ?_
  rw [stands.pending]
  by_cases unused : closed < shared.loopVariables.items.length
  · have left : shared.leftOver closed = some ⟨shared, closed⟩ := if_pos unused
    rw [left]
    refine (dropPendingNext_reports ⟨shared, closed⟩ s).bind fun _ t dropped => ?_
    obtain ⟨reported, directives⟩ := dropped
    have closed' : t.directives = .none := directives.trans stands.closed
    refine (finishDirectives_none closed').mono fun _ u same => ?_
    obtain rfl := same
    rw [reported, stands.clean]
    simp [PendingNext.span, unused]
  · have none : shared.leftOver closed = none := if_neg unused
    rw [none]
    refine (finishDirectives_none stands.closed).mono fun _ t same => ?_
    obtain rfl := same
    rw [stands.clean, List.getElem?_eq_none (Nat.le_of_not_lt unused)]
    rfl

theorem singleStatement_nest {heads : List LoopHead} {target source : SimpleName}
    {closing : List SimpleName} {depth : Nat} (opens : heads ≠ []) (named : closing ≠ [])
    (deep : heads.length ≤ depth)
    (stands : s.Stands (nestLexemes version heads target source closing heads.length) [] none) :
    Ensures (singleStatement (.ofDepth version (k + 1))
        (.ofDepth false (.ofDepth version (k + 1)) depth)) s fun found t =>
      ∃ loops core shared owns here, Nested core loops found ∧
        List.Forall₂ ForBlock.OpensWith loops heads ∧ core.Assigns target source ∧
        LoopNexts closing shared owns here ∧ owns.length = heads.length - closing.length ∧
        loops.reverse.map ForBlock.loopEnd = loopEnds shared owns heads.length ∧
        t.diagnostics = shared.loopVariables.items[heads.length]?.toList.map fun x =>
          ⟨.stray .next, x.span⟩ := by
  obtain ⟨h, heads, rfl⟩ := List.exists_cons_of_ne_nil opens
  have kind : s.kind = .word .kwFor := stands.kind
  refine (separators_none (by simp [kind])).bind fun colons t stays => ?_
  obtain ⟨-, rfl⟩ := stays
  refine .peek ?_
  rw [if_neg (by simp [show t.current.kind = _ from kind])]
  refine (statement_nest named deep (Nat.le_refl _) rfl stands).bind fun found u read => ?_
  obtain ⟨loops, core, nested, opens, assigns, lines, ls, left, closings, place, after⟩ := read
  generalize ended : loops.reverse.map ForBlock.loopEnd = ends at closings
  have length : ends.length = (h :: heads).length := by
    rw [← ended, List.length_map, List.length_reverse, opens.length_eq]
  cases closings with
  | start => simp at length
  | @goOn shared owns closed nexts count =>
    rw [length_loopEnds nexts count] at length
    subst length
    refine (finish_leftOver after).bind fun _ v reported => ?_
    exact ⟨loops, core, shared, owns, _, nested, opens, assigns, nexts, count, ended, reported⟩

end Parse

/-- One `Next` closes several loops in order. -/
theorem next_closes_loops {o : ScanOptions} {n : LoopNest} (writable : n.IsWritable o.version)
    {text : String}
    (same : (significant (o.tokenize text)).map Token.lexeme =
      (significant (o.tokenize n.print)).map Token.lexeme) :
    ∃ loops core shared owns,
      Nested core loops (parseStatement o text).tree ∧
      List.Forall₂ ForBlock.OpensWith loops n.heads ∧ core.Assigns n.target n.source ∧
      List.Forall₂ Expression.Alike shared.loopVariables.items
        (n.closing.map SimpleName.expression) ∧
      owns.length = n.heads.length - n.closing.length ∧
      (∀ own ∈ owns, own.loopVariables.items = []) ∧
      (shared :: owns).Pairwise (fun x y => x.span.start.index < y.span.start.index) ∧
      loops.reverse.map ForBlock.loopEnd =
        (shared.loopVariables.items.take n.heads.length).map (fun x => (some shared, some x)) ++
          owns.map (fun own => (some own, none)) ∧
      (parseStatement o text).diagnostics =
        shared.loopVariables.items[n.heads.length]?.toList.map fun x =>
          ⟨.stray .next, x.span⟩ := by
  have stream := stream_tokenize o text
  rw [n.significant_print writable] at same
  unfold parseStatement parseTokens
  change Stream (significant _) at stream
  generalize o.tokenize text = tokens at stream same ⊢
  have stands := ParseState.stands_start (tokens.filterMap Token.comment?) stream
  rw [same] at stands
  have deep : n.heads.length ≤ (significant tokens).length + 1 := by
    have length := congrArg List.length same
    rw [List.length_map] at length
    rw [length]
    exact Nat.le_succ_of_le (length_le_nestLexemes ..)
  have some : n.heads ≠ [] := by simp [LoopNest.heads]
  have named : n.closing ≠ [] := by simp [LoopNest.closing]
  have reads := Parse.singleStatement_nest (k := (significant tokens).length) some named deep stands
  obtain ⟨loops, core, shared, owns, here, nested, opens, assigns, nexts, count, ended, found⟩ :=
    reads
  exact ⟨loops, core, shared, owns, nested, opens, assigns, nexts.named, count, nexts.bare,
    nexts.order, ended, found⟩

/-- A name without brackets and type character. -/
def plainName (text : String) : SimpleName := ⟨text, none, false, default⟩

/-- Two loops and a `Next` with a variable for a third. -/
def twoLoops : LoopNest where
  outermost := ⟨plainName "i", plainName "a", plainName "b"⟩
  nested := [⟨plainName "j", plainName "c", plainName "d"⟩]
  target := plainName "p"
  source := plainName "q"
  first := plainName "j"
  others := [plainName "i", plainName "k"]

theorem twoLoops_writable : twoLoops.IsWritable .latest := by
  have letters : ∀ name ∈ twoLoops.names,
      (name.text.toList.head?.any isIdentifierStart = true ∧
        name.text.toList.all isIdentifierPart = true) ∧
      name.typeCharacter = none ∧ name.text.toList.map halfWidth ≠ ['_'] ∧
      Keyword.ofWord? .latest name.text.toList = none := by decide
  intro name member
  obtain ⟨⟨starts, parts⟩, plain, joined, free⟩ := letters name member
  refine ⟨⟨starts, List.all_eq_true.1 parts⟩, by simp [plain], fun _ _ => ?_, fun _ => joined⟩
  rw [free]
  simp

/-- The third variable is reported, wherever blanks and comments stand in the lines. -/
theorem third_variable_is_stray :
    let text := "For i = a To b ' rows\r\n  For j=c To d\r\n    p = q\r\nNext j,i ,k"
    twoLoops.print = "For i = a To b\nFor j = c To d\np = q\nNext j, i, k" ∧
      ∃ outer inner core shared x y z,
        Nested core [outer, inner] (parseStatement .standard text).tree ∧
        shared.loopVariables.items = [x, y, z] ∧ inner.loopEnd = (some shared, some x) ∧
        outer.loopEnd = (some shared, some y) ∧ z.Alike (plainName "k").expression ∧
        (parseStatement .standard text).diagnostics = [⟨.stray .next, z.span⟩] := by
  intro text
  have tokens : (significant (ScanOptions.standard.tokenize text)).map Token.lexeme =
      (significant (ScanOptions.standard.tokenize twoLoops.print)).map Token.lexeme := by
    decide +kernel
  refine ⟨by decide +kernel, ?_⟩
  obtain ⟨loops, core, shared, owns, nested, opens, -, named, count, -, -, ended, reported⟩ :=
    next_closes_loops (o := .standard) twoLoops_writable tokens
  obtain ⟨outer, inner, rfl⟩ := List.length_eq_two.1 opens.length_eq
  obtain ⟨x, y, z, items⟩ := List.length_eq_three.1 named.length_eq
  obtain rfl : owns = [] := List.length_eq_zero_iff.1 count
  rw [items] at named ended reported
  have third := (List.forall₂_cons.1 (List.forall₂_cons.1 named).2).2
  refine ⟨outer, inner, core, shared, x, y, z, nested, items, ?_, ?_,
    (List.forall₂_cons.1 third).1, reported⟩
  · exact (List.cons.inj ended).1
  · exact (List.cons.inj (List.cons.inj ended).2).1

end VisualBasic
