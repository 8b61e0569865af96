import VisualBasic.Proofs.Parse.Run

/-!
The books about directives.  Regions and conditional blocks are opened by one directive and ended by
another one.  At every place of a text the directives of each kind can be counted: those ahead, those
that are open, and those that have been recorded or reported.  What passes no directive keeps the
books, and so does a whole directive.
-/

set_option autoImplicit false

namespace VisualBasic

/-- The directives that come in pairs. -/
inductive DirectiveHead where
  | conditional
  | endConditional
  | region
  | endRegion
deriving DecidableEq

namespace DirectiveHead

/-- What ends at a directive that goes on with this word. -/
def ofEnd? (word : Token) : Option DirectiveHead :=
  if word.kind = .word .kwIf then some .endConditional
  else if word.isContextual .kwRegion then some .endRegion
  else none

/-- The directive that some tokens make behind a number sign. -/
def of? : List Token → Option DirectiveHead
  | [] => none
  | word :: rest =>
    match word.kind with
    | .word .kwIf => some .conditional
    | .word .kwEnd => rest.head?.bind ofEnd?
    | _ => if word.isContextual .kwRegion then some .region else none

variable {word : Token} {rest : List Token}

theorem of?_if (isIf : word.kind = .word .kwIf) : of? (word :: rest) = some .conditional := by
  simp only [of?, isIf]

theorem of?_end (isEnd : word.kind = .word .kwEnd) :
    of? (word :: rest) = rest.head?.bind ofEnd? := by
  simp only [of?, isEnd]

theorem of?_other (noIf : word.kind ≠ .word .kwIf) (noEnd : word.kind ≠ .word .kwEnd) :
    of? (word :: rest) = if word.isContextual .kwRegion then some .region else none := by
  simp only [of?]

/-- Another keyword makes none of these directives. -/
theorem of?_keyword {keyword : Keyword} (isWord : word.kind = .word keyword)
    (noIf : keyword ≠ .kwIf) (noEnd : keyword ≠ .kwEnd) : of? (word :: rest) = none := by
  rw [of?_other (by simp [isWord, noIf]) (by simp [isWord, noEnd])]
  simp [Token.isContextual, isWord]

end DirectiveHead

/-- The directives among some tokens, each of which is the first one on its line.  The first token
of all may start a line. -/
def directiveHeads : Bool → List Token → List DirectiveHead
  | _, [] => []
  | fresh, t :: rest =>
    (if fresh && t.kind == .mark .pound then (DirectiveHead.of? rest).toList else []) ++
      directiveHeads (t.kind == .lineTerminator) rest

/-- The problem is about a directive that lacks the other one of a pair. -/
def Problem.isPairing : Problem → Bool
  | .expectedEndRegion | .endRegionWithoutRegion | .expectedCcEndIf | .ccEndIfWithoutCcIf => true
  | _ => false

/-- How many directives a text has, as far as it shows at one place of it. -/
structure Books where
  /-- Those that open a region: the region is still open or has been recorded. -/
  regions : Nat
  /-- Those that end a region: it has been recorded, or there is none, which has been reported. -/
  endRegions : Nat
  /-- How many more conditional blocks are opened than ended. -/
  conditionals : Int
  /-- How many regions are reported as open at the end of the text. -/
  regionsLeft : Nat
  /-- How many conditional blocks are reported as open at the end of the text. -/
  conditionalsLeft : Nat

/-- How many diagnostics are about a problem. -/
def countOf (k : Problem) (found : List Diagnostic) : Nat := found.countP fun d => d.problem = k

theorem countOf_append (k : Problem) (found more : List Diagnostic) :
    countOf k (found ++ more) = countOf k found + countOf k more :=
  List.countP_append

theorem countOf_append_singleton {k : Problem} {found : List Diagnostic} {d : Diagnostic} :
    countOf k (found ++ [d]) = countOf k found + if d.problem = k then 1 else 0 := by
  simp [countOf, List.countP_singleton]

/-- What is about anything else does not count. -/
theorem countOf_report (k : Problem) {problem : Problem} {found : List Diagnostic} {span : Span}
    (unpaired : problem.isPairing = false) (paired : k.isPairing = true) :
    countOf k (found ++ [⟨problem, span⟩]) = countOf k found := by
  have other : problem ≠ k := by
    rintro rfl
    exact absurd (unpaired.symm.trans paired) Bool.false_ne_true
  simp [countOf_append_singleton, other]

namespace Books

/-- The books, given the directives ahead and what has become of those before. -/
def of (heads : List DirectiveHead) (d : OpenDirectives) (closed : List Region)
    (found : List Diagnostic) : Books where
  regions := heads.count .region + d.regions.length + closed.length
  endRegions := heads.count .endRegion + closed.length + countOf .endRegionWithoutRegion found
  conditionals := heads.count .conditional - heads.count .endConditional +
    d.conditionals.length - countOf .ccEndIfWithoutCcIf found
  regionsLeft := countOf .expectedEndRegion found
  conditionalsLeft := countOf .expectedCcEndIf found

variable {heads due : List DirectiveHead} {d d' : OpenDirectives} {closed closed' : List Region}
  {found found' : List Diagnostic}

/-- What is due is due at any place with the same books. -/
theorem of_append {heads' : List DirectiveHead}
    (same : of heads d closed found = of heads' d' closed' found') (due : List DirectiveHead) :
    of (due ++ heads) d closed found = of (due ++ heads') d' closed' found' := by
  simp only [of, mk.injEq, List.count_append] at same ⊢
  omega

theorem of_report {problem : Problem} (unpaired : problem.isPairing = false) (span : Span) :
    of heads d closed (found ++ [⟨problem, span⟩]) = of heads d closed found := by
  simp only [of, countOf_report .endRegionWithoutRegion unpaired rfl,
    countOf_report .ccEndIfWithoutCcIf unpaired rfl, countOf_report .expectedEndRegion unpaired rfl,
    countOf_report .expectedCcEndIf unpaired rfl]

theorem of_conditional (c : OpenConditional) :
    of heads { d with conditionals := c :: d.conditionals } closed found =
      of (.conditional :: heads) d closed found := by
  simp [of]
  omega

theorem of_endConditional {c : OpenConditional} {outer : List OpenConditional}
    (innermost : d.conditionals = c :: outer) :
    of heads { d with conditionals := outer } closed found =
      of (.endConditional :: heads) d closed found := by
  simp [of, innermost]
  omega

theorem of_endConditional_report (span : Span) :
    of heads d closed (found ++ [⟨.ccEndIfWithoutCcIf, span⟩]) =
      of (.endConditional :: heads) d closed found := by
  simp [of, countOf_append_singleton]
  omega

theorem of_region (o : OpenRegion) :
    of heads { d with regions := o :: d.regions } closed found =
      of (.region :: heads) d closed found := by
  simp [of]
  omega

theorem of_endRegion {o : OpenRegion} {outer : List OpenRegion} (innermost : d.regions = o :: outer)
    (a : Region) :
    of heads { d with regions := outer } (closed ++ [a]) found =
      of (.endRegion :: heads) d closed found := by
  simp [of, innermost]
  omega

theorem of_endRegion_report (span : Span) :
    of heads d closed (found ++ [⟨.endRegionWithoutRegion, span⟩]) =
      of (.endRegion :: heads) d closed found := by
  simp [of, countOf_append_singleton]
  omega

end Books

/-- The first region ends before the second one, either within it or before it starts. -/
def Region.Precedes (a b : Region) : Prop :=
  a.span.finish.index < b.span.finish.index ∧
    (a.span.finish.index ≤ b.span.start.index ∨ b.span.start.index < a.span.start.index)

/-- The regions that are recorded and those that are open lie within each other or apart, in the order
in which they end, and what is mapped lies apart.  All have begun before the limit, and what is
recorded has ended there. -/
structure Nesting (closed : List Region) (mapped : List LineMapping) (d : OpenDirectives)
    (limit : Nat) : Prop where
  regions : closed.Pairwise Region.Precedes
  recorded : ∀ a ∈ closed, a.span.finish.index ≤ limit
  around : ∀ a ∈ closed, ∀ o ∈ d.regions, a.span.finish.index ≤ o.directive.start.index ∨
    o.directive.start.index < a.span.start.index
  opened : d.regions.Pairwise fun inner outer =>
    outer.directive.start.index < inner.directive.start.index
  begun : ∀ o ∈ d.regions, o.directive.start.index < limit
  mappings : mapped.Pairwise fun a b => a.span.finish.index ≤ b.span.start.index
  read : ∀ a ∈ mapped, a.span.finish.index ≤ limit
  mapping : ∀ m ∈ d.mapping, ∀ a ∈ mapped, a.span.finish.index ≤ m.directive.start.index

namespace Nesting

variable {closed : List Region} {mapped : List LineMapping} {d : OpenDirectives}
  {limit limit' : Nat}

theorem mono (nesting : Nesting closed mapped d limit) (further : limit ≤ limit') :
    Nesting closed mapped d limit' :=
  { nesting with
    recorded := fun a member => Nat.le_trans (nesting.recorded a member) further
    begun := fun o member => Nat.lt_of_lt_of_le (nesting.begun o member) further
    read := fun a member => Nat.le_trans (nesting.read a member) further }

theorem empty : Nesting [] [] .none limit :=
  ⟨.nil, by simp, by simp, .nil, by simp [OpenDirectives.none], .nil, by simp,
    by simp [OpenDirectives.none]⟩

/-- Conditional blocks are no matter. -/
theorem congr {d' : OpenDirectives} (nesting : Nesting closed mapped d limit)
    (regions : d'.regions = d.regions) (mapping : d'.mapping = d.mapping) :
    Nesting closed mapped d' limit :=
  { nesting with
    around := regions ▸ nesting.around
    opened := regions ▸ nesting.opened
    begun := regions ▸ nesting.begun
    mapping := mapping ▸ nesting.mapping }

/-- A region is opened behind all that is recorded, and within all regions that are open. -/
theorem openRegion (nesting : Nesting closed mapped d limit) {region : OpenRegion}
    (recorded : ∀ a ∈ closed, a.span.finish.index ≤ region.directive.start.index)
    (inner : ∀ o ∈ d.regions, o.directive.start.index < region.directive.start.index)
    (reached : region.directive.start.index < limit) :
    Nesting closed mapped { d with regions := region :: d.regions } limit :=
  { nesting with
    around := fun a member o opened => by
      rcases List.mem_cons.1 opened with rfl | outer
      · exact .inl (recorded a member)
      · exact nesting.around a member o outer
    opened := List.pairwise_cons.2 ⟨inner, nesting.opened⟩
    begun := List.forall_mem_cons.2 ⟨reached, nesting.begun⟩ }

/-- The innermost region is recorded behind all that has been recorded before. -/
theorem closeRegion (nesting : Nesting closed mapped d limit) {region : OpenRegion}
    {outer : List OpenRegion} (innermost : d.regions = region :: outer) {a : Region}
    (start : a.span.start = region.directive.start) (finish : a.span.finish.index = limit)
    (before : ∀ b ∈ closed, b.span.finish.index < limit) :
    Nesting (closed ++ [a]) mapped { d with regions := outer } limit := by
  have opened := nesting.opened
  rw [innermost, List.pairwise_cons] at opened
  have among (o : OpenRegion) (member : o ∈ outer) : o ∈ d.regions :=
    innermost ▸ List.mem_cons_of_mem _ member
  refine { nesting with
    regions := List.pairwise_append.2 ⟨nesting.regions, List.pairwise_singleton _ _, ?_⟩
    recorded := ?_
    around := ?_
    opened := opened.2
    begun := fun o member => nesting.begun o (among o member) }
  · intro b member a' last
    rw [List.mem_singleton.1 last, Region.Precedes, start, finish]
    exact ⟨before b member, nesting.around b member region (innermost ▸ List.mem_cons_self)⟩
  · intro b member
    rcases List.mem_append.1 member with early | last
    · exact nesting.recorded b early
    · exact Nat.le_of_eq (List.mem_singleton.1 last ▸ finish)
  · intro b member o outside
    rcases List.mem_append.1 member with early | last
    · exact nesting.around b early o (among o outside)
    · rw [List.mem_singleton.1 last, start]
      exact .inr (opened.1 o outside)

/-- A mapping is opened behind all others. -/
theorem openMapping (nesting : Nesting closed mapped d limit) {mapping : OpenMapping}
    (behind : ∀ a ∈ mapped, a.span.finish.index ≤ mapping.directive.start.index) :
    Nesting closed mapped { d with mapping := some mapping } limit :=
  { nesting with
    mapping := by
      rintro m ⟨⟩
      exact behind }

theorem closeMapping (nesting : Nesting closed mapped d limit) {mapping : OpenMapping}
    (isOpen : d.mapping = some mapping) {a : LineMapping}
    (start : a.span.start = mapping.directive.start) (finish : a.span.finish.index = limit) :
    Nesting closed (mapped ++ [a]) { d with mapping := none } limit :=
  { nesting with
    mappings := List.pairwise_append.2 ⟨nesting.mappings, List.pairwise_singleton _ _,
      fun b member a' last => by
        rw [List.mem_singleton.1 last, start]
        exact nesting.mapping mapping isOpen b member⟩
    read := fun b member => by
      rcases List.mem_append.1 member with early | last
      · exact nesting.read b early
      · exact Nat.le_of_eq (List.mem_singleton.1 last ▸ finish)
    mapping := by simp }

end Nesting

namespace ParseState

/-- The directives ahead. -/
def heads (s : ParseState) : List DirectiveHead := directiveHeads s.atLineStart s.ahead

/-- No directive starts here. -/
def Clear (s : ParseState) : Prop := s.atLineStart = true → s.kind ≠ .mark .pound

def Nests (s : ParseState) : Prop :=
  Nesting s.tables.regions s.tables.lineMappings s.directives s.limit

/-- The books at a place; the directives that are due are still to be carried out, though their first
words have been read. -/
def books (s : ParseState) (due : List DirectiveHead) : Books :=
  .of (due ++ s.heads) s.directives s.tables.regions s.diagnostics

/-- From the first state to the second one the books are kept, and what is due is carried out. -/
def Keeps (due : List DirectiveHead) (s t : ParseState) : Prop :=
  s.Clear → s.Nests → t.Clear ∧ t.Nests ∧ t.books [] = s.books due

/-- The books are kept even if there are directives where the first state is. -/
def Balances (s t : ParseState) : Prop :=
  s.Nests → t.Clear ∧ t.Nests ∧ t.books [] = s.books []

variable {s t u : ParseState} {due : List DirectiveHead}

namespace Keeps

theorem refl (s : ParseState) : s.Keeps [] s := fun clear nests => ⟨clear, nests, rfl⟩

theorem trans (first : s.Keeps due t) (second : t.Keeps [] u) : s.Keeps due u := by
  intro clear nests
  obtain ⟨clear, nests, same⟩ := first clear nests
  obtain ⟨clear, nests, same'⟩ := second clear nests
  exact ⟨clear, nests, same'.trans same⟩

/-- What is due can wait. -/
theorem before (first : s.Keeps [] t) (second : t.Keeps due u) : s.Keeps due u := by
  intro clear nests
  obtain ⟨clear, nests, same⟩ := first clear nests
  obtain ⟨clear, nests, same'⟩ := second clear nests
  exact ⟨clear, nests, same'.trans (Books.of_append same due)⟩

end Keeps

namespace Balances

theorem keeps (balances : s.Balances t) : s.Keeps [] t := fun _ => balances

theorem trans (first : s.Balances t) (second : t.Keeps [] u) : s.Balances u := by
  intro nests
  obtain ⟨clear, nests, same⟩ := first nests
  obtain ⟨clear, nests, same'⟩ := second clear nests
  exact ⟨clear, nests, same'.trans same⟩

end Balances

-- Steps

theorem tables_advance (s : ParseState) :
    s.advance.tables = s.tables ∧ s.advance.directives = s.directives := by
  unfold advance
  split <;> simp [noteComments]

/-- The directive at which a parser is comes before those ahead. -/
theorem heads_eq {k : Token} {rest : List Token} (follows : s.following = k :: rest) :
    s.heads = (if s.atLineStart && s.kind == .mark .pound then
      (DirectiveHead.of? s.following).toList else []) ++ s.advance.heads := by
  rw [heads, heads, atLineStart_advance follows, ahead_advance follows]
  rfl

theorem heads_advance (clear : s.Clear) : s.advance.heads = s.heads := by
  cases follows : s.following with
  | nil => rw [advance_of_nil follows]
  | cons k rest =>
    have none : (s.atLineStart && s.kind == .mark .pound) = false := by
      simpa [Clear] using clear
    rw [heads_eq follows, none]
    rfl

theorem books_advance (same : s.advance.heads = s.heads) (due : List DirectiveHead) :
    s.advance.books due = s.books due := by
  obtain ⟨tables, directives⟩ := s.tables_advance
  rw [books, books, same, tables, directives, s.diagnostics_advance]

/-- Behind its number sign a directive is due. -/
theorem books_sign {k : Token} {rest : List Token} (follows : s.following = k :: rest)
    (starts : s.atLineStart = true) (sign : s.kind = .mark .pound) :
    s.advance.books (DirectiveHead.of? s.advance.ahead).toList = s.books [] := by
  obtain ⟨tables, directives⟩ := s.tables_advance
  rw [books, books, tables, directives, s.diagnostics_advance, ahead_advance follows,
    heads_eq follows, starts, sign]
  rfl

theorem nests_advance (wf : s.Wf) (nests : s.Nests) : s.advance.Nests := by
  obtain ⟨tables, directives⟩ := s.tables_advance
  have further : s.limit ≤ s.advance.limit := by
    by_cases ends : s.kind = .endOfStream
    · exact Nat.le_of_eq (by
        rw [advance_of_nil (List.length_eq_zero_iff.1 ((remaining_eq_zero_iff wf).2 ends))])
    · have := (limit_advance wf ends).1
      have := wf.behind
      omega
  unfold Nests at nests ⊢
  rw [tables, directives]
  exact nests.mono further

/-- Behind a token that does not end a line no directive starts. -/
theorem clear_advance (clear : s.Clear) (inside : s.kind ≠ .lineTerminator) : s.advance.Clear := by
  cases follows : s.following with
  | nil => rwa [advance_of_nil follows]
  | cons k rest =>
    intro starts
    rw [atLineStart_advance follows] at starts
    exact absurd (beq_iff_eq.1 starts) inside

theorem Keeps.advance (wf : s.Wf) (inside : s.kind ≠ .lineTerminator) : s.Keeps [] s.advance :=
  fun clear nests => ⟨clear_advance clear inside, nests_advance wf nests,
    books_advance (heads_advance clear) []⟩

theorem Keeps.report {problem : Problem} (unpaired : problem.isPairing = false) (span : Span) :
    s.Keeps [] (s.report problem span) := by
  cases suppressed : s.suppressed with
  | true =>
    rw [report_of_suppressed suppressed]
    exact .refl s
  | false =>
    rw [report_of_not_suppressed suppressed]
    exact fun clear nests => ⟨clear, nests, Books.of_report unpaired span⟩

/-- A place at which no directive starts. -/
theorem Balances.stay (clear : s.Clear) : s.Balances s := fun nests => ⟨clear, nests, rfl⟩

/-- A token that starts no directive is passed, even if it ends a line. -/
theorem Balances.pass (wf : s.Wf) (plain : s.kind ≠ .mark .pound) (rest : s.advance.Balances t) :
    s.Balances t := by
  intro nests
  obtain ⟨clear, nests, same⟩ := rest (nests_advance wf nests)
  exact ⟨clear, nests, same.trans (books_advance (heads_advance fun _ => plain) [])⟩

theorem Keeps.mark : s.Keeps [] { s with placeholder := s.placeholder.later s.current.span.start } := by
  refine fun clear nests => ⟨clear, nests.mono ?_, rfl⟩
  simp only [limit, Location.index_later]
  omega

end ParseState

end VisualBasic
