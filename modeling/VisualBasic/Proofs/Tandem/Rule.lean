import VisualBasic.Parse.Sequence
import VisualBasic.Proofs.Parse.Rule
import VisualBasic.Proofs.Tandem.State

/-!
Rules that read two texts alike.  What a rule gives is the same in both, up to locations, and
afterwards both parsers are at the same place again.  This carries over from the steps that rules
are made of to the rules.
-/

set_option autoImplicit false

namespace VisualBasic

-- Items with commas between them

instance {α : Type} [Relocate α] : Relocate (Separated α) :=
  ⟨fun g s => ⟨relocate g s.first, relocate g s.rest⟩⟩

namespace Separated

variable {α : Type} [Relocate α]

theorem items_relocate (g : Location → Location) (s : Separated α) :
    (relocate g s).items = relocate g s.items := by
  show relocate g s.first :: List.map Prod.snd (List.map (relocate g) s.rest) =
    relocate g s.first :: List.map (relocate g) (List.map Prod.snd s.rest)
  rw [List.map_map, List.map_map]
  rfl

theorem separators_relocate (g : Location → Location) (s : Separated α) :
    (relocate g s).separators = relocate g s.separators := by
  show List.map Prod.fst (List.map (relocate g) s.rest) =
    List.map (relocate g) (List.map Prod.fst s.rest)
  rw [List.map_map, List.map_map]
  rfl

theorem last_relocate (g : Location → Location) (s : Separated α) :
    (relocate g s).last = relocate g s.last := by
  show ((List.map (relocate g) s.rest).getLast?.map Prod.snd).getD (relocate g s.first) = _
  rw [List.getLast?_map, last]
  cases s.rest.getLast? <;> rfl

variable {c : Seam} {span : α → Span}

theorem toCommaList_relocate (g : Location → Location) (s : Separated α) (list : Span) :
    (relocate g s).toCommaList (relocate g list) = relocate g (s.toCommaList list) := by
  rw [toCommaList, items_relocate, separators_relocate]
  rfl

theorem toHullList_relocate (s : Separated α)
    (spans : ∀ a, span (relocate c.carry a) = relocate c.carry (span a)) :
    (relocate c.carry s).toHullList span = relocate c.carry (s.toHullList span) := by
  have hull : (relocate c.carry s).hull span = relocate c.carry (s.hull span) := by
    show (span (relocate c.carry s.first)).merge (span (relocate c.carry s).last) = _
    rw [last_relocate, spans, spans, Seam.merge_carry]
    rfl
  rw [toHullList, hull, toCommaList_relocate]
  rfl

end Separated

/-- Numbers of tokens in the two texts. -/
structure Bound where
  here : Nat
  there : Nat

namespace Bound

instance : HAdd Bound Nat Bound := ⟨fun k n => ⟨k.here + n, k.there + n⟩⟩

instance : LE Bound := ⟨fun j k => j.here ≤ k.here ∧ j.there ≤ k.there⟩

@[simp] theorem here_add (k : Bound) (n : Nat) : (k + n).here = k.here + n := rfl

@[simp] theorem there_add (k : Bound) (n : Nat) : (k + n).there = k.there + n := rfl

theorem le_succ (k : Bound) : k ≤ k + 1 := ⟨Nat.le_succ _, Nat.le_succ _⟩

theorem le_of_succ_le_succ {n m : Nat} {k : Bound} (more : mk (n + 1) (m + 1) ≤ k + 1) :
    mk n m ≤ k :=
  ⟨Nat.le_of_succ_le_succ more.1, Nat.le_of_succ_le_succ more.2⟩

theorem le_of_succ {j k : Bound} (more : j + 1 ≤ k) : j ≤ k :=
  ⟨Nat.le_of_succ_le more.1, Nat.le_of_succ_le more.2⟩

end Bound

/-- What phrases leave as it is: they open and close no blocks, and they only add diagnostics. -/
structure Stays (o s : ParseState) : Prop where
  blocks : s.blocks = o.blocks
  depth : s.lineIfDepth = o.lineIfDepth
  pending : s.pendingNext = o.pendingNext
  reports : o.diagnostics <+: s.diagnostics

/-- Both parsers are at the same place, with fewer tokens left than the given numbers.  Within a
construct, which the second parser began at the given state, both or none have a diagnostic. -/
structure Paired (c : Seam) (o : Option ParseState) (k : Bound) (X Y : ParseState) : Prop
    extends Twin c X Y where
  suppressed : o.isSome → Y.suppressed = X.suppressed
  stays : ∀ s ∈ o, Stays s Y
  bound : X.remaining < k.here
  bound' : Y.remaining < k.there

/-- Both parsers are before what separates two statements, which may be a directive of the first
text only. -/
structure Before (c : Seam) (k : Bound) (X Y : ParseState) : Prop extends Arrived c X Y where
  bound : X.remaining < k.here
  bound' : Y.remaining < k.there

/-- Both parsers are within a construct. -/
abbrev Near (c : Seam) (o : ParseState) (k : Bound) (X Y : ParseState) : Prop :=
  Paired c (some o) k X Y

/-- Both parsers are between constructs. -/
abbrev Loose (c : Seam) (k : Bound) (X Y : ParseState) : Prop := Paired c none k X Y

/-- Neither parser goes back, and both or none move on. -/
structure Paced (X Y X' Y' : ParseState) : Prop where
  here : X'.ahead <:+ X.ahead
  there : Y'.ahead <:+ Y.ahead
  still : X'.remaining = X.remaining ↔ Y'.remaining = Y.remaining

theorem ParseState.kind_of_ahead {s t : ParseState} (same : t.ahead = s.ahead) :
    t.kind = s.kind :=
  congrArg Token.kind (List.cons.inj same).1

theorem ParseState.kindAfter_of_ahead {s t : ParseState} (same : t.ahead = s.ahead) :
    t.kindAfter = s.kindAfter := by
  unfold ParseState.kindAfter
  rw [(List.cons.inj same).2]

theorem ParseState.terminator?_of_ahead {s t : ParseState} (same : t.ahead = s.ahead) :
    t.terminator? = s.terminator? := by
  obtain ⟨here, behind⟩ := List.cons.inj same
  unfold ParseState.terminator? ParseState.kind ParseState.kindAfter
  rw [here, behind]

namespace Paced

variable {X Y X' Y' X'' Y'' : ParseState}

theorem remaining_le {s t : ParseState} (suffix : t.ahead <:+ s.ahead) :
    t.remaining ≤ s.remaining :=
  Nat.le_of_succ_le_succ suffix.length_le

theorem fewer (paced : Paced X Y X' Y') : X'.remaining ≤ X.remaining := remaining_le paced.here

theorem fewer' (paced : Paced X Y X' Y') : Y'.remaining ≤ Y.remaining := remaining_le paced.there

theorem refl (X Y : ParseState) : Paced X Y X Y :=
  ⟨List.suffix_refl _, List.suffix_refl _, iff_of_true rfl rfl⟩

/-- A step that leaves the tokens where they are. -/
theorem standing (here : X'.ahead = X.ahead) (there : Y'.ahead = Y.ahead) : Paced X Y X' Y' :=
  ⟨here ▸ List.suffix_refl _, there ▸ List.suffix_refl _, iff_of_true
    (congrArg List.length (List.cons.inj here).2) (congrArg List.length (List.cons.inj there).2)⟩

theorem moved (here : X'.ahead <:+ X.ahead) (there : Y'.ahead <:+ Y.ahead)
    (fewer : X'.remaining < X.remaining) (fewer' : Y'.remaining < Y.remaining) :
    Paced X Y X' Y' :=
  ⟨here, there, iff_of_false (Nat.ne_of_lt fewer) (Nat.ne_of_lt fewer')⟩

theorem trans (first : Paced X Y X' Y') (second : Paced X' Y' X'' Y'') : Paced X Y X'' Y'' := by
  have := first.fewer
  have := first.fewer'
  have := second.fewer
  have := second.fewer'
  have := first.still
  have := second.still
  exact ⟨second.here.trans first.here, second.there.trans first.there, by omega⟩

/-- A parser that has not moved sees what it saw. -/
theorem ahead_eq (paced : Paced X Y X' Y') (still : X'.remaining = X.remaining) :
    X'.ahead = X.ahead :=
  paced.here.eq_of_length (congrArg Nat.succ still)

end Paced

/-- Two runs give the same and end at states that are related. -/
structure Kept {α : Type} [Relocate α] (c : Seam) (R : ParseState → ParseState → Prop)
    (p q : Parse α) (X Y : ParseState) : Prop where
  value : (q.run Y).1 = relocate c.carry (p.run X).1
  after : R (p.run X).2 (q.run Y).2
  paced : Paced X Y (p.run X).2 (q.run Y).2

/-- Two runs give the same and end at states that are related.  Where loops are to be closed one by
one, this is said only of results with a property, which may depend on the token behind them. -/
def Tracked {α : Type} [Relocate α] (c : Seam) (g : α → TokenKind → Prop)
    (R : ParseState → ParseState → Prop) (p q : Parse α) (X Y : ParseState) : Prop :=
  (c.settles → g (p.run X).1 (p.run X).2.kind) → Kept c R p q X Y

/-- Two runs within a construct give the same and end at the same place. -/
abbrev Tracks {α : Type} [Relocate α] (c : Seam) (o : ParseState) (k : Bound) (p q : Parse α)
    (X Y : ParseState) : Prop :=
  Tracked c (fun _ _ => True) (Near c o k) p q X Y

namespace Tracked

variable {α β : Type} [Relocate α] [Relocate β] {c : Seam} {g : β → TokenKind → Prop}
  {R S : ParseState → ParseState → Prop} {p q : Parse α} {X Y X' Y' : ParseState}

/-- Only what the programs do from their states matters. -/
theorem ofRun {p p' q q' : Parse β} (tracks : Tracked c g R p' q' X Y)
    (here : p.run X = p'.run X) (there : q.run Y = q'.run Y) : Tracked c g R p q X Y := by
  intro fair
  obtain ⟨value, after, paced⟩ := tracks (here ▸ fair)
  rw [← here, ← there] at *
  exact ⟨value, after, paced⟩

omit [Relocate α] in
/-- A step whose result and state are known. -/
theorem step {a b : α} {f f' : α → Parse β} (here : p.run X = (a, X')) (there : q.run Y = (b, Y'))
    (paced : Paced X Y X' Y') (next : Tracked c g R (f a) (f' b) X' Y') :
    Tracked c g R (p >>= f) (q >>= f') X Y := by
  have run : (p >>= f).run X = (f a).run X' := by
    show (f (p.run X).1).run (p.run X).2 = _
    rw [here]
  have run' : (q >>= f').run Y = (f' b).run Y' := by
    show (f' (q.run Y).1).run (q.run Y).2 = _
    rw [there]
  intro fair
  obtain ⟨value, after, more⟩ := next (run ▸ fair)
  refine ⟨?_, ?_, ?_⟩
  · rw [run, run', value]
  · rw [run, run']
    exact after
  · rw [run, run']
    exact paced.trans more

theorem pure {a b : β} (after : R X Y) (same : b = relocate c.carry a) :
    Tracked c g R (pure a) (pure b) X Y :=
  fun _ => ⟨same, after, .refl X Y⟩

/-- One rule after the other. -/
theorem bind {f f' : α → Parse β} (first : Tracked c (fun _ _ => True) S p q X Y)
    (next : ∀ a X' Y', S X' Y' → Tracked c g R (f a) (f' (relocate c.carry a)) X' Y') :
    Tracked c g R (p >>= f) (q >>= f') X Y := by
  obtain ⟨value, after, paced⟩ := first fun _ => trivial
  refine step rfl (Prod.ext value rfl) paced (next _ _ _ after)

/-- One rule after the other, where the first one is known to read alike only for some results. -/
theorem bindWhen {h : α → TokenKind → Prop} {f f' : α → Parse β} (first : Tracked c h S p q X Y)
    (back : ∀ a s, g ((f a).run s).1 ((f a).run s).2.kind → h a s.kind)
    (next : ∀ a X' Y', p.run X = (a, X') → S X' Y' →
      Tracked c g R (f a) (f' (relocate c.carry a)) X' Y') :
    Tracked c g R (p >>= f) (q >>= f') X Y := by
  intro fair
  obtain ⟨value, after, paced⟩ := first fun settles => back _ _ (fair settles)
  exact step rfl (Prod.ext value rfl) paced (next _ _ _ rfl after) fair

theorem map {f f' : α → β} (first : Tracked c (fun _ _ => True) R p q X Y)
    (same : ∀ a, f' (relocate c.carry a) = relocate c.carry (f a)) :
    Tracked c g R (f <$> p) (f' <$> q) X Y := by
  intro _
  obtain ⟨value, after, paced⟩ := first fun _ => trivial
  refine ⟨?_, after, paced⟩
  show f' (q.run Y).1 = relocate c.carry (f (p.run X).1)
  rw [value, same]

theorem mono {g' : β → TokenKind → Prop} {p q : Parse β} (tracks : Tracked c g R p q X Y)
    (stronger : ∀ a k, g' a k → g a k) (weaker : ∀ X' Y', Paced X Y X' Y' → R X' Y' → S X' Y') :
    Tracked c g' S p q X Y := by
  intro fair
  obtain ⟨value, after, paced⟩ := tracks fun settles => stronger _ _ (fair settles)
  exact ⟨value, weaker _ _ paced after, paced⟩

end Tracked

theorem Lexeme.eq_endOfStream {l : Lexeme} (ends : l.kind = .endOfStream) : l = .endOfStream := by
  cases l with
  | literal value => rcases value with ⟨⟨⟩⟩ | _ | _ | _ | _ | _ <;> cases ends
  | endOfStream => rfl
  | _ => cases ends

theorem Lexeme.eq_lineTerminator {l : Lexeme} (breaks : l.kind = .lineTerminator) :
    l = .lineTerminator := by
  cases l with
  | literal value => rcases value with ⟨⟨⟩⟩ | _ | _ | _ | _ | _ <;> cases breaks
  | lineTerminator => rfl
  | _ => cases breaks

namespace Paired

open Seam Parse

variable {α β : Type} [Relocate α] [Relocate β] {c : Seam} {m : Option ParseState}
  {o : ParseState} {j k : Bound} {X Y : ParseState} {kind : TokenKind} {g : β → TokenKind → Prop}
  {R : ParseState → ParseState → Prop}

theorem mono (near : Paired c m k X Y) (more : k ≤ j) : Paired c m j X Y :=
  { near with
    bound := Nat.lt_of_lt_of_le near.bound more.1
    bound' := Nat.lt_of_lt_of_le near.bound' more.2 }

theorem up (near : Paired c m k X Y) : Paired c m (k + 1) X Y := near.mono k.le_succ

theorem down (near : Paired c m j X Y) {X' Y' : ParseState} (after : Paired c m k X' Y')
    (paced : Paced X Y X' Y') : Paired c m j X' Y' :=
  { after with
    bound := Nat.lt_of_le_of_lt paced.fewer near.bound
    bound' := Nat.lt_of_le_of_lt paced.fewer' near.bound' }

/-- Between constructs it is forgotten whether there is a diagnostic. -/
theorem loose (near : Paired c m k X Y) : Loose c k X Y :=
  { near with
    suppressed := fun isSome => by cases isSome
    stays := fun _ member => by cases member }

/-- A rule that may take all tokens that are left. -/
theorem fresh (near : Paired c m k X Y) :
    Paired c m (Bound.mk X.remaining Y.remaining + 1) X Y :=
  { near with bound := Nat.lt_succ_self _, bound' := Nat.lt_succ_self _ }

theorem fresh_bound (near : Paired c m (k + 1) X Y) : Bound.mk X.remaining Y.remaining ≤ k :=
  ⟨Nat.le_of_lt_succ near.bound, Nat.le_of_lt_succ near.bound'⟩

theorem fresh_le (near : Paired c m k X Y) : Bound.mk X.remaining Y.remaining + 1 ≤ k :=
  ⟨near.bound, near.bound'⟩

/-- Both parsers can go on to what stands before the next statement. -/
theorem before (near : Paired c m k X Y) : Before c k X Y :=
  { near.toTwin.arrived with bound := near.bound, bound' := near.bound' }

end Paired

namespace Before

variable {c : Seam} {k : Bound} {X Y : ParseState}

theorem fresh (before : Before c k X Y) : Before c (Bound.mk X.remaining Y.remaining + 1) X Y :=
  { before with bound := Nat.lt_succ_self _, bound' := Nat.lt_succ_self _ }

theorem fresh_le (before : Before c k X Y) : Bound.mk X.remaining Y.remaining + 1 ≤ k :=
  ⟨before.bound, before.bound'⟩

end Before

/-- No more tokens are left than there were. -/
theorem Tracked.within {α : Type} [Relocate α] {c : Seam} {g : α → TokenKind → Prop} {m : Option ParseState}
    {j k : Bound} {p q : Parse α} {X Y : ParseState} (tracks : Tracked c g (Paired c m j) p q X Y)
    (near : Paired c m k X Y) : Tracked c g (Paired c m k) p q X Y :=
  tracks.mono (fun _ _ => id) fun _ _ paced after => near.down after paced

theorem Tracked.up {α : Type} [Relocate α] {c : Seam} {g : α → TokenKind → Prop} {m : Option ParseState}
    {k : Bound} {p q : Parse α} {X Y : ParseState} (tracks : Tracked c g (Paired c m k) p q X Y) :
    Tracked c g (Paired c m (k + 1)) p q X Y :=
  tracks.mono (fun _ _ => id) fun _ _ _ after => after.up

/-- A rule within a construct, seen from outside. -/
theorem Tracked.loosely {α : Type} [Relocate α] {c : Seam} {g : α → TokenKind → Prop}
    {o : ParseState} {k : Bound} {p q : Parse α} {X Y : ParseState} (tracks : Tracks c o k p q X Y) :
    Tracked c g (Loose c k) p q X Y :=
  tracks.mono (fun _ _ _ => trivial) fun _ _ _ near => near.loose

namespace Paired

open Seam Parse

variable {α β : Type} [Relocate α] [Relocate β] {c : Seam} {m : Option ParseState}
  {o : ParseState} {j k : Bound} {X Y : ParseState} {kind : TokenKind} {g : β → TokenKind → Prop}
  {R : ParseState → ParseState → Prop}

omit [Relocate α] [Relocate β] in
theorem run_bind {p : Parse α} {f : α → Parse β} {s : ParseState} :
    (p >>= f).run s = (f (p.run s).1).run (p.run s).2 :=
  rfl

omit [Relocate β] in
theorem run_peek {f : Token → Parse β} {s : ParseState} :
    (Parse.peek >>= f).run s = (f s.current).run s :=
  rfl

omit [Relocate β] in
theorem run_get {f : ParseState → Parse β} {s : ParseState} :
    (MonadState.get >>= f : Parse β).run s = (f s).run s :=
  rfl

-- Looking at the state

theorem pure {a b : β} (near : Paired c m k X Y) (same : b = relocate c.carry a) :
    Tracked c g (Paired c m k) (pure a) (pure b) X Y :=
  .pure near same

theorem get {f f' : ParseState → Parse β} (next : Tracked c g R (f X) (f' Y) X Y) :
    Tracked c g R (get >>= f) (get >>= f') X Y :=
  .step rfl rfl (.refl X Y) next

/-- A rule looks at the token that both parsers stand before, or at the tokens where the first text
ends. -/
theorem peek {f f' : Token → Parse β} (near : Paired c m k X Y)
    (inside : Tracked c g R (f X.current) (f' (relocate c.carry X.current)) X Y)
    (atEnd : ∀ x y : Token, x.lexeme = .endOfStream → y.lexeme = .lineTerminator → c.IsCut →
      y.span.start = c.carry x.span.start → Tracked c g R (f x) (f' y) X Y) :
    Tracked c g R (peek >>= f) (peek >>= f') X Y := by
  refine .step rfl rfl (.refl X Y) ?_
  rcases near.current with same | ⟨cut, here, there⟩
  · rw [same]
    exact inside
  · refine atEnd _ _ ?_ ?_ cut near.start
    · exact Lexeme.eq_endOfStream (here ▸ c.ends)
    · exact Lexeme.eq_lineTerminator (there ▸ cut)

/-- A rule looks at the token ahead; where a line ends, it does not ask how. -/
theorem peekWord {f f' : Token → Parse β} (near : Paired c m k X Y)
    (same : ∀ x y : Token, x.kind.endsLine = true → y.kind.endsLine = true → f' x = f' y)
    (next : Tracked c g R (f X.current) (f' (relocate c.carry X.current)) X Y) :
    Tracked c g R (Parse.peek >>= f) (Parse.peek >>= f') X Y := by
  refine .step rfl rfl (.refl X Y) ?_
  rcases near.current with current | ⟨-, here, there⟩
  · rwa [current]
  · rwa [same Y.current (relocate c.carry X.current) (there ▸ first_endsLine)
      (here ▸ last_endsLine)]

/-- A rule looks at the kind of the token ahead; where a text ends, it does not ask how. -/
theorem peekKind {f f' : TokenKind → Parse β} (near : Paired c m k X Y)
    (same : f' .lineTerminator = f' .endOfStream)
    (next : Tracked c g R (f X.kind) (f' X.kind) X Y) :
    Tracked c g R (peekKind >>= f) (peekKind >>= f') X Y := by
  refine .step rfl rfl (.refl X Y) ?_
  rw [near.kind.apply f' same]
  exact next

theorem kindAfter {f f' : TokenKind → Parse β} (near : Paired c m k X Y)
    (inside : X.kind.endsLine = false) (same : f' .lineTerminator = f' .endOfStream)
    (next : Tracked c g R (f X.kindAfter) (f' X.kindAfter) X Y) :
    Tracked c g R (kindAfter >>= f) (kindAfter >>= f') X Y := by
  refine .step rfl rfl (.refl X Y) ?_
  rw [(near.toTwin.kindAfter inside).apply f' same]
  exact next

theorem here {f f' : Location → Parse β} (near : Paired c m k X Y)
    (next : Tracked c g R (f X.current.span.start) (f' (c.carry X.current.span.start)) X Y) :
    Tracked c g R (here >>= f) (here >>= f') X Y := by
  rw [← near.start] at next
  exact .step rfl rfl (.refl X Y) next

theorem spanFrom {start start' : Location} {g : Span → TokenKind → Prop} (near : Paired c m k X Y)
    (same : start' = c.carry start) :
    Tracked c g (Paired c m k) (spanFrom start) (spanFrom start') X Y := by
  rw [same]
  exact fun _ => ⟨near.spanSince start, near, .refl X Y⟩

theorem atStatementEnd {f f' : Bool → Parse β} (near : Paired c m k X Y)
    (next : Tracked c g R (f X.atStatementEnd) (f' X.atStatementEnd) X Y) :
    Tracked c g R (atStatementEnd >>= f) (atStatementEnd >>= f') X Y := by
  refine .step rfl rfl (.refl X Y) ?_
  rw [near.toTwin.atStatementEnd]
  exact next

theorem check {f f' : Bool → Parse β} (near : Paired c m k X Y) (solid : kind.endsLine = false)
    (yes : X.kind = kind → Tracked c g R (f true) (f' true) X Y)
    (no : X.kind ≠ kind → Tracked c g R (f false) (f' false) X Y) :
    Tracked c g R (check kind >>= f) (check kind >>= f') X Y := by
  refine .step rfl rfl (.refl X Y) ?_
  rw [near.kind.beq solid]
  by_cases holds : X.kind = kind
  · rw [beq_iff_eq.2 holds]
    exact yes holds
  · rw [beq_eq_false_iff_ne.2 holds]
    exact no holds

-- Moving on

theorem advanced (near : Paired c m (k + 1) X Y) (inside : X.kind.endsLine = false) :
    Paired c m k X.advance Y.advance ∧ Paced X Y X.advance Y.advance ∧
      X.advance.kind = X.kindAfter ∧ X.advance.remaining < X.remaining := by
  have goesOn : X.kind ≠ .endOfStream := fun ends => by simp [ends, TokenKind.endsLine] at inside
  obtain ⟨twin, fewer, fewer'⟩ := near.advance inside
  obtain ⟨x, xs, y, ys, follows, follows', -⟩ := near.follows goesOn
  have bound := near.bound
  have bound' := near.bound'
  simp only [Bound.here_add, Bound.there_add] at bound bound'
  refine ⟨{ twin with suppressed := ?_, stays := ?_, bound := by omega, bound' := by omega },
    ?_, near.kind_advance goesOn, fewer⟩
  · intro within
    rw [ParseState.advance_of_cons follows, ParseState.advance_of_cons follows']
    exact near.suppressed within
  · intro s member
    obtain ⟨blocks, depth, pending, reports⟩ := near.stays s member
    rw [ParseState.advance_of_cons follows']
    exact ⟨blocks, depth, pending, reports⟩
  · refine .moved ?_ ?_ fewer fewer'
    · rw [ParseState.ahead_advance follows]
      exact List.suffix_cons _ _
    · rw [ParseState.ahead_advance follows']
      exact List.suffix_cons _ _

theorem skipOver {f f' : Unit → Parse β} (near : Paired c m (k + 1) X Y)
    (inside : X.kind.endsLine = false)
    (next : ∀ X' Y', X'.kind = X.kindAfter → Paired c m k X' Y' →
      Tracked c g R (f ()) (f' ()) X' Y') :
    Tracked c g R (skip >>= f) (skip >>= f') X Y := by
  obtain ⟨after, paced, kind, -⟩ := near.advanced inside
  exact .step rfl rfl paced (next _ _ kind after)

theorem skip {f f' : Unit → Parse β} (near : Paired c m (k + 1) X Y)
    (inside : X.kind.endsLine = false)
    (next : ∀ X' Y', Paired c m k X' Y' → Tracked c g R (f ()) (f' ()) X' Y') :
    Tracked c g R (skip >>= f) (skip >>= f') X Y :=
  near.skipOver inside fun X' Y' _ => next X' Y'

theorem endsLine_of (solid : kind.endsLine = false) (here : X.kind = kind) :
    X.kind.endsLine = false := by
  rw [here]
  exact solid

theorem skipSolid {f f' : Unit → Parse β} (near : Paired c m (k + 1) X Y)
    (here : X.current.kind = kind) (solid : kind.endsLine = false)
    (next : ∀ X' Y', Paired c m k X' Y' → Tracked c g R (f ()) (f' ()) X' Y') :
    Tracked c g R (Parse.skip >>= f) (Parse.skip >>= f') X Y :=
  near.skip (endsLine_of solid here) next

theorem current_eq (near : Paired c m k X Y) (inside : X.kind.endsLine = false) :
    Y.current = relocate c.carry X.current := by
  refine near.current.resolve_right fun ⟨_, here, _⟩ => ?_
  rw [ParseState.kind, here, c.ends] at inside
  cases inside

theorem readOver {f f' : Token → Parse β} (near : Paired c m (k + 1) X Y)
    (inside : X.kind.endsLine = false)
    (next : ∀ X' Y', X'.kind = X.kindAfter → Paired c m k X' Y' →
      Tracked c g R (f X.current) (f' (relocate c.carry X.current)) X' Y') :
    Tracked c g R (read >>= f) (read >>= f') X Y := by
  obtain ⟨after, paced, kind, -⟩ := near.advanced inside
  have next := next _ _ kind after
  rw [← near.current_eq inside] at next
  exact .step rfl rfl paced next

theorem read {f f' : Token → Parse β} (near : Paired c m (k + 1) X Y)
    (inside : X.kind.endsLine = false)
    (next : ∀ X' Y', Paired c m k X' Y' →
      Tracked c g R (f X.current) (f' (relocate c.carry X.current)) X' Y') :
    Tracked c g R (read >>= f) (read >>= f') X Y :=
  near.readOver inside fun X' Y' _ => next X' Y'

theorem eat {f f' : Option Token → Parse β} (near : Paired c m (k + 1) X Y)
    (solid : kind.endsLine = false)
    (without : X.kind ≠ kind → Tracked c g R (f none) (f' none) X Y)
    (eaten : X.kind = kind → ∀ X' Y', Paired c m k X' Y' →
      Tracked c g R (f (some X.current)) (f' (some (relocate c.carry X.current))) X' Y') :
    Tracked c g R (eat kind >>= f) (eat kind >>= f') X Y := by
  by_cases present : X.kind = kind
  · have inside := endsLine_of solid present
    have present' : Y.kind = kind := (near.kind.eq_iff solid).2 present
    have run {s : ParseState} (holds : s.kind = kind) :
        (Parse.eat kind).run s = (some s.current, s.advance) := by
      show (ite ((s.kind == kind) = true) _ _ : Parse (Option Token)).run s = _
      rw [if_pos (by simpa using holds)]
      rfl
    obtain ⟨after, paced, -⟩ := near.advanced inside
    have next := eaten present _ _ after
    rw [← near.current_eq inside] at next
    exact .step (run present) (run present') paced next
  · have absent' : Y.kind ≠ kind := fun holds => present ((near.kind.eq_iff solid).1 holds)
    have run {s : ParseState} (other : s.kind ≠ kind) : (Parse.eat kind).run s = (none, s) := by
      show (ite ((s.kind == kind) = true) _ _ : Parse (Option Token)).run s = _
      rw [if_neg (by simpa using other)]
      rfl
    exact .step (run present) (run absent') (.refl X Y) (without present)

theorem eatPlace {f f' : Option Location → Parse β} (near : Paired c m (k + 1) X Y)
    (solid : kind.endsLine = false)
    (without : X.kind ≠ kind → Tracked c g R (f none) (f' none) X Y)
    (eaten : X.kind = kind → ∀ X' Y', Paired c m k X' Y' →
      Tracked c g R (f (some X.current.span.start)) (f' (some (c.carry X.current.span.start)))
        X' Y') :
    Tracked c g R (eatPlace kind >>= f) (eatPlace kind >>= f') X Y := by
  have found : Tracked c g R (Parse.eat kind >>= fun t => f (t.map fun t => t.span.start))
      (Parse.eat kind >>= fun t => f' (t.map fun t => t.span.start)) X Y :=
    near.eat solid without eaten
  exact found.ofRun rfl rfl

omit [Relocate β] in
theorem run_eatPlace_of_ne {f : Option Location → Parse β} {s : ParseState}
    (other : s.kind ≠ kind) : (Parse.eatPlace kind >>= f).run s = (f none).run s := by
  have missing : (Parse.eat kind).run s = (none, s) := by
    show (ite ((s.kind == kind) = true) _ _ : Parse (Option Token)).run s = _
    rw [if_neg (by simpa using other)]
    rfl
  show (f (((Parse.eat kind).run s).1.map _)).run ((Parse.eat kind).run s).2 = _
  rw [missing]
  rfl

-- Reporting

theorem reports_report {problem problem' : Problem} {span span' : Span} (near : Near c o k X Y)
    (same : ¬ c.IsCut → problem' = problem ∧ span' = relocate c.carry span) :
    Near c o k (X.report problem span) (Y.report problem' span') := by
  have agree := near.suppressed rfl
  cases first : X.suppressed with
  | true =>
    rw [ParseState.report_of_suppressed first, ParseState.report_of_suppressed (agree.trans first)]
    exact near
  | false =>
    rw [ParseState.report_of_not_suppressed first,
      ParseState.report_of_not_suppressed (agree.trans first)]
    refine { near with suppressed := fun _ => rfl, stays := ?_, count := ?_, reports := ?_ }
    · intro keeps
      simp [near.count keeps, Nat.add_assoc]
    · intro uncut
      obtain ⟨rfl, rfl⟩ := same uncut
      obtain ⟨ds, all, part⟩ := near.reports uncut
      refine ⟨ds ++ [⟨problem', relocate c.carry span⟩], ?_, ?_⟩
      · show Y.diagnostics ++ [_] = _
        rw [all, List.append_assoc]
      · show List.Sublist _ (relocate c.carry (X.diagnostics ++ [_]))
        rw [relocate_append]
        exact part.append (List.Sublist.refl _)
    · intro s member
      obtain ⟨blocks, depth, pending, reports⟩ := near.stays s member
      exact ⟨blocks, depth, pending, reports.trans (List.prefix_append _ _)⟩

theorem report {f f' : Unit → Parse β} {problem : Problem} {span span' : Span}
    (near : Near c o k X Y) (same : ¬ c.IsCut → span' = relocate c.carry span)
    (next : ∀ X' Y', X'.ahead = X.ahead → Near c o k X' Y' →
      Tracked c g R (f ()) (f' ()) X' Y') :
    Tracked c g R (report problem span >>= f) (report problem span' >>= f') X Y :=
  .step rfl rfl (.standing (X.ahead_report _ _) (Y.ahead_report _ _))
    (next _ _ (X.ahead_report _ _) (near.reports_report fun uncut => ⟨rfl, same uncut⟩))

theorem reported {problem : Problem} {span span' : Span} (near : Near c o k X Y)
    (same : ¬ c.IsCut → span' = relocate c.carry span) :
    Tracks c o k (Parse.report problem span) (Parse.report problem span') X Y :=
  fun _ => ⟨rfl, near.reports_report fun uncut => ⟨rfl, same uncut⟩,
    .standing (X.ahead_report _ _) (Y.ahead_report _ _)⟩

theorem reportUnexpected {f f' : Unit → Parse β} {problem : Problem} (near : Near c o k X Y)
    (next : ∀ X' Y', X'.ahead = X.ahead → Near c o k X' Y' →
      Tracked c g R (f ()) (f' ()) X' Y') :
    Tracked c g R (reportUnexpected problem >>= f) (reportUnexpected problem >>= f') X Y := by
  refine .step rfl rfl (.standing (X.ahead_report _ _) (Y.ahead_report _ _))
    (next _ _ (X.ahead_report _ _) (near.reports_report fun uncut => ?_))
  rw [near.current.resolve_right fun cut => uncut cut.1]
  exact ⟨rfl, rfl⟩

/-- A construct begins: from here on both parsers report alike. -/
theorem begun (near : Paired c m k X Y) :
    Near c Y k { X with suppressed := false } { Y with suppressed := false } :=
  { near with
    suppressed := fun _ => rfl
    stays := fun s member => by
      obtain rfl : Y = s := Option.some.inj member
      exact ⟨rfl, rfl, rfl, List.prefix_refl _⟩ }

theorem beginConstruct {f f' : Unit → Parse β} (near : Paired c m k X Y)
    (next : Near c Y k { X with suppressed := false } { Y with suppressed := false } →
      Tracked c g R (f ()) (f' ()) { X with suppressed := false } { Y with suppressed := false }) :
    Tracked c g R (beginConstruct >>= f) (beginConstruct >>= f') X Y :=
  .step rfl rfl (.standing rfl rfl) (next near.begun)

theorem placeholder {g : Location → TokenKind → Prop} (near : Paired c m k X Y) :
    Tracked c g (Paired c m k) placeholder placeholder X Y := by
  refine fun _ => ⟨near.start, ?_, .standing rfl rfl⟩
  exact { near with
    toKin := near.toKin.mark near.start
    stays := fun s member =>
      have ⟨blocks, depth, pending, reports⟩ := near.stays s member
      ⟨blocks, depth, pending, reports⟩ }

theorem optionally {p q : Parse α} {condition condition' : Bool} {g : Option α → TokenKind → Prop}
    (near : Paired c m k X Y) (same : condition' = condition)
    (then_ : condition = true → Tracked c (fun _ _ => True) (Paired c m k) p q X Y) :
    Tracked c g (Paired c m k) (optionally condition p) (optionally condition' q) X Y := by
  subst same
  cases condition' with
  | true => exact (then_ rfl).bind fun _ _ _ near => near.pure rfl
  | false => exact near.pure rfl

/-- A part that begins with a token of its own, where it is wanted. -/
theorem optionallyAt {p q : Parse α} {wanted : Bool} {f f' : Option α → Parse β}
    (near : Paired c m k X Y) (solid : kind.endsLine = false)
    (then_ : X.kind = kind → Tracked c (fun _ _ => True) (Paired c m k) p q X Y)
    (next : ∀ a X' Y', Paired c m k X' Y' →
      Tracked c g R (f a) (f' (relocate c.carry a)) X' Y') :
    Tracked c g R (Parse.check kind >>= fun found => Parse.optionally (wanted && found) p >>= f)
      (Parse.check kind >>= fun found => Parse.optionally (wanted && found) q >>= f') X Y := by
  refine near.check solid (fun present => ?_) fun _ => ?_
  · exact (near.optionally rfl fun _ => then_ present).bind next
  · rw [Bool.and_false]
    exact next none X Y near

theorem eatenPlace {g : Option Location → TokenKind → Prop} (near : Paired c m k X Y)
    (solid : kind.endsLine = false) :
    Tracked c g (Paired c m k) (Parse.eatPlace kind) (Parse.eatPlace kind) X Y := by
  have found : Tracked c g (Paired c m k) (Parse.eatPlace kind >>= Pure.pure)
      (Parse.eatPlace kind >>= Pure.pure) X Y :=
    near.up.eatPlace solid (fun _ => near.pure rfl) fun _ X Y near => near.pure rfl
  exact found.ofRun rfl rfl

theorem eaten {g : Option Token → TokenKind → Prop} (near : Paired c m k X Y)
    (solid : kind.endsLine = false) :
    Tracked c g (Paired c m k) (Parse.eat kind) (Parse.eat kind) X Y := by
  have found : Tracked c g (Paired c m k) (Parse.eat kind >>= Pure.pure)
      (Parse.eat kind >>= Pure.pure) X Y :=
    near.up.eat solid (fun _ => near.pure rfl) fun _ X Y near => near.pure rfl
  exact found.ofRun rfl rfl

theorem whenEaten {p q : Parse α} {g : Option α → TokenKind → Prop} (near : Paired c m k X Y)
    (solid : kind.endsLine = false)
    (then_ : ∀ X' Y', Paired c m k X' Y' →
      Tracked c (fun _ _ => True) (Paired c m k) p q X' Y') :
    Tracked c g (Paired c m k) (whenEaten kind p) (whenEaten kind q) X Y := by
  refine near.up.eat solid (fun _ => near.pure rfl) fun _ X Y near => ?_
  exact (then_ X Y near).bind fun _ _ _ near => near.pure rfl

theorem expect {problem : Problem} (near : Near c o k X Y) (solid : kind.endsLine = false) :
    Tracks c o k (expect kind problem) (expect kind problem) X Y := by
  refine near.up.eat solid (fun _ => ?_) fun _ X Y near => near.pure rfl
  exact near.reportUnexpected fun _ _ _ near => near.pure rfl

theorem expectPlace {problem : Problem} (near : Near c o k X Y) (solid : kind.endsLine = false) :
    Tracks c o k (expectPlace kind problem) (expectPlace kind problem) X Y := by
  refine (near.expect solid).bind fun token _ _ near => near.pure ?_
  cases token <;> rfl

theorem closeParenthesis (near : Near c o k X Y) :
    Tracks c o k closeParenthesis closeParenthesis X Y :=
  near.expectPlace rfl

-- Recovery

theorem stopsDiscarding {stops : List TokenKind} (twin : Twin c X Y) :
    Y.stopsDiscarding stops = X.stopsDiscarding stops := by
  unfold ParseState.stopsDiscarding
  rcases twin.kind with same | ⟨-, ends, breaks⟩
  · rw [same, twin.depth]
  · rw [ends, breaks]

/-- Both parsers pass tokens up to where a test fails. -/
theorem passed (near : Paired c m k X Y) (test : ParseState → Bool)
    (same : ∀ X Y, Twin c X Y → test Y = test X)
    (stops : ∀ X : ParseState, X.kind = .endOfStream ∨ X.kind = .lineTerminator → test X = false)
    {n n' : Nat} (fuel : X.remaining ≤ n) (fuel' : Y.remaining ≤ n') :
    Paired c m k (X.advanceWhile test n) (Y.advanceWhile test n') ∧
      Paced X Y (X.advanceWhile test n) (Y.advanceWhile test n') := by
  induction n generalizing n' X Y k with
  | zero =>
    have ends := stops X (.inl (near.remaining_eq_zero_iff.1 (Nat.le_zero.1 fuel)))
    rw [ParseState.advanceWhile_of_not ends,
      ParseState.advanceWhile_of_not ((same X Y near.toTwin).trans ends)]
    exact ⟨near, .refl X Y⟩
  | succ n ih =>
    by_cases holds : test X = true
    · have inside : X.kind.endsLine = false := by
        refine near.kind_cases.resolve_right fun ends => ?_
        rw [stops X ends] at holds
        cases holds
      obtain ⟨next, paced, -, -⟩ := near.up.advanced inside
      obtain ⟨-, fewer, fewer'⟩ := near.advance inside
      cases n' with
      | zero => omega
      | succ n' =>
        unfold ParseState.advanceWhile
        rw [same X Y near.toTwin, if_pos holds, if_pos holds]
        exact (ih next (by omega) (by omega)).imp_right paced.trans
    · have off : test X = false := by simpa using holds
      rw [ParseState.advanceWhile_of_not off,
        ParseState.advanceWhile_of_not ((same X Y near.toTwin).trans off)]
      exact ⟨near, .refl X Y⟩

theorem resync {stops : List TokenKind} {g : Unit → TokenKind → Prop} (near : Paired c m k X Y) :
    Tracked c g (Paired c m k) (resync stops) (resync stops) X Y := by
  have both : Paired c m k (X.resync stops) (Y.resync stops) ∧
      Paced X Y (X.resync stops) (Y.resync stops) := by
    unfold ParseState.resync
    rw [stopsDiscarding near.toTwin]
    split
    next => exact ⟨near, .refl X Y⟩
    next goesOn =>
      have inside : X.kind.endsLine = false := by
        refine near.kind_cases.resolve_right fun ends => goesOn ?_
        rcases ends with ends | breaks
        · simp [ParseState.stopsDiscarding, ends]
        · simp [ParseState.stopsDiscarding, breaks]
      obtain ⟨next, paced, -, -⟩ := near.up.advanced inside
      obtain ⟨-, fewer, fewer'⟩ := near.advance inside
      refine (next.passed _ (fun X Y twin => ?_) (fun X ends => ?_) (Nat.le_of_lt fewer)
        (Nat.le_of_lt fewer')).imp_right paced.trans
      · rw [stopsDiscarding twin, twin.kind.apply ParseState.beginsStatement rfl]
      · rcases ends with ends | breaks
        · simp [ParseState.stopsDiscarding, ends]
        · simp [ParseState.stopsDiscarding, breaks]
  exact fun _ => ⟨rfl, both.1, both.2⟩

theorem skipStatement {g : Unit → TokenKind → Prop} (near : Paired c m k X Y) :
    Tracked c g (Paired c m k) skipStatement skipStatement X Y := by
  obtain ⟨after, paced⟩ := near.passed (fun s => !s.atStatementEnd)
    (fun X Y twin => by rw [twin.atStatementEnd])
    (fun X ends => by rcases ends with ends | ends <;> simp [ParseState.atStatementEnd, ends])
    (Nat.le_refl _) (Nat.le_refl _)
  exact fun _ => ⟨rfl, after, paced⟩

theorem endStatement {start start' : Location} (near : Near c o k X Y)
    (same : start' = c.carry start) :
    Tracks c o k (endStatement start) (endStatement start') X Y := by
  refine (near.spanFrom same).bind fun span X Y near => ?_
  refine near.atStatementEnd ?_
  cases X.atStatementEnd with
  | true => exact near.pure rfl
  | false =>
    refine near.reportUnexpected fun X Y _ near => ?_
    exact near.resync.bind fun _ _ _ near => near.pure rfl

omit [Relocate α] in
theorem run_moving (p : Parse α) (s : ParseState) :
    (Parse.moving p).run s = ((p.run s).1,
      if (p.run s).2.remaining = s.remaining then (p.run s).2.advance else (p.run s).2) := by
  show (ite ((p.run s).2.remaining = s.remaining) _ _ : Parse α).run (p.run s).2 = _
  split <;> rfl

/-- A rule that must move on moves on in both texts. -/
theorem moving {p q : Parse α} {g h : α → TokenKind → Prop} {m' : Option ParseState}
    (near : Paired c m (k + 1) X Y) (inside : X.kind.endsLine = false)
    (tracks : Tracked c g (Paired c m' (k + 1)) p q X Y)
    (weaker : c.settles → h (p.run X).1 ((Parse.moving p).run X).2.kind →
      g (p.run X).1 (p.run X).2.kind) :
    Tracked c h (Paired c m' k) (moving p) (moving q) X Y := by
  intro fair
  have fair : c.settles → g (p.run X).1 (p.run X).2.kind := fun settles => by
    refine weaker settles ?_
    have holds := fair settles
    rwa [show ((Parse.moving p).run X).1 = (p.run X).1 by rw [run_moving]] at holds
  obtain ⟨value, after, paced⟩ := tracks fair
  have still := paced.still
  have bound := near.bound
  have bound' := near.bound'
  simp only [Bound.here_add, Bound.there_add] at bound bound'
  have both : Paired c m' k ((Parse.moving p).run X).2 ((Parse.moving q).run Y).2 ∧
      Paced X Y ((Parse.moving p).run X).2 ((Parse.moving q).run Y).2 := by
    rw [run_moving, run_moving]
    by_cases stuck : (p.run X).2.remaining = X.remaining
    · rw [if_pos stuck, if_pos (still.1 stuck)]
      have same : (p.run X).2.kind = X.kind :=
        congrArg Token.kind (List.cons.inj (paced.ahead_eq stuck)).1
      obtain ⟨next, moved, -, -⟩ := after.advanced (same ▸ inside)
      exact ⟨next, paced.trans moved⟩
    · rw [if_neg stuck, if_neg fun same => stuck (still.2 same)]
      have fewer := paced.fewer
      have fewer' := paced.fewer'
      have less : (p.run X).2.remaining < k.here := by omega
      have less' : (q.run Y).2.remaining < k.there := by omega
      exact ⟨{ after with bound := less, bound' := less' }, paced⟩
  refine ⟨?_, both.1, both.2⟩
  rw [run_moving, run_moving]
  exact value

/-- A rule that is run within a block. -/
theorem within {p q : Parse α} {g : α → TokenKind → Prop} {block block' : OpenBlock}
    (near : Paired c m k X Y) (same : block' = relocate c.carry block)
    (inner : ∀ X' Y', X'.blocks = block :: X.blocks → Loose c k X' Y' →
      Tracked c g (Loose c j) p q X' Y') :
    Tracked c g (Loose c j) (within block p) (within block' q) X Y := by
  subst same
  intro fair
  obtain ⟨value, after, paced⟩ := inner { X with blocks := block :: X.blocks }
    { Y with blocks := relocate c.carry block :: Y.blocks } rfl
    { near.loose with
      toKin := near.toKin.enter block
      stays := fun _ member => by cases member } fair
  refine ⟨value, ?_, ⟨paced.here, paced.there, paced.still⟩⟩
  exact { after with
    toKin := after.toKin.leave
    stays := fun _ member => by cases member }

-- Sequences

/-- A rule with a fuel, by the number of steps that it can take.  Where the first text ends, both
parsers have come to the end of a line. -/
theorem steps {motive : Nat → Nat → ParseState → ParseState → Prop} {n n' : Nat}
    (near : Paired c m (Bound.mk n n' + 1) X Y)
    (ended : ∀ n n' X Y, Paired c m (Bound.mk n n' + 1) X Y → X.kind = .endOfStream →
      motive n n' X Y)
    (step : ∀ n n', (∀ X Y, Paired c m (Bound.mk n n' + 1) X Y → motive n n' X Y) →
      ∀ X Y, Paired c m (Bound.mk n n' + 1 + 1) X Y → motive (n + 1) (n' + 1) X Y) :
    motive n n' X Y := by
  induction n generalizing n' X Y with
  | zero =>
    exact ended 0 n' X Y near (near.remaining_eq_zero_iff.1 (Nat.lt_one_iff.1 near.bound))
  | succ n ih =>
    cases n' with
    | zero =>
      refine ended (n + 1) 0 X Y near (Classical.byContradiction fun goesOn => ?_)
      obtain ⟨x, xs, y, ys, -, follows, -⟩ := near.follows goesOn
      have bound : Y.following.length < 1 := near.bound'
      simp [follows] at bound
    | succ n' => exact step n n' (fun X Y near => ih near) X Y near

theorem ended_ne (near : Paired c m k X Y) (ends : X.kind = .endOfStream) (kind : TokenKind)
    (solid : kind.endsLine = false) : X.kind ≠ kind ∧ Y.kind ≠ kind := by
  constructor
  · rintro rfl
    rw [ends] at solid
    cases solid
  · rintro rfl
    rcases near.endsToo ends with ends | ends <;> rw [ends] at solid <;> cases solid

omit [Relocate α] in
/-- Without a comma there is one item only. -/
theorem run_separatedFrom_of_ne {σ : Type} {item : σ → Parse (α × Option σ)} {state : σ}
    {s : ParseState} (alone : ((item state).run s).2.kind ≠ .mark .comma) (n : Nat) :
    (Parse.separatedFrom item n state).run s =
      (⟨((item state).run s).1.1, []⟩, ((item state).run s).2) := by
  cases n with
  | zero => rfl
  | succ n =>
    rw [Parse.separatedFrom, run_bind]
    generalize (item state).run s = result at alone ⊢
    obtain ⟨⟨first, next⟩, t⟩ := result
    cases next with
    | none => rfl
    | some next => exact run_eatPlace_of_ne alone

/-- The number of tokens that are left bounds the number of items in both texts. -/
theorem separatedFrom {σ : Type} [Relocate σ] {item item' : σ → Parse (α × Option σ)} {n n' : Nat}
    (each : ∀ state X Y, Near c o k X Y →
      Tracks c o k (item state) (item' (relocate c.carry state)) X Y)
    (near : Near c o (Bound.mk n n' + 1) X Y) (below : Bound.mk n n' + 1 ≤ k) (state : σ) :
    Tracks c o (Bound.mk n n' + 1) (separatedFrom item n state)
      (separatedFrom item' n' (relocate c.carry state)) X Y := by
  refine near.steps (motive := fun n n' X Y => Bound.mk n n' + 1 ≤ k → ∀ state,
    Tracks c o (Bound.mk n n' + 1) (Parse.separatedFrom item n state)
      (Parse.separatedFrom item' n' (relocate c.carry state)) X Y)
    (fun n n' X Y near ends below state => ?_) (fun n n' ih X Y near below state => ?_) below state
  · have first := (each state X Y (near.mono below)).within near
    obtain ⟨value, after, paced⟩ := first fun _ => trivial
    have none := near.remaining_eq_zero_iff.2 ends
    have fewer := paced.fewer
    have ends : ((item state).run X).2.kind = .endOfStream :=
      after.remaining_eq_zero_iff.1 (by omega)
    obtain ⟨alone, alone'⟩ := after.ended_ne ends (.mark .comma) rfl
    refine fun _ => ⟨?_, ?_, ?_⟩
    · rw [run_separatedFrom_of_ne alone, run_separatedFrom_of_ne alone', value]
      rfl
    · rw [run_separatedFrom_of_ne alone, run_separatedFrom_of_ne alone']
      exact after
    · rw [run_separatedFrom_of_ne alone, run_separatedFrom_of_ne alone']
      exact paced
  · refine ((each state X Y (near.mono below)).within near).bind fun ⟨first, next⟩ X Y near => ?_
    cases next with
    | none => exact near.pure rfl
    | some next =>
      refine near.eatPlace rfl (fun _ => near.pure rfl) fun _ X Y near => ?_
      exact (ih X Y near (Bound.le_of_succ below) next).bind fun _ _ _ near => near.up.pure rfl

theorem separated {item item' : Parse α} (near : Near c o k X Y)
    (each : ∀ X Y, Near c o k X Y → Tracks c o k item item' X Y) :
    Tracks c o k (separated item) (separated item') X Y := by
  refine get (Tracked.within (near.fresh.separatedFrom (fun _ X Y near => ?_) near.fresh_le ())
    near)
  exact (each X Y near).bind fun _ _ _ near => near.pure rfl

theorem commaList {span : α → Span} {item item' : Parse α} (near : Near c o k X Y)
    (spans : ∀ a, span (relocate c.carry a) = relocate c.carry (span a))
    (each : ∀ X Y, Near c o k X Y → Tracks c o k item item' X Y) :
    Tracks c o k (commaList span item) (commaList span item') X Y :=
  (near.separated each).bind fun items _ _ near => near.pure (items.toHullList_relocate spans)

end Paired

end VisualBasic
