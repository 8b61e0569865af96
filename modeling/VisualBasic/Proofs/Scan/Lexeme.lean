import VisualBasic.Proofs.Scan.Extent

/-!
The extent of what is recognised at the front of a text.  At the end of the text there is nothing
to take; anywhere else either a line break is taken whole or a lexeme within the line.
-/

set_option autoImplicit false

namespace VisualBasic

theorem halfWidth_halfWidth (c : Char) : halfWidth (halfWidth c) = halfWidth c := by
  unfold halfWidth
  by_cases full : 0xFF01 ≤ c.toNat ∧ c.toNat ≤ 0xFF5E
  · have valid : (c.toNat - 0xFEE0).isValidChar := .inl (by omega)
    have plain : (Char.ofNat (c.toNat - 0xFEE0)).toNat = c.toNat - 0xFEE0 := by
      rw [Char.ofNat, dif_pos valid]
      rfl
    rw [if_pos full, plain, if_neg (by omega), if_neg]
    intro ideographic
    rw [ideographic] at plain
    have : ('\u3000' : Char).toNat = 0x3000 := rfl
    omega
  · rw [if_neg full]
    by_cases space : c = '\u3000'
    · simp [space]
    · rw [if_neg space, if_neg full, if_neg space]

theorem isIdentifierPart_of_start {c : Char} (starts : isIdentifierStart (halfWidth c) = true) :
    isIdentifierPart c = true := by
  rw [isIdentifierStart, halfWidth_halfWidth] at starts
  exact isIdentifierPart_of_isIdentifierStart starts

namespace Scan

variable {c : Char} {cs rest : List Char}

theorem clear_lineText (cs : List Char) : Clear cs (lineText cs).length :=
  Clear.ofTakeWhile cs fun _ inside => by simpa using inside

theorem commentMatch_takes (isRem : Bool) {introducer : Nat} (positive : 0 < introducer)
    (clear : Clear cs introducer) : (commentMatch isRem introducer cs).Takes cs :=
  ⟨Nat.lt_of_lt_of_le positive (Nat.le_add_right _ _), clear.add (clear_lineText _), trivial⟩

theorem clear_nameSuffix (cs : List Char) : Clear cs ((nameSuffix? cs).elim 0 fun _ => 1) := by
  cases found : nameSuffix? cs with
  | none => exact Clear.zero cs
  | some symbol =>
    cases cs with
    | nil => simp [nameSuffix?] at found
    | cons c rest =>
      have isSymbol := (Option.filter_eq_some_iff.1 found).1
      refine Clear.one rest (not_isLineTerminator_of
        (p := fun c => (TypeCharacter.ofSymbol? (halfWidth c)).isSome) (by decide) ?_)
      simp [isSymbol]

theorem takeWhile_isIdentifierPart_ne_nil (rest : List Char)
    (starts : isIdentifierStart (halfWidth c) = true) :
    (c :: rest).takeWhile isIdentifierPart ≠ [] := by
  simp [isIdentifierPart_of_start starts]

theorem wordMatch_takes (version : Version) (starts : isIdentifierStart (halfWidth c) = true) :
    (wordMatch version (c :: rest)).Takes (c :: rest) := by
  have word := takeWhile_isIdentifierPart_ne_nil rest starts
  have positive := List.length_pos_iff.2 word
  have spelled : String.ofList ((c :: rest).takeWhile isIdentifierPart) ≠ "" := by
    simpa using word
  have clear : Clear (c :: rest) ((c :: rest).takeWhile isIdentifierPart).length :=
    Clear.ofTakeWhile _ fun _ => not_isLineTerminator_of_isIdentifierPart
  have suffixed := clear.add (clear_nameSuffix _)
  unfold wordMatch
  dsimp only
  split
  · refine commentMatch_takes true (by omega) (clear.add ?_)
    split
    next blank => exact Clear.ofHead (fun _ => not_isLineTerminator_of_isBlank) blank
    next => exact Clear.zero _
  · split
    all_goals exact ⟨by dsimp only; omega, suffixed, spelled⟩
  · exact ⟨by dsimp only; omega, suffixed, spelled⟩

theorem clear_closing {closing : Char} (inside : isLineTerminator closing = false)
    (closed : cs.head?.any (fun c => halfWidth c == closing) = true) : Clear cs 1 :=
  Clear.ofHead (fun d closes => not_isLineTerminator_of_halfWidth
    (by rwa [show halfWidth d = closing by simpa using closes])) closed

theorem clear_lengthThrough {closing : Char} (inside : isLineTerminator closing = false)
    (cs : List Char) : Clear cs (lengthThrough closing cs) := by
  unfold lengthThrough
  dsimp only
  refine (Clear.ofTakeWhile cs fun d passed => ?_).add ?_
  · simp only [Bool.and_eq_true, Bool.not_eq_true'] at passed
    exact passed.2
  · split
    next closed => exact clear_closing inside closed
    next => exact Clear.zero _

theorem escapedMatch_takes (bracket : halfWidth c = '[') :
    (escapedMatch (c :: rest)).Takes (c :: rest) := by
  have opening := Clear.one rest (not_isLineTerminator_of_halfWidth (by rw [bracket]; decide))
  unfold escapedMatch
  simp only [List.drop_one, List.tail_cons]
  split
  next starts =>
    have word : Clear rest (rest.takeWhile isIdentifierPart).length :=
      Clear.ofTakeWhile _ fun _ => not_isLineTerminator_of_isIdentifierPart
    split
    next closed =>
      refine ⟨by dsimp only; omega, ?_, ?_⟩
      · have whole := opening.add ((word.add (clear_closing (by decide) closed)).add
          (clear_nameSuffix _))
        convert whole using 1
        simp only [List.tail_drop]
        omega
      · obtain ⟨d, tail, rfl⟩ : ∃ d tail, rest = d :: tail := by
          cases rest with
          | nil => simp at starts
          | cons d tail => exact ⟨d, tail, rfl⟩
        have part : isIdentifierPart d = true :=
          isIdentifierPart_of_start (by
            simpa [isIdentifierStart, halfWidth_halfWidth] using starts)
        simp [Lexeme.IsProper, part]
    next => exact ⟨by dsimp only; omega, by rw [Nat.add_comm]; exact opening.add word, trivial⟩
  next => exact ⟨by dsimp only; omega, opening.add (clear_lengthThrough (by decide) rest), trivial⟩

theorem not_isLineTerminator_of_isDoubleQuote (quote : isDoubleQuote c = true) :
    isLineTerminator c = false :=
  not_isLineTerminator_of (by decide) quote

theorem clear_stringBody {text : List Char} {n : Nat} (found : stringBody? cs = some (text, n)) :
    Clear cs n := by
  fun_induction stringBody? cs generalizing text n with
  | case1 => simp at found
  | case2 => simp at found
  | case3 c inside quote d rest again ih =>
    -- a quote that is written twice
    obtain ⟨⟨_, m⟩, body, same⟩ := Option.map_eq_some_iff.1 found
    obtain ⟨-, rfl⟩ := Prod.mk.inj same
    have first := Clear.one (d :: rest) (not_isLineTerminator_of_isDoubleQuote quote)
    have second := Clear.one rest (not_isLineTerminator_of_isDoubleQuote again)
    rw [Nat.add_comm]
    exact (first.add second).add (ih body)
  | case4 c inside quote d rest once =>
    obtain ⟨-, rfl⟩ : [] = text ∧ 1 = n := by simpa using found
    exact Clear.one _ (not_isLineTerminator_of_isDoubleQuote quote)
  | case5 c inside quote =>
    obtain ⟨-, rfl⟩ : [] = text ∧ 1 = n := by simpa using found
    exact Clear.one _ (not_isLineTerminator_of_isDoubleQuote quote)
  | case6 c rest inside plain ih =>
    obtain ⟨⟨_, m⟩, body, same⟩ := Option.map_eq_some_iff.1 found
    obtain ⟨-, rfl⟩ := Prod.mk.inj same
    rw [Nat.add_comm]
    exact (Clear.one rest (by simpa using inside)).add (ih body)

theorem stringMatch_takes (quote : isDoubleQuote c = true) :
    (stringMatch (c :: rest)).Takes (c :: rest) := by
  have opening := Clear.one rest (not_isLineTerminator_of_isDoubleQuote quote)
  unfold stringMatch
  simp only [List.drop_one, List.tail_cons]
  split
  next => exact ⟨by dsimp only; omega, opening.add (clear_lineText rest), trivial⟩
  next text n body =>
    have closed := opening.add (clear_stringBody body)
    split
    next marked =>
      obtain ⟨after, mark⟩ := Option.isSome_iff_exists.1 marked
      obtain ⟨d, behind, isMark⟩ := afterOne_eq_some mark
      have suffix : Clear ((c :: rest).drop (1 + n)) 1 := by
        rw [Nat.add_comm, List.drop_succ_cons, behind]
        exact Clear.one after (not_isLineTerminator_of_halfWidth_mem (by decide) isMark)
      have whole := closed.add suffix
      rw [show 1 + n + 1 = n + 2 by omega] at whole
      split
      all_goals exact ⟨by dsimp only; omega, whole, trivial⟩
    next => exact ⟨by dsimp only; omega, by rw [Nat.add_comm]; exact closed, trivial⟩

theorem dateMatch_takes (sign : halfWidth c = '#') : (dateMatch (c :: rest)).Takes (c :: rest) := by
  have opening := Clear.one rest (not_isLineTerminator_of_halfWidth (by rw [sign]; decide))
  have whole := opening.add (clear_lengthThrough (by decide : isLineTerminator '#' = false) rest)
  unfold dateMatch
  simp only [List.drop_one, List.tail_cons]
  split
  · split
    all_goals exact ⟨by dsimp only; omega, whole, trivial⟩
  · exact ⟨Nat.one_pos, opening, trivial⟩

/-- A punctuator is spelled with characters that end no line. -/
theorem punctuator_inside (p : Punctuator) :
    0 < p.spelling.length ∧ (p.spelling.toList.all fun m => !isLineTerminator m) = true := by
  cases p <;> decide

theorem punctuatorMatch_takes (inside : isLineTerminator c = false) :
    (punctuatorMatch (c :: rest)).Takes (c :: rest) := by
  unfold punctuatorMatch
  split
  next p found =>
    obtain ⟨tail, front⟩ : p.spelling.toList <+: ((c :: rest).take 3).map halfWidth := by
      simpa using List.find?_some found
    have lengths := congrArg List.length front
    simp only [List.length_append, List.length_map, List.length_take, String.length_toList]
      at lengths
    have spelled : p.spelling.toList = ((c :: rest).take p.spelling.length).map halfWidth := by
      have cut := congrArg (List.take p.spelling.length) front
      rw [← String.length_toList, List.take_left, String.length_toList, ← List.map_take,
        List.take_take] at cut
      rwa [Nat.min_eq_left (by omega)] at cut
    refine ⟨(punctuator_inside p).1, ⟨by dsimp only; omega, fun d member => ?_⟩, trivial⟩
    refine not_isLineTerminator_of_halfWidth_mem (punctuator_inside p).2 ?_
    rw [spelled]
    exact List.mem_map_of_mem member
  next => exact ⟨Nat.one_pos, Clear.one rest inside, trivial⟩

/-- The front of a text is a lexeme within its line or the end of it. -/
theorem recognize_cons (version : Version) (c : Char) (rest : List Char) :
    (recognize version (c :: rest)).Takes (c :: rest) ∨
      isLineTerminator c = true ∧
        recognize version (c :: rest) = ⟨.lineTerminator, lineBreakLength (c :: rest)⟩ := by
  by_cases ends : isLineTerminator c = true
  · exact .inr ⟨ends, by simp [recognize, startOf, ends]⟩
  · left
    have inside : isLineTerminator c = false := by simpa using ends
    have front := Clear.one rest inside
    unfold recognize
    dsimp only
    fun_cases startOf c rest.head?
    case case1 => contradiction
    case case2 => exact commentMatch_takes false Nat.one_pos front
    case case3 => exact ⟨Nat.one_pos, front, trivial⟩
    case case4 bracket => exact escapedMatch_takes bracket
    case case5 starts => exact wordMatch_takes version starts
    case case6 quote => exact stringMatch_takes quote
    case case7 sign => exact dateMatch_takes sign
    case case8 digit => exact decimalNumber_takes version (.inl digit)
    case case9 point => exact decimalNumber_takes version (.inr point)
    case case10 ampersand => exact radixNumber_takes version ampersand.1
    case case11 => exact punctuatorMatch_takes inside

end Scan

end VisualBasic
