import Classlet.Scan.Scanner

/-!
# Cuts lose nothing

Every cut divides its text: the lexeme and what follows it are the text again,
and the lexeme is not empty.  Hence the items of a text can be read off one cut
at a time.
-/

namespace Classlet.Scan

/-! ## Parts of lexemes -/

theorem digits_append (text : List Char) : (digits text).1 ++ (digits text).2 = text :=
  List.takeWhile_append_dropWhile

theorem fraction_append (text : List Char) :
    (fraction text).1 ++ (fraction text).2 = text := by
  unfold fraction
  split
  · split
    · simp [digits_append]
    · rfl
  · rfl

theorem floatMark_append (text : List Char) :
    (floatMark text).1 ++ (floatMark text).2 = text := by
  unfold floatMark
  split <;> rfl

theorem number_append (text : List Char) : (number text).1 ++ (number text).2 = text := by
  simp [number, floatMark_append, fraction_append, digits_append]

theorem throughQuote_append (quote : Char) (text : List Char) :
    (throughQuote quote text).1 ++ (throughQuote quote text).2 = text := by
  induction text with
  | nil => rfl
  | cons char rest ih =>
      unfold throughQuote
      split
      · rfl
      · simp [ih]

theorem throughClose_append (text : List Char) :
    (throughClose text).1 ++ (throughClose text).2 = text := by
  fun_induction throughClose text with
  | case1 => rfl
  | case2 rest => rfl
  | case3 char rest _ ih => simp [ih]

theorem restOfLine_append (text : List Char) :
    (restOfLine text).1 ++ (restOfLine text).2 = text :=
  List.takeWhile_append_dropWhile

/-! ## Cuts -/

theorem cutMark?_append {text : List Char} {cut : Cut} (h : cutMark? text = some cut) :
    cut.lexeme ++ cut.rest = text := by
  unfold cutMark? at h
  split at h
  · simp only [Option.map_eq_some_iff] at h
    obtain ⟨kind, _, rfl⟩ := h
    rfl
  · simp at h

theorem cutSymbol?_append {text : List Char} {cut : Cut} (h : cutSymbol? text = some cut) :
    cut.lexeme ++ cut.rest = text := by
  unfold cutSymbol? at h
  split at h
  · split at h
    · cases h
      rfl
    · exact cutMark?_append h
  · exact cutMark?_append h

theorem cut?_append {text : List Char} {cut : Cut} (h : cut? text = some cut) :
    cut.lexeme ++ cut.rest = text := by
  unfold cut? at h
  split at h
  · simp at h
  · cases h
    simp [cutQuoted, throughQuote_append]
  · split at h
    · simp at h
    · cases h
      simp [cutQuoted, throughQuote_append]
  · cases h
    simp [cutLineComment, restOfLine_append]
  · cases h
    simp [cutBlockComment, throughClose_append]
  · split at h
    · cases h
      simp [cutWord]
    · split at h
      · cases h
        simp [cutNumber, number_append]
      · exact cutSymbol?_append h

theorem cutMark?_lexeme_ne_nil {text : List Char} {cut : Cut}
    (h : cutMark? text = some cut) : cut.lexeme ≠ [] := by
  unfold cutMark? at h
  split at h
  · simp only [Option.map_eq_some_iff] at h
    obtain ⟨kind, _, rfl⟩ := h
    simp
  · simp at h

theorem cutSymbol?_lexeme_ne_nil {text : List Char} {cut : Cut}
    (h : cutSymbol? text = some cut) : cut.lexeme ≠ [] := by
  unfold cutSymbol? at h
  split at h
  · split at h
    · cases h
      simp
    · exact cutMark?_lexeme_ne_nil h
  · exact cutMark?_lexeme_ne_nil h

theorem cut?_lexeme_ne_nil {text : List Char} {cut : Cut} (h : cut? text = some cut) :
    cut.lexeme ≠ [] := by
  unfold cut? at h
  split at h
  · simp at h
  · cases h
    simp [cutQuoted]
  · split at h
    · simp at h
    · cases h
      simp [cutQuoted]
  · cases h
    simp [cutLineComment]
  · cases h
    simp [cutBlockComment]
  · split at h
    case isTrue hstart =>
      cases h
      simp only [cutWord, isWordStart, Bool.or_eq_true] at hstart ⊢
      rw [List.takeWhile_cons_of_pos]
      · simp
      · simp only [isWordPart, Char.isAlphanum, Bool.or_eq_true]
        exact hstart.imp Or.inl id
    case isFalse =>
      split at h
      case isTrue hdigit =>
        cases h
        simp [cutNumber, number, digits, List.takeWhile_cons_of_pos hdigit]
      case isFalse => exact cutSymbol?_lexeme_ne_nil h

/-! ## Items -/

/-- Scanning ends behind the last character, with nothing left. -/
theorem scanAfter_scanner (covered : Nat) (position : Position) (text : List Char) :
    (scanAfter covered position text).2 = ⟨[], position.past text⟩ := by
  induction text generalizing covered position with
  | nil => cases covered <;> simp [scanAfter]
  | cons char rest ih =>
      rw [Position.past_cons]
      cases covered with
      | succ covered => exact ih covered (position.next char)
      | zero =>
          simp only [scanAfter]
          split
          · exact ih 0 (position.next char)
          · split
            · exact ih _ (position.next char)
            · exact ih 0 (position.next char)

def itemsAfter (covered : Nat) (position : Position) (text : List Char) : List Item :=
  (scanAfter covered position text).1

/-- The characters that are covered already only move the place. -/
theorem itemsAfter_eq_drop (covered : Nat) (position : Position) (text : List Char) :
    itemsAfter covered position text =
      itemsAfter 0 (position.past (text.take covered)) (text.drop covered) := by
  induction covered generalizing position text with
  | zero => simp
  | succ covered ih =>
      cases text with
      | nil => simp [itemsAfter, scanAfter]
      | cons char rest =>
          have hcovered := ih (position.next char) rest
          simpa [itemsAfter, scanAfter] using hcovered

theorem itemsAfter_blank {char : Char} (h : Text.isBlank char = true)
    (position : Position) (rest : List Char) :
    itemsAfter 0 position (char :: rest) = itemsAfter 0 (position.next char) rest := by
  simp [itemsAfter, scanAfter, h]

theorem itemsAfter_stray {char : Char} {rest : List Char}
    (hblank : Text.isBlank char = false) (hcut : cut? (char :: rest) = none)
    (position : Position) :
    itemsAfter 0 position (char :: rest) =
      .stray char position :: itemsAfter 0 (position.next char) rest := by
  simp [itemsAfter, scanAfter, hblank, hcut]

/-- After a token, scanning goes on with what follows its lexeme. -/
theorem itemsAfter_token {char : Char} {rest : List Char} {cut : Cut}
    (hblank : Text.isBlank char = false) (hcut : cut? (char :: rest) = some cut)
    (position : Position) :
    itemsAfter 0 position (char :: rest) =
      .token ⟨cut.kind, String.ofList cut.lexeme, position⟩ ::
        itemsAfter 0 (position.past cut.lexeme) cut.rest := by
  have happend := cut?_append hcut
  have hne := cut?_lexeme_ne_nil hcut
  have hcovered := itemsAfter_eq_drop (cut.lexeme.length - 1) (position.next char) rest
  simp only [itemsAfter, scanAfter, hblank, hcut, Bool.false_eq_true, if_false] at hcovered ⊢
  rw [hcovered]
  cases hlexeme : cut.lexeme with
  | nil => exact absurd hlexeme hne
  | cons first others =>
      rw [hlexeme] at happend
      simp only [List.cons_append, List.cons.injEq] at happend
      obtain ⟨rfl, rfl⟩ := happend
      simp

end Classlet.Scan
