import Classlet.Proofs.Scan.Runs

/-!
# Scanning by the grammar

A cut finds the lexeme of the grammar, or there is none, and the items of a text
are the only ones that the grammar allows.
-/

namespace Classlet.Scan

/-! ## The rule that applies -/

section Rules

variable {first : Char} {rest : List Char}

theorem cut?_word (hfirst : BeginsWord first) :
    cut? (first :: rest) = some (cutWord (first :: rest)) := by
  have hstart : isWordStart first = true := (isWordStart_iff first).mpr hfirst
  unfold cut?
  split
  case h_6 =>
    rename_i heq
    cases heq
    rw [if_pos hstart]
  all_goals
    rename_i heq
    cases heq <;> contradiction

theorem cut?_number (hfirst : IsDigit first) :
    cut? (first :: rest) = some (cutNumber (first :: rest)) := by
  have hdigit : first.isDigit = true := (isDigit_iff first).mpr hfirst
  have hstart : isWordStart first = false := by
    rw [Bool.eq_false_iff, ne_eq, isWordStart_iff]
    rintro ((⟨hupper, _⟩ | ⟨hlower, _⟩) | rfl)
    · exact absurd (Char.le_trans hupper hfirst.2) (by decide)
    · exact absurd (Char.le_trans hlower hfirst.2) (by decide)
    · exact absurd hfirst.2 (by decide)
  unfold cut?
  split
  case h_6 =>
    rename_i heq
    cases heq
    rw [if_neg (by simp [hstart]), if_pos hdigit]
  all_goals
    rename_i heq
    cases heq <;> contradiction

theorem cut?_char (hfirst : first ≠ '\'') :
    cut? ('\'' :: first :: rest) = some (cutQuoted .charLiteral '\'' (first :: rest)) := by
  simp [cut?, hfirst]

/-- Where nothing else begins, a symbol may; two quotes are none. -/
theorem cut?_of_not_opens (hopens : ¬ Opens (first :: rest)) :
    cut? (first :: rest) = cutSymbol? (first :: rest) := by
  unfold cut?
  split
  case h_1 heq => cases heq
  case h_2 heq =>
    cases heq
    exact absurd .string hopens
  case h_3 heq =>
    cases heq
    split
    · rename_i hquote
      rw [hquote]
      rfl
    · rename_i hquote
      exact absurd (.char hquote) hopens
  case h_4 heq =>
    cases heq
    exact absurd .lineComment hopens
  case h_5 heq =>
    cases heq
    exact absurd .blockComment hopens
  case h_6 heq =>
    cases heq
    have hstart : isWordStart first = false := by
      rw [Bool.eq_false_iff, ne_eq, isWordStart_iff]
      exact fun hfirst => hopens (.word hfirst)
    have hdigit : first.isDigit = false := by
      rw [Bool.eq_false_iff, ne_eq, isDigit_iff]
      exact fun hfirst => hopens (.number hfirst)
    simp [hstart, hdigit]

end Rules

/-! ## Cuts -/

theorem lexeme_of_cutMark? {first : Char} {rest : List Char} {cut : Cut}
    (hopens : ¬ Opens (first :: rest))
    (hpair : ∀ second ∈ rest.head?, Kind.ofSymbol? (String.ofList [first, second]) = none)
    (h : cutMark? (first :: rest) = some cut) : Lexeme (first :: rest) cut.kind cut.lexeme := by
  simp only [cutMark?, Option.map_eq_some_iff] at h
  obtain ⟨kind, hkind, rfl⟩ := h
  exact .mark hopens hpair hkind

theorem lexeme_of_cutSymbol? {first : Char} {rest : List Char} {cut : Cut}
    (hopens : ¬ Opens (first :: rest)) (h : cutSymbol? (first :: rest) = some cut) :
    Lexeme (first :: rest) cut.kind cut.lexeme := by
  cases rest with
  | nil => exact lexeme_of_cutMark? hopens (by simp) h
  | cons second rest =>
      simp only [cutSymbol?] at h
      split at h
      · rename_i kind hkind
        cases h
        exact .pair hopens hkind
      · rename_i hnone
        refine lexeme_of_cutMark? hopens ?_ h
        simpa using hnone

theorem lexeme_of_cut? {text : List Char} {cut : Cut} (h : cut? text = some cut) :
    Lexeme text cut.kind cut.lexeme := by
  by_cases hopens : Opens text
  · cases hopens with
    | word hfirst =>
        rw [cut?_word hfirst, Option.some.injEq] at h
        subst h
        exact .word hfirst (longest_word hfirst _)
    | number hfirst =>
        rw [cut?_number hfirst, Option.some.injEq] at h
        subst h
        exact .number hfirst (longest_number hfirst _)
    | string =>
        cases h
        exact .string (through_quote '"' _)
    | char hfirst =>
        rw [cut?_char hfirst, Option.some.injEq] at h
        subst h
        exact .char hfirst (through_quote '\'' _)
    | lineComment =>
        cases h
        exact .lineComment (upTo_restOfLine _)
    | blockComment =>
        cases h
        exact .blockComment (through_close _)
  · cases text with
    | nil => cases h
    | cons first rest =>
        rw [cut?_of_not_opens hopens] at h
        exact lexeme_of_cutSymbol? hopens h

theorem exists_cut?_of_lexeme {text lexeme : List Char} {kind : Kind}
    (h : Lexeme text kind lexeme) : ∃ rest, cut? text = some ⟨kind, lexeme, rest⟩ := by
  cases h with
  | word hfirst hlongest =>
      have hlexeme := hlongest.unique (longest_word hfirst _)
      exact ⟨_, by rw [cut?_word hfirst, cutWord, ← hlexeme]⟩
  | number hfirst hlongest =>
      have hlexeme := hlongest.unique (longest_number hfirst _)
      exact ⟨_, by rw [cut?_number hfirst, cutNumber, ← hlexeme]⟩
  | string hrun =>
      have hlexeme := hrun.unique (through_quote '"' _)
      exact ⟨_, by rw [cut?, cutQuoted, ← hlexeme]⟩
  | char hfirst hrun =>
      have hlexeme := hrun.unique (through_quote '\'' _)
      exact ⟨_, by rw [cut?_char hfirst, cutQuoted, ← hlexeme]⟩
  | lineComment hrun => exact ⟨_, by rw [cut?, cutLineComment, ← hrun.eq_restOfLine]⟩
  | blockComment hrun =>
      have hlexeme := hrun.unique (through_close _)
      exact ⟨_, by rw [cut?, cutBlockComment, ← hlexeme]⟩
  | @pair first second rest kind hopens hkind =>
      refine ⟨rest, ?_⟩
      rw [cut?_of_not_opens hopens, cutSymbol?, hkind]
  | @mark first rest kind hopens hpair hkind =>
      refine ⟨rest, ?_⟩
      rw [cut?_of_not_opens hopens]
      cases rest with
      | nil => simp only [cutSymbol?, cutMark?, hkind, Option.map_some]
      | cons second rest =>
          simp only [cutSymbol?, hpair second rfl, cutMark?, hkind, Option.map_some]

/-- A cut is the lexeme of the grammar and what follows it. -/
theorem cut?_eq_some_iff {text lexeme rest : List Char} {kind : Kind} :
    cut? text = some ⟨kind, lexeme, rest⟩ ↔ Lexeme text kind lexeme ∧ text = lexeme ++ rest := by
  constructor
  · intro h
    exact ⟨lexeme_of_cut? h, (cut?_append h).symm⟩
  · rintro ⟨hlexeme, htext⟩
    obtain ⟨rest', hcut⟩ := exists_cut?_of_lexeme hlexeme
    have happend := cut?_append hcut
    rw [htext] at happend
    obtain rfl := List.append_cancel_left happend
    exact hcut

theorem cut?_eq_none_iff {text : List Char} :
    cut? text = none ↔ ∀ kind lexeme, ¬ Lexeme text kind lexeme := by
  constructor
  · intro h kind lexeme hlexeme
    obtain ⟨rest, hcut⟩ := exists_cut?_of_lexeme hlexeme
    rw [h] at hcut
    cases hcut
  · intro h
    cases hcut : cut? text with
    | none => rfl
    | some cut => exact absurd (lexeme_of_cut? hcut) (h _ _)

/-! ## Items -/

theorem lexes_itemsAfter (position : Position) (text : List Char) :
    Lexes position text (itemsAfter 0 position text) := by
  induction hlength : text.length using Nat.strongRecOn generalizing position text with
  | ind length ih =>
      cases text with
      | nil => exact .done
      | cons char rest =>
          have hrest : rest.length < length := by simp [← hlength]
          cases hblank : Text.isBlank char with
          | true =>
              rw [itemsAfter_blank hblank]
              exact .blank hblank (ih _ hrest _ _ rfl)
          | false =>
              cases hcut : cut? (char :: rest) with
              | none =>
                  rw [itemsAfter_stray hblank hcut]
                  exact .stray hblank (cut?_eq_none_iff.mp hcut) (ih _ hrest _ _ rfl)
              | some cut =>
                  rw [itemsAfter_token hblank hcut]
                  have happend := cut?_append hcut
                  have hne := List.length_pos_iff.mpr (cut?_lexeme_ne_nil hcut)
                  have hshorter : cut.rest.length < length := by
                    have hsum := congrArg List.length happend
                    simp only [List.length_append, hlength] at hsum
                    omega
                  exact .token hblank (lexeme_of_cut? hcut) happend.symm
                    (ih _ hshorter _ _ rfl)

theorem Lexes.eq_itemsAfter {position : Position} {text : List Char} {found : List Item}
    (h : Lexes position text found) : found = itemsAfter 0 position text := by
  induction h with
  | done => rfl
  | blank hblank _ ih => rw [itemsAfter_blank hblank, ih]
  | stray hblank hnone _ ih => rw [itemsAfter_stray hblank (cut?_eq_none_iff.mpr hnone), ih]
  | token hblank hlexeme hrest _ ih =>
      have hcut := cut?_eq_some_iff.mpr ⟨hlexeme, hrest⟩
      rw [itemsAfter_token hblank hcut, ih]

theorem lexes_iff (text : String) (found : List Item) :
    Lexes .start text.toList found ↔ found = items text := by
  constructor
  · intro h
    exact h.eq_itemsAfter
  · rintro rfl
    exact lexes_itemsAfter .start text.toList

example : (tokens "1.x 12f3 ''a' /*/").map Token.lexeme =
    ["1", ".", "x", "12f", "3", "'a'", "/*/"] := by
  decide +kernel

end Classlet.Scan
