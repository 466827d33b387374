import Classlet.Analysis.Analyzer
import Classlet.Proofs.Scan.Surroundings

/-!
# Cleared texts

Scanning passes over a stray character as it does over a blank.  If all of them are
replaced by spaces at once, each in its place, the tokens stay what they are and where
they are, and no character is stray any more.  The places tell which characters are
replaced: those of the items found behind a place are not before it, so what is cleared
in a text is what its own items say.
-/

namespace Classlet

namespace Position

/-- The place comes first in reading order. -/
def Before (first second : Position) : Prop :=
  first.line < second.line ∨ first.line = second.line ∧ first.column < second.column

instance (first second : Position) : Decidable (first.Before second) :=
  inferInstanceAs (Decidable (_ ∨ _))

variable {first second third : Position}

theorem not_before_self (position : Position) : ¬ position.Before position := by
  rintro (h | ⟨_, h⟩) <;> exact Nat.lt_irrefl _ h

theorem Before.trans (h : first.Before second) (hmore : second.Before third) :
    first.Before third := by
  unfold Before at *
  omega

theorem before_next (position : Position) (char : Char) :
    position.Before (position.next char) := by
  unfold next Before
  split
  · exact .inl (Nat.lt_succ_self _)
  · exact .inr ⟨rfl, Nat.lt_succ_self _⟩

/-- Text only leads on from a place. -/
theorem not_before_of_past (chars : List Char) (h : ¬ second.Before (first.past chars)) :
    ¬ second.Before first := by
  induction chars generalizing first with
  | nil => exact h
  | cons char chars ih => exact fun hbefore => ih h (hbefore.trans (before_next first char))

end Position

namespace Scan

/-! ## Clearing places -/

/-- The text that begins at a place, with a space in each of the places. -/
def clearAt (places : List Position) : Position → List Char → List Char
  | _, [] => []
  | position, char :: rest =>
      (if position ∈ places then ' ' else char) :: clearAt places (position.next char) rest

/-- The text with a space in the place of each stray character. -/
def cleared (text : String) : String :=
  String.ofList (clearAt ((strays text).map Prod.snd) .start text.toList)

section Places

variable {places : List Position} {position : Position} {char : Char} {rest : List Char}

theorem clearAt_of_mem (h : position ∈ places) :
    clearAt places position (char :: rest) = ' ' :: clearAt places (position.next char) rest := by
  rw [clearAt, if_pos h]

theorem clearAt_of_not_mem (h : position ∉ places) :
    clearAt places position (char :: rest) = char :: clearAt places (position.next char) rest := by
  rw [clearAt, if_neg h]

/-- Where none of the places is, the text stays. -/
theorem clearAt_append (kept : List Char)
    (h : ∀ place ∈ places, place.Before position ∨ ¬ place.Before (position.past kept)) :
    clearAt places position (kept ++ rest) = kept ++ clearAt places (position.past kept) rest := by
  induction kept generalizing position with
  | nil => rfl
  | cons char kept ih =>
      have hnot : position ∉ places := by
        intro hmem
        rcases h position hmem with hbefore | hnot
        · exact position.not_before_self hbefore
        · exact Position.not_before_of_past kept hnot (position.before_next char)
      have hmore := ih fun place hmem =>
        (h place hmem).imp_left fun hbefore => hbefore.trans (position.before_next char)
      rw [List.cons_append, clearAt_of_not_mem hnot, hmore]
      rfl

theorem begins_clearAt (places : List Position) (position : Position) (rest : List Char) :
    Begins (clearAt places position rest) rest := by
  induction rest generalizing position with
  | nil => exact .nil
  | cons char rest ih =>
      by_cases hmem : position ∈ places
      · rw [clearAt_of_mem hmem]
        exact .blank rfl
      · rw [clearAt_of_not_mem hmem]
        exact .cons (ih _)

end Places

/-! ## Places of stray characters -/

section Lexes

variable {position : Position} {text : List Char} {items : List Item}

theorem Lexes.not_before (h : Lexes position text items) :
    ∀ place ∈ (straysOf items).map Prod.snd, ¬ place.Before position := by
  induction h with
  | done => simp [straysOf]
  | @blank position char _ _ _ _ ih =>
      exact fun place hplace => Position.not_before_of_past [char] (ih place hplace)
  | @token position char text lexeme rest kind items _ _ _ _ ih =>
      exact fun place hplace => Position.not_before_of_past lexeme (ih place hplace)
  | @stray position char rest items _ _ _ ih =>
      intro place hplace
      rcases List.mem_cons.mp hplace with rfl | hplace
      · exact place.not_before_self
      · exact Position.not_before_of_past [char] (ih place hplace)

/-- Behind a place `first`, the places are those of the stray characters. -/
def Marks (places : List Position) (first : Position) (items : List Item) : Prop :=
  ∀ place, ¬ place.Before first → (place ∈ places ↔ place ∈ (straysOf items).map Prod.snd)

theorem Marks.not_mem_of_blank {places : List Position} {char : Char} {rest : List Char}
    (hmarks : Marks places position items) (h : Lexes position (char :: rest) items)
    (hblank : Text.isBlank char = true) : position ∉ places := by
  rw [hmarks position position.not_before_self]
  have hrest := h.of_blank hblank
  exact fun hmem => hrest.not_before position hmem (position.before_next char)

/-! ## Scanning -/

theorem Lexes.replaces_clearAt {rest lexeme : List Char} {kind : Kind}
    {places : List Position}
    (hlexeme : Lexeme text kind lexeme) (htext : text = lexeme ++ rest)
    (hmarks : Marks places position items) (h : Lexes position rest items) :
    Replaces kind rest (clearAt places position rest) where
  begins _ := (begins_clearAt places position rest).prefix_of
  ends hrest := by rw [hrest, clearAt]
  newline hline := by
    subst hline
    cases rest with
    | nil => simp [clearAt]
    | cons char rest =>
        obtain rfl : char = '\n' := hlexeme.newline_behind htext
        rw [clearAt_of_not_mem (hmarks.not_mem_of_blank h rfl)]
        simp

theorem Lexes.clearAt (h : Lexes position text items) {places : List Position}
    (hmarks : Marks places position items) :
    Lexes position (clearAt places position text) ((tokensOf items).map .token) := by
  induction h with
  | done => exact .done
  | @blank position char rest items hblank hrest ih =>
      have hnot := hmarks.not_mem_of_blank (.blank hblank hrest) hblank
      rw [clearAt_of_not_mem hnot]
      exact .blank hblank (ih fun place hplace =>
        hmarks place (Position.not_before_of_past [char] hplace))
  | @stray position char rest items hblank hnone hrest ih =>
      have hmem : position ∈ places := by
        rw [hmarks position position.not_before_self]
        exact List.mem_cons_self
      have hnext : position.next ' ' = position.next char := by
        have hnewline : char ≠ '\n' := by
          rintro rfl
          cases hblank
        simp [Position.next, hnewline]
      -- behind this character its own place does not count any more
      have hmarks : Marks places (position.next char) items := by
        intro place hplace
        rw [hmarks place (Position.not_before_of_past [char] hplace)]
        refine List.mem_cons.trans (or_iff_right ?_)
        rintro rfl
        exact hplace (place.before_next char)
      rw [clearAt_of_mem hmem]
      exact .blank rfl (hnext ▸ ih hmarks)
  | @token position char text lexeme rest kind items hblank hlexeme htext hrest ih =>
      -- none of the places is inside of the lexeme, so the lexeme stays
      have hplaces : ∀ place ∈ places,
          place.Before position ∨ ¬ place.Before (position.past lexeme) := by
        intro place hplace
        rw [Decidable.or_iff_not_imp_left]
        intro hnot
        exact hrest.not_before place ((hmarks place hnot).mp hplace)
      have hbehind : Marks places (position.past lexeme) items := fun place hplace =>
        hmarks place (Position.not_before_of_past lexeme hplace)
      have hreplaces := hrest.replaces_clearAt hlexeme htext hbehind
      have hne : lexeme ≠ [] := cut?_lexeme_ne_nil (cut?_eq_some_iff.mpr ⟨hlexeme, htext⟩)
      obtain ⟨first, others, rfl⟩ := List.exists_cons_of_ne_nil hne
      have hbefore := hlexeme.before htext hreplaces
      obtain ⟨rfl, rfl⟩ := List.cons.inj htext
      rw [htext, clearAt_append _ hplaces]
      exact .token hblank hbefore rfl (ih hbehind)

theorem tokensOf_map_token (found : List Token) : tokensOf (found.map .token) = found := by
  rw [tokensOf, List.filterMap_map]
  exact List.filterMap_some

theorem straysOf_map_token (found : List Token) : straysOf (found.map .token) = [] := by
  rw [straysOf, List.filterMap_map, List.filterMap_eq_nil_iff]
  exact fun _ _ => rfl

/--
With a space in the place of every stray character, a text has the tokens it had, so
their analysis has the result it had, and no stray characters.
-/
theorem cleared_scans (text : String) :
    tokens (cleared text) = tokens text ∧ strays (cleared text) = [] ∧
      Analysis.analyze (tokens (cleared text)) = Analysis.analyze (tokens text) := by
  have hmarks : Marks ((strays text).map Prod.snd) .start (items text) := fun _ _ => Iff.rfl
  have hcleared := (lexes_itemsAfter .start text.toList).clearAt hmarks
  have hitems : items (cleared text) = (tokens text).map .token := by
    rw [eq_comm, ← lexes_iff, cleared, String.toList_ofList]
    exact hcleared
  have htokens : tokens (cleared text) = tokens text := by
    rw [tokens, hitems, tokensOf_map_token]
  refine ⟨htokens, ?_, by rw [htokens]⟩
  rw [strays, hitems, straysOf_map_token]

example : cleared "''a' 1é % x" = " 'a' 1    x" := by
  decide +kernel

end Lexes

end Scan

end Classlet
