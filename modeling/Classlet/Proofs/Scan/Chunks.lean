import Classlet.Proofs.Scan.Layout
import Classlet.Proofs.Scan.Surroundings

/-!
# Chunks

A text that ends in a newline can be scanned before what follows it is known, as long
as no literal or block comment is left open at its end.  No lexeme but these goes over a
newline, and none looks further than to the next blank.  What follows is scanned as a
text of its own, so many lines further down.
-/

namespace Classlet

/-! ## Lines further down -/

/-- The place so many lines further down. -/
def Position.down (lines : Nat) (position : Position) : Position :=
  ⟨position.line + lines, position.column⟩

def Token.down (lines : Nat) (token : Token) : Token :=
  { token with position := token.position.down lines }

theorem Position.next_down (lines : Nat) (position : Position) (char : Char) :
    (position.down lines).next char = (position.next char).down lines := by
  unfold next down
  split
  · exact congrArg (Position.mk · 1) (Nat.add_right_comm _ _ _)
  · rfl

theorem Position.past_down (lines : Nat) (position : Position) (chars : List Char) :
    (position.down lines).past chars = (position.past chars).down lines := by
  induction chars generalizing position with
  | nil => rfl
  | cons char chars ih => rw [past_cons, past_cons, next_down, ih]

namespace Scan

def Item.down (lines : Nat) : Item → Item
  | token found => .token (found.down lines)
  | stray char position => .stray char (position.down lines)

section Down

variable (lines : Nat) (items : List Item)

theorem tokensOf_down :
    tokensOf (items.map (Item.down lines)) = (tokensOf items).map (Token.down lines) := by
  rw [tokensOf, tokensOf, List.filterMap_map, List.map_filterMap]
  congr 1
  funext item
  cases item <;> rfl

theorem straysOf_down :
    straysOf (items.map (Item.down lines)) =
      (straysOf items).map (Prod.map id (Position.down lines)) := by
  rw [straysOf, straysOf, List.filterMap_map, List.map_filterMap]
  congr 1
  funext item
  cases item <;> rfl

variable {items}

/-- Where a text begins only shows in the places. -/
theorem Lexes.down {position : Position} {text : List Char}
    (h : Lexes position text items) :
    Lexes (position.down lines) text (items.map (Item.down lines)) := by
  induction h with
  | done => exact .done
  | blank hblank _ ih =>
      rw [← Position.next_down] at ih
      exact .blank hblank ih
  | token hblank hlexeme hrest _ ih =>
      rw [← Position.past_down] at ih
      exact .token hblank hlexeme hrest ih
  | stray hblank hnone _ ih =>
      rw [← Position.next_down] at ih
      exact .stray hblank hnone ih

end Down

/-! ## Open literals and comments -/

/-- How the literals and comments begin and end that may go over a newline. -/
def delimiters? : Kind → Option (List Char × List Char)
  | .stringLiteral => some (['"'], ['"'])
  | .charLiteral => some (['\''], ['\''])
  | .comment .block => some (['/', '*'], ['*', '/'])
  | _ => none

/-- The token is a literal or block comment, and nothing in it closes it. -/
def LeftOpen (token : Token) : Prop :=
  ∃ opening closing run, delimiters? token.kind = some (opening, closing) ∧
    token.lexeme.toList = opening ++ run ∧ ¬ closing <:+: run

theorem delimiters?_of_not_text {kind : Kind} (h : isText kind = false) :
    delimiters? kind = none := by
  cases kind <;> first | rfl | cases h

theorem closing_of_delimiters? {kind : Kind} {opening closing : List Char}
    (h : delimiters? kind = some (opening, closing)) :
    ∃ char ∈ closing.getLast?, char ≠ '\n' := by
  unfold delimiters? at h
  split at h <;> cases h <;> simp

section Lexeme

variable {text lexeme rest : List Char} {kind : Kind}

theorem Lexeme.delimited (h : Lexeme text kind lexeme) {opening closing : List Char}
    (hkind : delimiters? kind = some (opening, closing)) :
    ∃ behind run, text = opening ++ behind ∧ lexeme = opening ++ run ∧
      Through closing behind run := by
  have hnone (hplain : isText kind = false) : False := by
    rw [delimiters?_of_not_text hplain] at hkind
    cases hkind
  cases h with
  | word => exact (hnone (isText_of_word _)).elim
  | number | lineComment => cases hkind
  | pair _ hsymbol | mark _ _ hsymbol =>
      exact (hnone (symbols_no_text _ (mem_symbols hsymbol))).elim
  | string hrun | char _ hrun | blockComment hrun =>
      cases hkind
      exact ⟨_, _, rfl, rfl, hrun⟩

/-- What is open takes the rest of the text. -/
theorem Lexeme.rest_of_leftOpen {position : Position} (h : Lexeme text kind lexeme)
    (htext : text = lexeme ++ rest) (hopen : LeftOpen ⟨kind, String.ofList lexeme, position⟩) :
    rest = [] := by
  obtain ⟨opening, closing, run, hkind, hlexeme, hnone⟩ := hopen
  obtain ⟨behind, taken, rfl, rfl, hrun⟩ := h.delimited hkind
  obtain rfl : taken = run := by simpa using hlexeme
  rcases hrun with ⟨before, after, -, rfl, -⟩ | ⟨-, rfl⟩
  · exact absurd ⟨before, [], List.append_nil _⟩ hnone
  · simpa using htext

theorem isText_undelimited (htext : isText kind = true) (h : delimiters? kind = none) :
    kind = .comment .line := by
  unfold isText at htext
  split at htext
  case h_3 style =>
    cases style with
    | line => rfl
    | block => cases h
  all_goals first | cases h | cases htext

/-- Only what is open ends in a newline. -/
theorem Lexeme.leftOpen_of_newline (h : Lexeme text kind lexeme)
    (hlast : lexeme.getLast? = some '\n') (position : Position) :
    LeftOpen ⟨kind, String.ofList lexeme, position⟩ := by
  have hmem : '\n' ∈ lexeme := List.mem_of_getLast? hlast
  cases hkind : delimiters? kind with
  | none =>
      cases htext : isText kind with
      | false => cases h.not_blank htext '\n' hmem
      | true =>
          obtain rfl := isText_undelimited htext hkind
          obtain ⟨rest, run, -, rfl, hnone, -⟩ := h.line
          simp [hnone] at hmem
  | some delimiters =>
      obtain ⟨opening, closing⟩ := delimiters
      obtain ⟨char, hchar, hnewline⟩ := closing_of_delimiters? hkind
      obtain ⟨behind, run, rfl, rfl, hrun⟩ := h.delimited hkind
      refine ⟨opening, closing, run, hkind, String.toList_ofList, ?_⟩
      rcases hrun with ⟨before, after, -, rfl, -⟩ | ⟨hnone, rfl⟩
      · rw [List.getLast?_append, List.getLast?_append, Option.mem_def.mp hchar] at hlast
        exact absurd (Option.some.inj hlast) hnewline
      · exact hnone

end Lexeme

/-! ## A text and the next one -/

/-- The text is empty or ends in a newline. -/
def Lined (text : List Char) : Prop :=
  ∀ char ∈ text.getLast?, char = '\n'

section Append

variable {position : Position} {front text rest : List Char} {items : List Item}
  {kind : Kind}

theorem Lined.behind (h : Lined (front ++ rest)) : Lined rest := by
  intro char hchar
  refine h char ?_
  rw [List.getLast?_append, Option.mem_def.mp hchar]
  rfl

theorem Lined.tail {char : Char} (h : Lined (char :: rest)) : Lined rest :=
  behind (show Lined ([char] ++ rest) from h)

theorem Lined.getLast? (h : Lined rest) (hne : rest ≠ []) : rest.getLast? = some '\n' := by
  have hlast := List.getLast?_eq_some_getLast hne
  rw [hlast, h _ hlast]

theorem replaces_append (hlast : rest.getLast? = some '\n')
    (hline : kind = .comment .line → ∀ char ∈ rest.head?, char = '\n') (more : List Char) :
    Replaces kind rest (rest ++ more) := by
  have hmem : '\n' ∈ rest := List.mem_of_getLast? hlast
  have hne : rest ≠ [] := List.ne_nil_of_mem hmem
  refine ⟨fun run hrun hbegins => ?_, fun hnothing => absurd hnothing hne, ?_⟩
  · rcases List.prefix_or_prefix_of_prefix hbegins (List.prefix_append rest more) with h | h
    · exact h
    · cases hrun '\n' (h.subset hmem)
  · obtain ⟨first, others, rfl⟩ := List.exists_cons_of_ne_nil hne
    exact hline

/-- The last of the tokens does not end in a newline. -/
def Closed (tokens : List Token) : Prop :=
  ∀ token ∈ tokens.getLast?, token.lexeme.toList.getLast? ≠ some '\n'

instance : DecidablePred Closed := fun tokens =>
  inferInstanceAs (Decidable (∀ token ∈ tokens.getLast?, _))

theorem Closed.tail {token : Token} {tokens : List Token} (h : Closed (token :: tokens)) :
    Closed tokens := by
  intro last hlast
  refine h last ?_
  rw [List.getLast?_cons, Option.mem_def.mp hlast]
  rfl

theorem Lexeme.rest_ne_nil {lexeme : List Char} (h : Lexeme text kind lexeme)
    (htext : text = lexeme ++ rest) (hlined : Lined text) {place : Position}
    (hrest : Lexes position rest items)
    (hclosed : Closed (⟨kind, String.ofList lexeme, place⟩ :: tokensOf items)) : rest ≠ [] := by
  rintro rfl
  cases hrest
  have hne : lexeme ≠ [] := cut?_lexeme_ne_nil (cut?_eq_some_iff.mpr ⟨h, htext⟩)
  rw [htext, List.append_nil] at hlined
  refine hclosed ⟨kind, String.ofList lexeme, place⟩ rfl ?_
  rw [String.toList_ofList]
  exact hlined.getLast? hne

theorem Lexes.append {more : List Char} {others : List Item} (h : Lexes position text items)
    (hlined : Lined text) (hclosed : Closed (tokensOf items))
    (hmore : Lexes (position.past text) more others) :
    Lexes position (text ++ more) (items ++ others) := by
  induction h with
  | done => exact hmore
  | blank hblank _ ih => exact .blank hblank (ih hlined.tail hclosed hmore)
  | @stray position char rest items hblank hnone _ ih =>
      have hne : rest ≠ [] := by
        rintro rfl
        rw [hlined char rfl] at hblank
        cases hblank
      refine .stray hblank (stray_of_head? (fun _ hchar => ?_) hnone)
        (ih hlined.tail hclosed hmore)
      obtain ⟨first, others, rfl⟩ := List.exists_cons_of_ne_nil hne
      exact .inl hchar
  | @token position char text lexeme rest kind items hblank hlexeme htext hrest ih =>
      have hne : rest ≠ [] := hlexeme.rest_ne_nil htext hlined hrest hclosed
      rw [htext] at hlined
      -- the rest ends in a blank, and a lexeme depends on nothing behind that
      have hreplaces : Replaces kind rest (rest ++ more) := by
        refine replaces_append (hlined.behind.getLast? hne) (fun hline next hnext => ?_) more
        subst hline
        obtain ⟨others, rfl⟩ := List.head?_eq_some_iff.mp hnext
        exact hlexeme.newline_behind htext
      have hbefore := hlexeme.before htext hreplaces
      have hcut : char :: (text ++ more) = lexeme ++ (rest ++ more) := by
        rw [← List.append_assoc, ← htext, List.cons_append]
      rw [htext, Position.past_append] at hmore
      rw [← hcut] at hbefore
      exact .token hblank hbefore hcut (ih hlined.behind hclosed.tail hmore)

/-- Where the last token does not end in a newline, no token is open. -/
theorem Lexes.not_leftOpen (h : Lexes position text items) (hlined : Lined text)
    (hclosed : Closed (tokensOf items)) : ∀ token ∈ tokensOf items, ¬ LeftOpen token := by
  induction h with
  | done => simp [tokensOf]
  | blank _ _ ih | stray _ _ _ ih => exact ih hlined.tail hclosed
  | @token position char text lexeme rest kind items _ hlexeme htext hrest ih =>
      have hne : rest ≠ [] := hlexeme.rest_ne_nil htext hlined hrest hclosed
      rw [htext] at hlined
      refine List.forall_mem_cons.mpr ⟨fun hopen => ?_, ih hlined.behind hclosed.tail⟩
      exact hne (hlexeme.rest_of_leftOpen htext hopen)

theorem Lexes.leftOpen_of_newline (h : Lexes position text items) :
    ∀ token ∈ tokensOf items, token.lexeme.toList.getLast? = some '\n' → LeftOpen token := by
  induction h with
  | done => simp [tokensOf]
  | blank _ _ ih | stray _ _ _ ih => exact ih
  | @token position char text lexeme rest kind items _ hlexeme _ _ ih =>
      refine List.forall_mem_cons.mpr ⟨fun hlast => ?_, ih⟩
      exact hlexeme.leftOpen_of_newline (by simpa using hlast) position

end Append

/-! ## Texts -/

section Texts

variable {front : String}

theorem lined_iff :
    Lined front.toList ↔ front = "" ∨ front.toList.getLast? = some '\n' := by
  constructor
  · intro h
    by_cases hne : front.toList = []
    · exact .inl (String.toList_eq_nil_iff.mp hne)
    · exact .inr (h.getLast? hne)
  · rintro (rfl | hlast) char hchar
    · cases hchar
    · rw [hlast] at hchar
      exact (Option.some.inj hchar).symm

/-- A text that ends in a newline ends at the beginning of a line. -/
theorem past_of_lined (h : Lined front.toList) :
    Position.start.past front.toList = .down (front.toList.count '\n') .start := by
  have hfirst : (front.toList.reverse.takeWhile (· ≠ '\n')) = [] := by
    cases hreverse : front.toList.reverse with
    | nil => rfl
    | cons last others =>
        have hlast : front.toList.getLast? = some last := by
          rw [List.getLast?_eq_head?_reverse, hreverse]
          rfl
        simp [h last hlast]
  rw [← placeAfter_nil, past_placeAfter, List.nil_append, placeAfter, hfirst]
  rfl

theorem items_append (hlined : Lined front.toList) (hclosed : Closed (tokens front))
    (more : String) :
    items (front ++ more) =
      items front ++ (items more).map (Item.down (front.toList.count '\n')) := by
  have hmore := (lexes_itemsAfter .start more.toList).down (front.toList.count '\n')
  rw [← past_of_lined hlined] at hmore
  rw [eq_comm, ← lexes_iff, String.toList_append]
  exact (lexes_itemsAfter .start front.toList).append hlined hclosed hmore

theorem not_leftOpen_of_closed (hlined : Lined front.toList)
    (hclosed : Closed (tokens front)) :
    ∀ token ∈ tokens front, ¬ LeftOpen token :=
  (lexes_itemsAfter .start front.toList).not_leftOpen hlined hclosed

theorem closed_of_not_leftOpen (h : ∀ token ∈ tokens front, ¬ LeftOpen token) :
    Closed (tokens front) := by
  intro token hlast hnewline
  have hmem : token ∈ tokens front := List.mem_of_getLast? hlast
  exact h token hmem
    ((lexes_itemsAfter .start front.toList).leftOpen_of_newline token hmem hnewline)

end Texts

end Scan

end Classlet
