import Classlet.Proofs.Scan.Lexing

/-!
# The layout of a text

A text is its items with blanks in between, and the place of an item tells how
many lines, and how many characters of the last line, stand before it.  The
invariant is that a scanner which has passed over `before` stands at
`placeAfter before`.
-/

namespace Classlet.Scan

/-! ## Places -/

/-- One plus the newlines before, and one plus the characters since the last of them. -/
def placeAfter (before : List Char) : Position :=
  ⟨1 + before.count '\n', 1 + (before.reverse.takeWhile (· ≠ '\n')).length⟩

theorem placeAfter_nil : placeAfter [] = .start := rfl

theorem next_placeAfter (before : List Char) (char : Char) :
    (placeAfter before).next char = placeAfter (before ++ [char]) := by
  unfold Position.next placeAfter
  split
  · rename_i hnewline
    simp [hnewline]
    omega
  · rename_i hother
    simp [hother]
    omega

theorem past_placeAfter (before chars : List Char) :
    (placeAfter before).past chars = placeAfter (before ++ chars) := by
  induction chars generalizing before with
  | nil => simp
  | cons char chars ih => rw [Position.past_cons, next_placeAfter, ih, List.append_assoc]; rfl

/-! ## Items in their text -/

namespace Item

def chars : Item → List Char
  | token found => found.lexeme.toList
  | stray char _ => [char]

def position : Item → Position
  | token found => found.position
  | stray _ position => position

end Item

/--
Behind `before`, the text consists of blanks, the first item, blanks, the second
item, and so on, and ends in blanks.  Each item has a character, does not begin
with a blank, and knows its place.
-/
inductive LaidOut : (before text : List Char) → List Item → Prop where
  | nil {before gap : List Char} (hgap : ∀ char ∈ gap, Text.isBlank char = true) :
      LaidOut before gap []
  | cons (gap : List Char) {before rest : List Char} {item : Item} {items : List Item}
      (hgap : ∀ char ∈ gap, Text.isBlank char = true) (hne : item.chars ≠ [])
      (hfirst : ∀ char ∈ item.chars.head?, Text.isBlank char = false)
      (hposition : item.position = placeAfter (before ++ gap))
      (hrest : LaidOut (before ++ gap ++ item.chars) rest items) :
      LaidOut before (gap ++ item.chars ++ rest) (item :: items)

/-- A blank more in front of a text belongs to its first gap. -/
theorem LaidOut.blank {before text : List Char} {items : List Item} {char : Char}
    (hblank : Text.isBlank char = true) (h : LaidOut (before ++ [char]) text items) :
    LaidOut before (char :: text) items := by
  cases h with
  | nil hgap => exact .nil (List.forall_mem_cons.mpr ⟨hblank, hgap⟩)
  | cons gap hgap hne hfirst hposition hrest =>
      have hmore : ∀ other ∈ char :: gap, Text.isBlank other = true :=
        List.forall_mem_cons.mpr ⟨hblank, hgap⟩
      have hjoin : before ++ [char] ++ gap = before ++ (char :: gap) := by simp
      rw [hjoin] at hposition hrest
      exact .cons (char :: gap) hmore hne hfirst hposition hrest

theorem LaidOut.item {before rest : List Char} {item : Item} {items : List Item}
    (hne : item.chars ≠ []) (hfirst : ∀ char ∈ item.chars.head?, Text.isBlank char = false)
    (hposition : item.position = placeAfter before)
    (hrest : LaidOut (before ++ item.chars) rest items) :
    LaidOut before (item.chars ++ rest) (item :: items) := by
  have hcons : LaidOut before ([] ++ item.chars ++ rest) (item :: items) :=
    .cons [] (by simp) hne hfirst (by simpa using hposition) (by simpa using hrest)
  exact hcons

/-! ## Scanning -/

theorem Lexes.laidOut {position : Position} {text : List Char} {items : List Item}
    (h : Lexes position text items) {before : List Char}
    (hposition : position = placeAfter before) :
    LaidOut before text items := by
  induction h generalizing before with
  | done => exact .nil (by simp)
  | @blank position char rest items hblank _ ih =>
      have hnext : position.next char = placeAfter (before ++ [char]) := by
        rw [hposition, next_placeAfter]
      exact .blank hblank (ih hnext)
  | @stray position char rest items hblank _ _ ih =>
      have hnext : position.next char = placeAfter (before ++ [char]) := by
        rw [hposition, next_placeAfter]
      let item : Item := .stray char position
      have hfirst : ∀ other ∈ item.chars.head?, Text.isBlank other = false := by
        simpa [item, Item.chars] using hblank
      have hne : item.chars ≠ [] := List.cons_ne_nil char []
      exact .item hne hfirst hposition (ih hnext)
  | @token position char text lexeme rest kind items hblank hlexeme hrest _ ih =>
      have hpast : position.past lexeme = placeAfter (before ++ lexeme) := by
        rw [hposition, past_placeAfter]
      have hne : lexeme ≠ [] := cut?_lexeme_ne_nil (cut?_eq_some_iff.mpr ⟨hlexeme, hrest⟩)
      have hfirst : ∀ other ∈ lexeme.head?, Text.isBlank other = false := by
        obtain ⟨first, others, rfl⟩ := List.exists_cons_of_ne_nil hne
        cases hrest
        simpa using hblank
      let item : Item := .token ⟨kind, String.ofList lexeme, position⟩
      have hchars : item.chars = lexeme := String.toList_ofList
      have hafter := ih hpast
      have hitem : LaidOut before (item.chars ++ rest) (item :: items) :=
        .item (by rwa [hchars]) (by rwa [hchars]) hposition (by rwa [hchars])
      rw [hchars] at hitem
      rw [hrest]
      exact hitem

/-- An item stands where its place says, and begins with no blank. -/
theorem LaidOut.exists_place {before text : List Char} {items : List Item} {item : Item}
    (h : LaidOut before text items) (hmem : item ∈ items) :
    ∃ ahead behind char rest, before ++ text = ahead ++ item.chars ++ behind ∧
      item.position = placeAfter ahead ∧ item.chars = char :: rest ∧
      Text.isBlank char = false := by
  induction h with
  | nil => cases hmem
  | @cons gap before rest first items hgap hne hfirst hposition hrest ih =>
      cases hmem with
      | head =>
          obtain ⟨char, chars, hchars⟩ := List.exists_cons_of_ne_nil hne
          exact ⟨before ++ gap, rest, char, chars, by simp, hposition, hchars,
            hfirst char (by rw [hchars]; rfl)⟩
      | tail _ hmem =>
          obtain ⟨ahead, behind, char, chars, htext, hitem⟩ := ih hmem
          exact ⟨ahead, behind, char, chars, by simpa using htext, hitem⟩

theorem exists_place_of_mem_tokens {text : String} {found : Token}
    (h : found ∈ tokens text) :
    ∃ ahead behind char rest, text.toList = ahead ++ found.lexeme.toList ++ behind ∧
      found.position = placeAfter ahead ∧ found.lexeme.toList = char :: rest ∧
      Text.isBlank char = false := by
  obtain ⟨item, hmem, hfound⟩ := List.mem_filterMap.mp h
  have hlaid : LaidOut [] text.toList (items text) :=
    (lexes_itemsAfter .start text.toList).laidOut placeAfter_nil.symm
  cases item with
  | token other =>
      cases hfound
      exact hlaid.exists_place hmem
  | stray => cases hfound

def Scanner.after (scanner : Scanner) : Nat → Scanner
  | 0 => scanner
  | runs + 1 => (scanner.after runs).run.2

theorem Scanner.rest_after_succ (scanner : Scanner) (runs : Nat) :
    (scanner.after (runs + 1)).rest = [] := by
  rw [after, run, scanAfter_scanner]

/--
A text is made of blanks, the tokens and the stray characters that scanning it
returns, each of these in order and with its place.  Scanning on finds nothing.
-/
theorem scan_layout (text : String) :
    (∃ found, LaidOut [] text.toList found ∧ tokens text = tokensOf found ∧
      strays text = straysOf found) ∧
    ∀ runs, ((Scanner.ofText text).after (runs + 1)).run.1 = [] := by
  constructor
  · have hlexes := lexes_itemsAfter .start text.toList
    exact ⟨items text, hlexes.laidOut placeAfter_nil.symm, rfl, rfl⟩
  · intro runs
    have hrest := Scanner.rest_after_succ (Scanner.ofText text) runs
    rw [Scanner.run, hrest, scanAfter]

end Classlet.Scan
