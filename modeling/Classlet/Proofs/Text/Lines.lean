import Classlet.Text.Lines
import Mathlib.Data.List.Basic
import Mathlib.Data.List.TakeWhile

/-!
# Lines of a text

Which lines a text has.  A line is told by what stands before and behind it; every
character that belongs to no line end stands in one, and the newlines before it say
which one it is.
-/

namespace Classlet.Text

/-- What may stand behind a line: nothing, or a line end none of which is in the line. -/
inductive EndsLine : (line below : List Char) → Prop where
  | last {line : List Char} : EndsLine line []
  | newline {line below : List Char} (h : line.getLast? ≠ some '\r') :
      EndsLine line ('\n' :: below)
  | returned {line below : List Char} : EndsLine line ('\r' :: '\n' :: below)

/-- Between `above` and `below` stands a line. -/
structure IsLine (above line below : List Char) : Prop where
  begins : above = [] ∨ above.getLast? = some '\n'
  inside : '\n' ∉ line
  ends : EndsLine line below

/-- A character before `after` that is part of no line end. -/
structure Inline (char : Char) (after : List Char) : Prop where
  newline : char ≠ '\n'
  returned : char = '\r' → after.head? ≠ some '\n'

variable {above line below before after rest : List Char} {char next : Char}

theorem Inline.linesOf_cons (h : Inline char after) :
    linesOf (char :: after) = extend char (linesOf after) := by
  refine linesOf.eq_4 char after (fun below hchar hafter => ?_) h.newline
  exact h.returned hchar (by rw [hafter]; rfl)

/-! ## The line of a character -/

theorem endsLine_append (front : List Char) :
    EndsLine (front ++ char :: rest) below ↔ EndsLine (char :: rest) below := by
  have hlast : (front ++ char :: rest).getLast? = (char :: rest).getLast? :=
    List.getLast?_append_of_ne_nil front (List.cons_ne_nil char rest)
  constructor
  all_goals
    intro h
    cases h with
    | last => exact .last
    | newline h => exact .newline (by simpa only [hlast] using h)
    | returned => exact .returned

/-- The rest of the line of a character, and what stands behind that line. -/
theorem Inline.exists_rest (h : Inline char after) :
    ∃ rest below, after = rest ++ below ∧ '\n' ∉ char :: rest ∧ EndsLine (char :: rest) below := by
  induction after generalizing char with
  | nil => exact ⟨[], [], rfl, by simpa using h.newline.symm, .last⟩
  | cons next after ih =>
      have hsingle : '\n' ∉ [char] := by simpa using h.newline.symm
      by_cases hnewline : next = '\n'
      · refine ⟨[], next :: after, rfl, hsingle, hnewline ▸ .newline ?_⟩
        intro hreturn
        exact h.returned (by simpa using hreturn) (by rw [hnewline]; rfl)
      · by_cases hreturned : next = '\r' ∧ after.head? = some '\n'
        · obtain ⟨rfl, hhead⟩ := hreturned
          obtain ⟨below, rfl⟩ := List.head?_eq_some_iff.mp hhead
          exact ⟨[], _, rfl, hsingle, .returned⟩
        · have hnext : Inline next after := ⟨hnewline, fun hsame hhead => hreturned ⟨hsame, hhead⟩⟩
          obtain ⟨rest, below, rfl, hinside, hends⟩ := ih hnext
          exact ⟨next :: rest, below, rfl, by simp_all, (endsLine_append [char]).mpr hends⟩

/-- A character that is part of no line end stands in a line. -/
theorem Inline.exists_line (h : Inline char after) (before : List Char) :
    ∃ above start rest below, before = above ++ start ∧ after = rest ++ below ∧
      start.length = (before.reverse.takeWhile (· ≠ '\n')).length ∧
      IsLine above (start ++ char :: rest) below := by
  obtain ⟨rest, below, hafter, hinside, hends⟩ := h.exists_rest
  let start := (before.reverse.takeWhile (· ≠ '\n')).reverse
  let above := (before.reverse.dropWhile (· ≠ '\n')).reverse
  have hbefore : before = above ++ start := by
    rw [← List.reverse_append, List.takeWhile_append_dropWhile, List.reverse_reverse]
  have hstart : '\n' ∉ start := by
    intro hmem
    have hkept := List.mem_takeWhile_imp (List.mem_reverse.mp hmem)
    simp at hkept
  have hbegins : above = [] ∨ above.getLast? = some '\n' := by
    cases hdropped : before.reverse.dropWhile (· ≠ '\n') with
    | nil => exact .inl (by simp only [above, hdropped, List.reverse_nil])
    | cons first others =>
        have hfirst := List.head?_dropWhile_not (· ≠ '\n') before.reverse
        rw [hdropped] at hfirst
        have hnewline : first = '\n' := by simpa using hfirst
        refine .inr ?_
        rw [List.getLast?_reverse, hdropped, hnewline, List.head?_cons]
  have hline : '\n' ∉ start ++ char :: rest := by simp_all
  exact ⟨above, start, rest, below, hbefore, hafter, List.length_reverse, hbegins, hline,
    (endsLine_append start).mpr hends⟩

/-! ## The number of a line -/

theorem inline_of_endsLine (hinside : '\n' ∉ char :: rest)
    (hends : EndsLine (char :: rest) below) :
    Inline char (rest ++ below) := by
  refine ⟨fun hsame => hinside (by simp [hsame]), fun hreturn hhead => ?_⟩
  cases rest with
  | cons next rest =>
      simp_all
  | nil =>
      cases hends with
      | last => cases hhead
      | newline hlast => exact hlast (by rw [hreturn]; rfl)
      | returned => cases hhead

/-- The first line is what stands before its end. -/
theorem exists_linesOf_eq (hinside : '\n' ∉ char :: rest)
    (hends : EndsLine (char :: rest) below) :
    ∃ others, linesOf (char :: (rest ++ below)) = (char :: rest) :: others := by
  rw [(inline_of_endsLine hinside hends).linesOf_cons]
  induction rest generalizing char with
  | nil =>
      cases hends with
      | last => exact ⟨[], rfl⟩
      | newline => exact ⟨_, rfl⟩
      | returned => exact ⟨_, rfl⟩
  | cons next rest ih =>
      have hmore : EndsLine (next :: rest) below := (endsLine_append [char]).mp hends
      have hnext : '\n' ∉ next :: rest := by simp_all
      obtain ⟨others, hothers⟩ := ih hnext hmore
      rw [List.cons_append, (inline_of_endsLine hnext hmore).linesOf_cons, hothers]
      exact ⟨others, rfl⟩

theorem begins_tail (h : char :: above = [] ∨ (char :: above).getLast? = some '\n') :
    above = [] ∨ above.getLast? = some '\n' := by
  cases above with
  | nil => exact .inl rfl
  | cons next above => simpa using h

theorem getElem?_extend {lines : List (List Char)} {index : Nat} (hpositive : 0 < index)
    (h : lines[index]? = some line) : (extend char lines)[index]? = some line := by
  cases lines with
  | nil => simp at h
  | cons first others =>
      obtain ⟨index, rfl⟩ := Nat.exists_eq_add_of_lt hpositive
      simpa [extend] using h

/-- Its number is the count of the newlines above. -/
theorem IsLine.linesOf_getElem? (h : IsLine above line below) (hne : line ≠ []) :
    (linesOf (above ++ (line ++ below)))[above.count '\n']? = some line := by
  obtain ⟨hbegins, hinside, hends⟩ := h
  obtain ⟨char, rest, rfl⟩ := List.exists_cons_of_ne_nil hne
  induction above using linesOf.induct with
  | case1 =>
      obtain ⟨others, hothers⟩ := exists_linesOf_eq hinside hends
      rw [List.nil_append, List.cons_append, hothers]
      rfl
  | case2 above ih =>
      have hmore := ih (begins_tail (begins_tail hbegins))
      simpa [linesOf] using hmore
  | case3 above ih =>
      have hmore := ih (begins_tail hbegins)
      simpa [linesOf] using hmore
  | case4 first above hreturned hnewline ih =>
      obtain ⟨next, above, rfl⟩ : ∃ next others, above = next :: others := by
        cases above with
        | nil => exact (hnewline (by simpa using hbegins)).elim
        | cons next above => exact ⟨next, above, rfl⟩
      have hlast : (next :: above).getLast? = some '\n' := by simpa using hbegins
      have hinline : Inline first (next :: above ++ (char :: rest ++ below)) :=
        ⟨hnewline, fun hsame hhead => hreturned above hsame (by simpa using hhead)⟩
      -- The newline at the end of `above` is still to come: only a line further up grows.
      have hpositive : 0 < (next :: above).count '\n' :=
        List.count_pos_iff.mpr (List.mem_of_getLast? hlast)
      rw [List.cons_append, hinline.linesOf_cons, List.count_cons_of_ne (fun h => hnewline h)]
      exact getElem?_extend hpositive (ih (.inr hlast))

end Classlet.Text
