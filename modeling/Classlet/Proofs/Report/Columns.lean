import Classlet.Console.Transcript
import Classlet.Proofs.Report.Marking
import Classlet.Report.TokenTable
import Mathlib.Data.List.Forall2

/-!
# The columns of a token table

A token table has one line for each token, whatever line breaks and tabs the lexemes
have, and under the heads of its columns stand the kinds and the lines of the tokens.
Only a lexeme that is longer than its column moves them, and only in its own row.
-/

namespace Classlet

namespace Text

/-! ## Texts of whole lines -/

theorem linesOf_append_newline {row : List Char} (hnewline : '\n' ∉ row)
    (hreturn : '\r' ∉ row)
    (more : List Char) : linesOf (row ++ '\n' :: more) = row :: linesOf more := by
  induction row with
  | nil => rw [List.nil_append, linesOf]
  | cons char row ih =>
      have hinline : Inline char (row ++ '\n' :: more) :=
        ⟨fun hsame => hnewline (by simp [hsame]), fun hsame => absurd (by simp [hsame]) hreturn⟩
      have hrest := ih (fun hmem => hnewline (List.mem_cons_of_mem _ hmem))
        fun hmem => hreturn (List.mem_cons_of_mem _ hmem)
      rw [List.cons_append, hinline.linesOf_cons, hrest, extend]

/-- The lines of a text are the rows it is made of, if they have no line end in them. -/
theorem linesOf_flatMap {rows : List (List Char)}
    (h : ∀ row ∈ rows, '\n' ∉ row ∧ '\r' ∉ row) :
    linesOf (rows.flatMap (· ++ ['\n'])) = rows := by
  induction rows with
  | nil => rfl
  | cons row rows ih =>
      obtain ⟨hnewline, hreturn⟩ := h row List.mem_cons_self
      have hmore := ih fun other hother => h other (List.mem_cons_of_mem _ hother)
      rw [List.flatMap_cons, List.append_assoc, List.singleton_append,
        linesOf_append_newline hnewline hreturn, hmore]

theorem toList_padRight (width : Nat) (text : String) :
    (padRight width text).toList =
      text.toList ++ List.replicate (width - text.length) ' ' := by
  simp [padRight, spaces]

end Text

namespace Report

open Console (Line Logging Transcript plain bold)

/-! ## Marks that break rows -/

/-- The text is on one line and has no tab stops. -/
def Unbroken (text : List Char) : Prop :=
  '\n' ∉ text ∧ '\r' ∉ text ∧ '\t' ∉ text

instance (text : List Char) : Decidable (Unbroken text) :=
  inferInstanceAs (Decidable ('\n' ∉ text ∧ '\r' ∉ text ∧ '\t' ∉ text))

theorem unbroken_of_forall {text : List Char}
    (h : ∀ char ∈ text, char ≠ '\n' ∧ char ≠ '\r' ∧ char ≠ '\t') : Unbroken text :=
  ⟨fun hmem => (h _ hmem).1 rfl, fun hmem => (h _ hmem).2.1 rfl, fun hmem => (h _ hmem).2.2 rfl⟩

theorem unbroken_append {front back : List Char} (hfront : Unbroken front)
    (hback : Unbroken back) : Unbroken (front ++ back) := by
  obtain ⟨hnewline, hreturn, htab⟩ := hfront
  obtain ⟨hnewline', hreturn', htab'⟩ := hback
  simp [Unbroken, *]

theorem unbroken_replicate (count : Nat) : Unbroken (List.replicate count ' ') := by
  simp [Unbroken, List.mem_replicate]

theorem unbroken_shownLexeme (lexeme : String) : Unbroken (shownLexeme lexeme).toList := by
  refine unbroken_of_forall fun char hchar => ?_
  rw [shownLexeme, String.toList_ofList, List.mem_flatMap] at hchar
  obtain ⟨original, _, hshown⟩ := hchar
  unfold shownChar at hshown
  split at hshown
  · cases hshown
  · rcases List.mem_pair.mp hshown with rfl | rfl <;> decide
  · rcases List.mem_pair.mp hshown with rfl | rfl <;> decide
  · rename_i hreturn hnewline htab
    rw [List.mem_singleton.mp hshown]
    exact ⟨hnewline, hreturn, htab⟩

theorem unbroken_number (number : Nat) : Unbroken (toString number).toList := by
  refine unbroken_of_forall fun char hchar => ?_
  have hdigits : (toString number).toList = Nat.toDigits 10 number :=
    String.toList_ofList
  rw [hdigits] at hchar
  have hdigit : char.isDigit = true :=
    Nat.isDigit_of_mem_toDigits (by decide) (by decide) hchar
  refine ⟨?_, ?_, ?_⟩ <;> rintro rfl <;> exact absurd hdigit (by decide)

/-- A kind's name fits its column and is on one line. -/
theorem kindName_fits (kind : Kind) :
    kind.name.length ≤ kindWidth ∧ Unbroken kind.name.toList := by
  cases kind with
  | type inner | word inner | access inner | binary inner | step inner | comment inner =>
      cases inner <;> decide
  | _ => decide

/-! ## Columns -/

/--
Cut at `secondAt` and `thirdAt` a row falls into three texts, the first two of which are
filled up with two or more blanks.
-/
structure Columns (first second third : List Char) (secondAt thirdAt : Nat)
    (row : List Char) : Prop where
  gap : first.length + 2 ≤ secondAt
  nextGap : secondAt + second.length + 2 ≤ thirdAt
  first : row.take secondAt = first ++ List.replicate (secondAt - first.length) ' '
  second : (row.take thirdAt).drop secondAt =
    second ++ List.replicate (thirdAt - secondAt - second.length) ' '
  third : row.drop thirdAt = third

/-- The width of the first column: that of the longest lexeme shown, from 6 to 40. -/
structure IsWidth (tokens : List Token) (width : Nat) : Prop where
  least : 6 ≤ width
  most : width ≤ 40
  fits : width < 40 → ∀ token ∈ tokens, (shownLexeme token.lexeme).length ≤ width
  filled : 6 < width → ∃ token ∈ tokens, width ≤ (shownLexeme token.lexeme).length

theorem toList_row (width : Nat) (first second third : String) :
    (row width first second third).toList =
      first.toList ++ List.replicate (width - first.length + 2) ' ' ++
        (second.toList ++ List.replicate (kindWidth - second.length + 2) ' ') ++
          third.toList := by
  have hblanks : "  ".toList = List.replicate 2 ' ' := rfl
  simp only [row, String.toList_append, Text.toList_padRight, hblanks, List.replicate_add,
    List.append_assoc]

theorem columns_row {second : String} (width : Nat) (first third : String)
    (hsecond : second.length ≤ kindWidth) :
    Columns first.toList second.toList third.toList (max width first.length + 2)
      (max width first.length + 24) (row width first second third).toList := by
  let start := first.toList ++ List.replicate (width - first.length + 2) ' '
  let middle := second.toList ++ List.replicate (kindWidth - second.length + 2) ' '
  have hrow : (row width first second third).toList = start ++ middle ++ third.toList :=
    toList_row ..
  have hstart : start.length = max width first.length + 2 := by
    simp only [start, List.length_append, List.length_replicate, String.length_toList]
    omega
  have hmiddle : (start ++ middle).length = max width first.length + 24 := by
    simp only [middle, kindWidth, List.length_append, List.length_replicate,
      String.length_toList, hstart] at hsecond ⊢
    omega
  have hgap : max width first.length + 2 - first.length = width - first.length + 2 := by
    omega
  have hnextGap : max width first.length + 24 - (max width first.length + 2) - second.length =
      kindWidth - second.length + 2 := by
    simp only [kindWidth] at hsecond ⊢
    omega
  simp only [kindWidth] at hsecond
  constructor
  · simp only [String.length_toList]
    omega
  · simp only [String.length_toList]
    omega
  · rw [hrow, List.append_assoc, List.take_left' hstart, String.length_toList, hgap]
  · rw [hrow, List.take_left' hmiddle, List.drop_left' hstart, String.length_toList, hnextGap]
  · rw [hrow, List.drop_left' hmiddle]

/-! ## The width of the first column -/

theorem foldr_max_le_iff {numbers : List Nat} {bound : Nat} :
    numbers.foldr max 0 ≤ bound ↔ ∀ number ∈ numbers, number ≤ bound := by
  induction numbers with
  | nil => simp
  | cons number numbers ih => simp only [List.foldr_cons, Nat.max_le, ih, List.forall_mem_cons]

theorem isWidth_lexemeWidth (tokens : List Token) :
    IsWidth tokens (lexemeWidth tokens) := by
  let lengths := tokens.map fun token => (shownLexeme token.lexeme).length
  have hwidth : lexemeWidth tokens = min 40 (max 6 (lengths.foldr max 0)) := rfl
  have hmem {token : Token} (htoken : token ∈ tokens) :
      (shownLexeme token.lexeme).length ∈ lengths := List.mem_map.mpr ⟨token, htoken, rfl⟩
  refine ⟨by omega, by omega, fun hless token htoken => ?_, fun hmore => ?_⟩
  · have hlongest := foldr_max_le_iff.mp (Nat.le_refl (lengths.foldr max 0)) _ (hmem htoken)
    omega
  · by_contra hnone
    -- If all lexemes were shorter, so would be the longest.
    have hall : ∀ length ∈ lengths, length ≤ lexemeWidth tokens - 1 := by
      intro length hlength
      obtain ⟨token, htoken, rfl⟩ := List.mem_map.mp hlength
      by_contra hlong
      exact hnone ⟨token, htoken, by omega⟩
    have hlongest := foldr_max_le_iff.mpr hall
    omega

/-! ## The table -/

theorem stdout_say (lines : List Line) (logging : Logging) :
    ((Transcript.say lines).stdout ⟨false, logging⟩).toList =
      (lines.map textOf).flatMap (· ++ ['\n']) := by
  have hrender : Console.Span.render false = fun span => span.text.toList :=
    funext render_uncolored
  simp [Transcript.stdout, Transcript.say, Console.render, Console.spansOf, List.flatMap_assoc,
    List.flatMap_map, hrender, textOf, plain]

theorem unbroken_row {first second third : String} (width : Nat)
    (hfirst : Unbroken first.toList) (hsecond : Unbroken second.toList)
    (hthird : Unbroken third.toList) : Unbroken (row width first second third).toList := by
  rw [toList_row]
  exact unbroken_append (unbroken_append (unbroken_append hfirst (unbroken_replicate _))
    (unbroken_append hsecond (unbroken_replicate _))) hthird

theorem unbroken_tokenRow (width : Nat) (token : Token) :
    Unbroken (tokenRow width token).toList :=
  unbroken_row width (unbroken_shownLexeme _) (kindName_fits _).2 (unbroken_number _)

/--
A table is a header and one row for each token, each on one line, whatever the lexemes
hold.  In the header and in every row whose lexeme fits the first column the kind begins
two characters behind that column and the line number 22 further on; a longer lexeme
is shown whole and moves both in its own row.
-/
theorem tokenTable_columns (tokens : List Token) (logging : Logging) :
    let width := lexemeWidth tokens
    let shown := fun token : Token => (shownLexeme token.lexeme).toList
    ∃ header rows, IsWidth tokens width ∧
      ((Transcript.say (tokenTable tokens)).stdout ⟨false, logging⟩).toList =
        (header :: rows).flatMap (· ++ ['\n']) ∧
      Text.linesOf ((Transcript.say (tokenTable tokens)).stdout ⟨false, logging⟩).toList =
        header :: rows ∧
      (∀ line ∈ header :: rows, Unbroken line) ∧
      Columns "Lexeme".toList "Kind".toList "Line".toList (width + 2) (width + 24) header ∧
      List.Forall₂ (fun token row =>
        Columns (shown token) token.kind.name.toList (toString token.position.line).toList
          (max width (shown token).length + 2) (max width (shown token).length + 24) row)
        tokens rows := by
  intro width shown
  let header := (row width "Lexeme" "Kind" "Line").toList
  let rows := tokens.map fun token => (tokenRow width token).toList
  have hwidth : IsWidth tokens width := isWidth_lexemeWidth tokens
  have hout : ((Transcript.say (tokenTable tokens)).stdout ⟨false, logging⟩).toList =
      (header :: rows).flatMap (· ++ ['\n']) := by
    rw [stdout_say]
    simp [tokenTable, header, rows, width, textOf, bold, plain, Function.comp_def]
  have hunbroken : ∀ line ∈ header :: rows, Unbroken line := by
    intro line hline
    rcases List.mem_cons.mp hline with hheader | hrow
    · rw [hheader]
      exact unbroken_row width (by decide) (by decide) (by decide)
    · obtain ⟨token, _, rfl⟩ := List.mem_map.mp hrow
      exact unbroken_tokenRow width token
  have hheader : Columns "Lexeme".toList "Kind".toList "Line".toList (width + 2) (width + 24)
      header := by
    have hhead : max width "Lexeme".length = width := max_eq_left hwidth.least
    have hkind : "Kind".length ≤ kindWidth := by decide
    simpa only [hhead] using columns_row width "Lexeme" "Line" hkind
  refine ⟨header, rows, hwidth, hout, ?_, hunbroken, hheader, ?_⟩
  · rw [hout]
    exact Text.linesOf_flatMap fun line hline =>
      ⟨(hunbroken line hline).1, (hunbroken line hline).2.1⟩
  · rw [List.forall₂_map_right_iff, List.forall₂_same]
    intro token _
    exact columns_row width (shownLexeme token.lexeme) (toString token.position.line)
      (kindName_fits token.kind).1

end Report

end Classlet
