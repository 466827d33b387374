import Classlet.Proofs.Scan.Grammar
import Classlet.Scan.Lossless

/-!
# Longest matches

The loops over characters against the declarative forms: taking characters while
a condition holds gives the longest word or number, and looking for a stop gives
the run through its first occurrence.
-/

namespace Classlet.Scan

/-! ## Characters -/

theorem isDigit_iff (char : Char) : char.isDigit = true ↔ IsDigit char := by
  simp [Char.isDigit, IsDigit, Char.le_def]

theorem isAlpha_iff (char : Char) : char.isAlpha = true ↔ IsLetter char := by
  have hclasses : char.isAlpha =
      (decide ('A'.val ≤ char.val ∧ char.val ≤ 'Z'.val) ||
        (decide ('a'.val ≤ char.val) && decide (char.val ≤ 'z'.val))) := rfl
  simp [hclasses, IsLetter, Char.le_def]

theorem isWordStart_iff (char : Char) : isWordStart char = true ↔ BeginsWord char := by
  simp [isWordStart, BeginsWord, isAlpha_iff]

theorem isWordPart_iff (char : Char) :
    isWordPart char = true ↔ BeginsWord char ∨ IsDigit char := by
  simp [isWordPart, BeginsWord, Char.isAlphanum, isAlpha_iff, isDigit_iff, or_right_comm]

/-! ## Longest matches -/

theorem Longest.unique {form : List Char → Prop} {text first second : List Char}
    (hfirst : Longest form text first) (hsecond : Longest form text second) :
    first = second := by
  have hle := hsecond.2 first hfirst.1.1 hfirst.1.2
  have hge := hfirst.2 second hsecond.1.1 hsecond.1.2
  have hbegins := List.prefix_of_prefix_length_le hfirst.1.1 hsecond.1.1 hle
  exact hbegins.eq_of_length (Nat.le_antisymm hle hge)

section Keep

variable {keep : Char → Bool} {text run more : List Char}

theorem prefix_takeWhile (hrun : ∀ char ∈ run, keep char = true) (hbegins : run <+: text) :
    run <+: text.takeWhile keep := by
  obtain ⟨after, rfl⟩ := hbegins
  rw [List.takeWhile_append_of_pos hrun]
  exact List.prefix_append _ _

/-- Where a beginning of the text stops to be kept, keeping stops. -/
theorem takeWhile_of_prefix (hrun : ∀ char ∈ run, keep char = true) {next : Char}
    (hnext : keep next = false) (hbegins : run ++ next :: more <+: text) :
    text.takeWhile keep = run ∧ next :: more <+: text.dropWhile keep := by
  obtain ⟨after, rfl⟩ := hbegins
  rw [List.append_assoc, List.cons_append, List.takeWhile_append_of_pos hrun,
    List.dropWhile_append_of_pos hrun, List.takeWhile_cons_of_neg (by simp [hnext]),
    List.dropWhile_cons_of_neg (by simp [hnext]), List.append_nil]
  exact ⟨rfl, ⟨after, rfl⟩⟩

end Keep

theorem longest_word {first : Char} (hfirst : BeginsWord first) (rest : List Char) :
    Longest IsWord (first :: rest) ((first :: rest).takeWhile isWordPart) := by
  have hpart : isWordPart first = true := (isWordPart_iff first).mpr (.inl hfirst)
  refine ⟨⟨List.takeWhile_prefix _, ?_⟩, ?_⟩
  · rw [List.takeWhile_cons_of_pos hpart]
    refine ⟨first, rest.takeWhile isWordPart, rfl, hfirst, fun char hchar => ?_⟩
    exact (isWordPart_iff char).mp (List.all_eq_true.mp List.all_takeWhile char hchar)
  · rintro _ hbegins ⟨first', rest', rfl, hfirst', hrest'⟩
    refine (prefix_takeWhile (fun char hchar => ?_) hbegins).length_le
    rw [isWordPart_iff]
    rcases List.mem_cons.mp hchar with rfl | hchar
    · exact .inl hfirst'
    · exact hrest' char hchar

/-! ## Numbers -/

theorem isDigits_digits {first : Char} (hfirst : IsDigit first) (rest : List Char) :
    IsDigits (digits (first :: rest)).1 := by
  have hdigit : first.isDigit = true := (isDigit_iff first).mpr hfirst
  constructor
  · simp [digits, List.takeWhile_cons_of_pos hdigit]
  · intro char hchar
    exact (isDigit_iff char).mp (List.all_eq_true.mp List.all_takeWhile char hchar)

theorem fraction_form (text : List Char) :
    (fraction text).1 = [] ∨ ∃ decimals, (fraction text).1 = '.' :: decimals ∧
      IsDigits decimals := by
  unfold fraction
  split
  · rename_i digit rest
    split
    · rename_i hdigit
      exact .inr ⟨_, rfl, isDigits_digits ((isDigit_iff digit).mp hdigit) rest⟩
    · exact .inl rfl
  · exact .inl rfl

theorem floatMark_form (text : List Char) :
    (floatMark text).1 = [] ∨ (floatMark text).1 = ['f'] := by
  unfold floatMark
  split
  · exact .inr rfl
  · exact .inl rfl

theorem longest_digits {whole text : List Char} (hwhole : IsDigits whole)
    (hbegins : whole <+: text) : whole.length ≤ (digits text).1.length := by
  have hkeep : ∀ char ∈ whole, char.isDigit = true :=
    fun char hchar => (isDigit_iff char).mpr (hwhole.2 char hchar)
  exact (prefix_takeWhile hkeep hbegins).length_le

/-- Digits before another character are all digits there are. -/
theorem digits_of_prefix {whole more text : List Char} {next : Char}
    (hwhole : IsDigits whole)
    (hnext : next.isDigit = false) (hbegins : whole ++ next :: more <+: text) :
    (digits text).1 = whole ∧ next :: more <+: (digits text).2 := by
  have hkeep : ∀ char ∈ whole, char.isDigit = true :=
    fun char hchar => (isDigit_iff char).mpr (hwhole.2 char hchar)
  exact takeWhile_of_prefix hkeep hnext hbegins

theorem fraction_of_prefix {decimals text : List Char} (hdecimals : IsDigits decimals)
    (hbegins : '.' :: decimals <+: text) :
    ∃ rest, text = '.' :: rest ∧ decimals <+: rest ∧
      fraction text = ('.' :: (digits rest).1, (digits rest).2) := by
  obtain ⟨hne, hall⟩ := hdecimals
  obtain ⟨digit, others, rfl⟩ := List.exists_cons_of_ne_nil hne
  obtain ⟨after, rfl⟩ := hbegins
  have hdigit : digit.isDigit = true := (isDigit_iff digit).mpr (hall digit (by simp))
  refine ⟨digit :: others ++ after, rfl, List.prefix_append _ _, ?_⟩
  simp [fraction, hdigit]

/-- Behind the digits of a number nothing longer fits than what is taken. -/
theorem length_fraction_le {part mark text : List Char}
    (hpart : part = [] ∨ ∃ decimals, part = '.' :: decimals ∧ IsDigits decimals)
    (hmark : mark = [] ∨ mark = ['f']) (hbegins : part ++ mark <+: text) :
    (part ++ mark).length ≤
      (fraction text).1.length + (floatMark (fraction text).2).1.length := by
  rcases hpart with rfl | ⟨decimals, rfl, hdecimals⟩
  · rcases hmark with rfl | rfl
    · exact Nat.zero_le _
    · obtain ⟨after, rfl⟩ := hbegins
      simp [fraction, floatMark]
  · have hpoint : '.' :: decimals <+: text :=
      (List.prefix_append ('.' :: decimals) mark).trans hbegins
    obtain ⟨rest, rfl, hrest, hfraction⟩ := fraction_of_prefix hdecimals hpoint
    rw [hfraction]
    rcases hmark with rfl | rfl
    · have hle := longest_digits hdecimals hrest
      simp only [List.append_nil, List.length_cons]
      omega
    · rw [List.cons_append, List.cons_prefix_cons] at hbegins
      obtain ⟨hdigits, after, hafter⟩ := digits_of_prefix hdecimals rfl hbegins.2
      rw [hdigits, ← hafter]
      simp [floatMark]

theorem longest_number {first : Char} (hfirst : IsDigit first) (rest : List Char) :
    Longest IsNumber (first :: rest) (number (first :: rest)).1 := by
  have hnumber : (number (first :: rest)).1 =
      (digits (first :: rest)).1 ++ (fraction (digits (first :: rest)).2).1 ++
        (floatMark (fraction (digits (first :: rest)).2).2).1 := rfl
  refine ⟨⟨?_, ?_⟩, ?_⟩
  · exact ⟨(number (first :: rest)).2, number_append _⟩
  · exact ⟨_, _, _, hnumber, isDigits_digits hfirst rest, fraction_form _, floatMark_form _⟩
  · rintro _ hbegins ⟨whole, part, mark, rfl, hwhole, hpart, hmark⟩
    rw [List.append_assoc] at hbegins ⊢
    rw [hnumber]
    simp only [List.length_append]
    cases hmore : part ++ mark with
    | nil =>
        rw [hmore, List.append_nil] at hbegins
        have hle := longest_digits hwhole hbegins
        obtain ⟨rfl, rfl⟩ := List.append_eq_nil_iff.mp hmore
        simp only [List.length_nil]
        omega
    | cons next more =>
        have hnext : next.isDigit = false := by
          rcases hpart with rfl | ⟨decimals, rfl, _⟩
          · rcases hmark with rfl | rfl <;> cases hmore
            rfl
          · cases hmore
            rfl
        rw [hmore] at hbegins
        obtain ⟨hdigits, hafter⟩ := digits_of_prefix hwhole hnext hbegins
        rw [← hmore] at hafter
        have hle := length_fraction_le hpart hmark hafter
        simp only [List.length_append] at hle
        rw [hdigits]
        omega

/-! ## Runs to a stop -/

theorem Through.unique {stop text first second : List Char}
    (hfirst : Through stop text first)
    (hsecond : Through stop text second) : first = second := by
  rcases hfirst with ⟨before, after, htext, rfl, hleast⟩ | ⟨hnone, rfl⟩
  · rcases hsecond with ⟨before', after', htext', rfl, hleast'⟩ | ⟨hnone', rfl⟩
    · have hlength : before.length = before'.length :=
        Nat.le_antisymm (hleast before' after' htext') (hleast' before after htext)
      rw [htext, List.append_assoc, List.append_assoc] at htext'
      obtain ⟨rfl, _⟩ := List.append_inj htext' hlength
      rfl
    · exact absurd ⟨before, after, htext.symm⟩ hnone'
  · rcases hsecond with ⟨before', after', htext', rfl, _⟩ | ⟨_, rfl⟩
    · exact absurd ⟨before', after', htext'.symm⟩ hnone
    · rfl

theorem Through.here (stop after : List Char) : Through stop (stop ++ after) stop :=
  .inl ⟨[], after, rfl, rfl, fun _ _ _ => Nat.zero_le _⟩

theorem Through.nil {stop : List Char} (hstop : stop ≠ []) : Through stop [] [] := by
  refine .inr ⟨fun hinfix => hstop (List.infix_nil.mp hinfix), rfl⟩

theorem Through.cons {stop rest run : List Char} {char : Char}
    (hstop : ¬ stop <+: char :: rest) (h : Through stop rest run) :
    Through stop (char :: rest) (char :: run) := by
  rcases h with ⟨before, after, rfl, rfl, hleast⟩ | ⟨hnone, rfl⟩
  · refine .inl ⟨char :: before, after, rfl, rfl, fun before' after' htext => ?_⟩
    cases before' with
    | nil => exact absurd ⟨after', by simpa using htext.symm⟩ hstop
    | cons char' before' =>
        rw [List.cons_append, List.cons_append, List.cons.injEq] at htext
        exact Nat.succ_le_succ (hleast before' after' htext.2)
  · refine .inr ⟨fun hinfix => ?_, rfl⟩
    rcases List.infix_cons_iff.mp hinfix with hbegins | hinfix
    · exact hstop hbegins
    · exact hnone hinfix

theorem through_quote (quote : Char) (text : List Char) :
    Through [quote] text (throughQuote quote text).1 := by
  induction text with
  | nil => exact .nil (by simp)
  | cons char rest ih =>
      rw [throughQuote]
      split
      · rename_i hquote
        rw [hquote]
        exact .here [quote] rest
      · rename_i hquote
        refine .cons (fun hbegins => hquote ?_) ih
        exact (List.cons_prefix_cons.mp hbegins).1.symm

theorem through_close (text : List Char) :
    Through ['*', '/'] text (throughClose text).1 := by
  fun_induction throughClose text with
  | case1 => exact .nil (by simp)
  | case2 rest => exact .here ['*', '/'] rest
  | case3 char rest hclose ih =>
      refine .cons (fun hbegins => ?_) ih
      obtain ⟨after, hafter⟩ := hbegins
      cases hafter
      exact hclose _ rfl rfl

theorem UpTo.eq_restOfLine {text run : List Char} (h : UpTo '\n' text run) :
    run = (restOfLine text).1 := by
  obtain ⟨hstop, htext⟩ := h
  have hkeep : ∀ char ∈ run, decide (char ≠ '\n') = true := by
    intro char hchar
    rw [decide_eq_true_iff]
    rintro rfl
    exact hstop hchar
  rcases htext with rfl | ⟨after, rfl⟩
  · have htake : (run ++ []).takeWhile (· ≠ '\n') = run ++ [].takeWhile (· ≠ '\n') :=
      List.takeWhile_append_of_pos hkeep
    simpa [restOfLine] using htake.symm
  · rw [restOfLine, List.takeWhile_append_of_pos hkeep]
    simp

theorem upTo_restOfLine (text : List Char) : UpTo '\n' text (restOfLine text).1 := by
  constructor
  · intro hstop
    have hkeep := List.all_eq_true.mp List.all_takeWhile _ hstop
    simp at hkeep
  · induction text with
    | nil => exact .inl rfl
    | cons char rest ih =>
        by_cases hstop : char = '\n'
        · refine .inr ⟨rest, ?_⟩
          simp [restOfLine, hstop]
        · have hline : (restOfLine (char :: rest)).1 = char :: (restOfLine rest).1 := by
            simp [restOfLine, hstop]
          rw [hline]
          rcases ih with ih | ⟨after, ih⟩
          · exact .inl (congrArg (List.cons char) ih)
          · exact .inr ⟨after, congrArg (List.cons char) ih⟩

end Classlet.Scan
