import Classlet.Proofs.Scan.Lexing

/-!
# Surroundings

What a lexeme depends on besides its own characters.  What stands behind it matters
only up to the first blank, and only in that the lexeme must not go on there.  Besides,
the end of the text matters to a literal or block comment that is not closed, and the
end of the line to a line comment.  So the text behind a lexeme can be changed, and the
lexeme stays the first one.  That a character is stray depends on the next one at most.
-/

namespace Classlet.Scan

/-! ## Characters -/

theorem bounds_of_word {char : Char} (h : BeginsWord char ∨ IsDigit char) :
    '0' ≤ char ∧ char ≤ 'z' := by
  rcases h with ((⟨hleast, hmost⟩ | ⟨hleast, hmost⟩) | rfl) | ⟨hleast, hmost⟩
  · exact ⟨Char.le_trans (by decide) hleast, Char.le_trans hmost (by decide)⟩
  · exact ⟨Char.le_trans (by decide) hleast, hmost⟩
  · decide
  · exact ⟨hleast, Char.le_trans hmost (by decide)⟩

theorem not_blank_of_word {char : Char} (h : BeginsWord char ∨ IsDigit char) :
    Text.isBlank char = false := by
  obtain ⟨hleast, hmost⟩ := bounds_of_word h
  have hleast : 48 ≤ char.toNat := UInt32.le_iff_toNat_le.mp hleast
  have hmost : char.toNat ≤ 122 := UInt32.le_iff_toNat_le.mp hmost
  simp [Text.isBlank, Text.within, Text.blankRanges, Text.CodeRange.holds]
  omega

theorem mem_symbols {lexeme : String} {kind : Kind}
    (h : Kind.ofSymbol? lexeme = some kind) :
    (lexeme, kind) ∈ Kind.symbols := by
  obtain ⟨before, after, hsymbols, -⟩ := List.lookup_eq_some_iff.mp h
  simp [hsymbols]

theorem mem_words {lexeme : String} {kind : Kind} (h : Kind.ofWord? lexeme = some kind) :
    (lexeme, kind) ∈ Kind.words := by
  obtain ⟨before, after, hwords, -⟩ := List.lookup_eq_some_iff.mp h
  simp [hwords]

theorem symbols_characters : ∀ entry ∈ Kind.symbols, ∀ char ∈ entry.1.toList,
    Text.isBlank char = false ∧ char ≠ '\'' := by
  -- All characters cannot be tried, so what is decided is about the lists.
  have hall : (Kind.symbols.all fun entry => entry.1.toList.all fun char =>
      decide (Text.isBlank char = false ∧ char ≠ '\'')) = true := by
    decide +kernel
  intro entry hentry char hchar
  exact of_decide_eq_true (List.all_eq_true.mp (List.all_eq_true.mp hall entry hentry) char hchar)

theorem symbol_character {symbol : List Char} {kind : Kind} {char : Char}
    (h : Kind.ofSymbol? (String.ofList symbol) = some kind) (hchar : char ∈ symbol) :
    Text.isBlank char = false ∧ char ≠ '\'' :=
  symbols_characters _ (mem_symbols h) char (by simpa using hchar)

theorem IsWord.not_blank {lexeme : List Char} (h : IsWord lexeme) {char : Char}
    (hchar : char ∈ lexeme) : Text.isBlank char = false := by
  obtain ⟨first, rest, rfl, hfirst, hrest⟩ := h
  rcases List.mem_cons.mp hchar with rfl | hchar
  · exact not_blank_of_word (.inl hfirst)
  · exact not_blank_of_word (hrest char hchar)

theorem IsNumber.not_blank {lexeme : List Char} (h : IsNumber lexeme) {char : Char}
    (hchar : char ∈ lexeme) : Text.isBlank char = false := by
  obtain ⟨whole, part, mark, rfl, hwhole, hpart, hmark⟩ := h
  simp only [List.mem_append] at hchar
  rcases hchar with (hchar | hchar) | hchar
  · exact not_blank_of_word (.inr (hwhole.2 char hchar))
  · rcases hpart with rfl | ⟨decimals, rfl, hdecimals⟩
    · cases hchar
    · rcases List.mem_cons.mp hchar with rfl | hchar
      · rfl
      · exact not_blank_of_word (.inr (hdecimals.2 char hchar))
  · rcases hmark with rfl | rfl
    · cases hchar
    · rw [List.mem_singleton.mp hchar]
      rfl

/-! ## Texts in lexemes -/

/-- The kinds of tokens whose lexemes may hold any characters. -/
def isText : Kind → Bool
  | .stringLiteral | .charLiteral | .comment _ => true
  | _ => false

theorem words_no_text : ∀ entry ∈ Kind.words, isText entry.2 = false := by
  decide

theorem symbols_no_text : ∀ entry ∈ Kind.symbols, isText entry.2 = false := by
  decide

section Lexeme

variable {text lexeme : List Char} {kind : Kind}

theorem isText_of_word (lexeme : String) :
    isText ((Kind.ofWord? lexeme).getD .identifier) = false := by
  cases hword : Kind.ofWord? lexeme with
  | none => rfl
  | some kind => exact words_no_text _ (mem_words hword)

/-- Blanks stand in literals and comments only. -/
theorem Lexeme.not_blank (h : Lexeme text kind lexeme) (htext : isText kind = false) :
    ∀ char ∈ lexeme, Text.isBlank char = false := by
  cases h with
  | word _ hlongest => exact fun _ => hlongest.1.2.not_blank
  | number _ hlongest => exact fun _ => hlongest.1.2.not_blank
  | string | char | lineComment | blockComment => cases htext
  | pair _ hkind | mark _ _ hkind => exact fun _ hmem => (symbol_character hkind hmem).1

theorem Lexeme.line (h : Lexeme text (.comment .line) lexeme) :
    ∃ rest run, text = '/' :: '/' :: rest ∧ lexeme = '/' :: '/' :: run ∧ UpTo '\n' rest run := by
  have htext : isText (.comment .line) = true := rfl
  generalize hkind : Kind.comment .line = kind at h htext
  cases h with
  | word =>
      rw [isText_of_word] at htext
      cases htext
  | lineComment hrun => exact ⟨_, _, rfl, rfl, hrun⟩
  | pair _ hsymbol | mark _ _ hsymbol =>
      rw [symbols_no_text _ (mem_symbols hsymbol)] at htext
      cases htext
  | number | string | char | blockComment => cases hkind

/-- Behind a line comment the line ends. -/
theorem Lexeme.newline_behind {rest : List Char} {char : Char}
    (h : Lexeme text (.comment .line) lexeme) (htext : text = lexeme ++ char :: rest) :
    char = '\n' := by
  obtain ⟨after, run, rfl, rfl, -, hafter⟩ := h.line
  simp only [List.cons_append, List.cons.injEq, true_and] at htext
  rcases hafter with rfl | ⟨others, rfl⟩
  · simp at htext
  · rw [List.append_cancel_left_eq] at htext
    exact (List.cons.inj htext).1.symm

end Lexeme

/-! ## Another text behind a lexeme -/

/-- Up to its first blank, `more` is a beginning of `rest`. -/
inductive Begins : (more rest : List Char) → Prop where
  | nil {rest : List Char} : Begins [] rest
  | blank {char : Char} {more rest : List Char} (h : Text.isBlank char = true) :
      Begins (char :: more) rest
  | cons {char : Char} {more rest : List Char} (h : Begins more rest) :
      Begins (char :: more) (char :: rest)

/-- Behind a lexeme of the kind, `more` may stand in place of `rest`. -/
structure Replaces (kind : Kind) (rest more : List Char) : Prop where
  begins : ∀ run, (∀ char ∈ run, Text.isBlank char = false) → run <+: more → run <+: rest
  ends : rest = [] → more = []
  newline : kind = .comment .line → ∀ char ∈ more.head?, char = '\n'

section Replaces

variable {kind : Kind} {text lexeme run rest more : List Char} {first : Char}

theorem Begins.prefix_of {more rest run : List Char} (h : Begins more rest)
    (hrun : ∀ char ∈ run, Text.isBlank char = false) (hbegins : run <+: more) : run <+: rest := by
  induction h generalizing run with
  | nil =>
      rw [List.prefix_nil.mp hbegins]
      exact List.nil_prefix
  | @blank char more rest hblank =>
      cases run with
      | nil => exact List.nil_prefix
      | cons first run =>
          obtain rfl := (List.cons_prefix_cons.mp hbegins).1
          rw [hrun first (by simp)] at hblank
          cases hblank
  | @cons char more rest _ ih =>
      cases run with
      | nil => exact List.nil_prefix
      | cons first run =>
          obtain ⟨rfl, hmore⟩ := List.cons_prefix_cons.mp hbegins
          exact List.cons_prefix_cons.mpr ⟨rfl, ih (List.forall_mem_cons.mp hrun).2 hmore⟩

theorem Replaces.of_blank (hblank : ∀ char ∈ more.head?, Text.isBlank char = true)
    (hends : rest = [] → more = [])
    (hnewline : kind = .comment .line → ∀ char ∈ more.head?, char = '\n') :
    Replaces kind rest more := by
  have hbegins : Begins more rest := by
    cases more with
    | nil => exact .nil
    | cons char more => exact .blank (hblank char rfl)
  exact ⟨fun _ => hbegins.prefix_of, hends, hnewline⟩

/-- What is no blank and stands first was there before. -/
theorem Replaces.head? (h : Replaces kind rest more) {char : Char}
    (hchar : char ∈ more.head?)
    (hblank : Text.isBlank char = false) : char ∈ rest.head? := by
  obtain ⟨others, rfl⟩ := List.head?_eq_some_iff.mp hchar
  have hbegins := h.begins [char] (by simpa using hblank) ⟨others, rfl⟩
  obtain ⟨others, rfl, -⟩ := List.cons_prefix_iff.mp hbegins
  rfl

theorem Longest.before {form : List Char → Prop}
    (hform : ∀ other, form other → ∀ char ∈ other, Text.isBlank char = false)
    (hmore : Replaces kind rest more) (h : Longest form (run ++ rest) run) :
    Longest form (run ++ more) run := by
  refine ⟨⟨List.prefix_append run more, h.1.2⟩, fun other hbegins hother => ?_⟩
  rcases List.prefix_or_prefix_of_prefix hbegins (List.prefix_append run more) with hle | hlonger
  · exact hle.length_le
  · obtain ⟨beyond, rfl⟩ := hlonger
    rw [List.prefix_append_right_inj] at hbegins
    have hbeyond := hmore.begins beyond
      (fun char hchar => hform _ hother char (List.mem_append_right run hchar)) hbegins
    exact h.2 _ ((List.prefix_append_right_inj run).mpr hbeyond) hother

/-- A run that its stop ended is ended by it in front of anything. -/
theorem Through.before {stop text run rest more : List Char} (h : Through stop text run)
    (hrest : text = run ++ rest) (hend : rest = [] → more = []) :
    Through stop (run ++ more) run := by
  rcases h with ⟨before, after, htext, rfl, hleast⟩ | ⟨hnone, rfl⟩
  · refine .inl ⟨before, more, rfl, rfl, fun before' after' hmore => ?_⟩
    refine Nat.le_of_not_lt fun hshorter => ?_
    have hbegins : before' ++ stop <+: before ++ stop := by
      have hlonger : (before' ++ stop).length ≤ (before ++ stop).length := by
        simp only [List.length_append]
        omega
      refine List.prefix_of_prefix_length_le ⟨after', hmore.symm⟩ ?_ hlonger
      exact List.prefix_append _ more
    obtain ⟨between, hbetween⟩ := hbegins
    have hearlier := hleast before' (between ++ after) (by simp [htext, ← hbetween])
    omega
  · have hnothing : rest = [] := by simpa using hrest
    rw [hend hnothing, List.append_nil]
    exact .inr ⟨hnone, rfl⟩

theorem Through.ne_nil {stop text run : List Char} (h : Through stop text run)
    (htext : text ≠ []) (hstop : stop ≠ []) : run ≠ [] := by
  rcases h with ⟨before, after, -, rfl, -⟩ | ⟨-, rfl⟩
  · simp [hstop]
  · exact htext

theorem UpTo.before {stop : Char} {text run more : List Char} (h : UpTo stop text run)
    (hstop : ∀ char ∈ more.head?, char = stop) : UpTo stop (run ++ more) run := by
  refine ⟨h.1, ?_⟩
  cases more with
  | nil => exact .inl (List.append_nil run).symm
  | cons char more =>
      obtain rfl := hstop char rfl
      exact .inr ⟨more, rfl⟩

theorem not_opens_of_pair {first second : Char} {rest : List Char} (more : List Char)
    (h : ¬ Opens (first :: second :: rest)) : ¬ Opens (first :: second :: more) := by
  intro hopens
  refine h ?_
  cases hopens with
  | word hfirst => exact .word hfirst
  | number hfirst => exact .number hfirst
  | string => exact .string
  | char hsecond => exact .char hsecond
  | lineComment => exact .lineComment
  | blockComment => exact .blockComment

theorem not_opens_of_replaces (hquote : first ≠ '\'') (hmore : Replaces kind rest more)
    (h : ¬ Opens (first :: rest)) : ¬ Opens (first :: more) := by
  intro hopens
  cases hopens with
  | word hfirst => exact h (.word hfirst)
  | number hfirst => exact h (.number hfirst)
  | string => exact h .string
  | char => exact hquote rfl
  | lineComment =>
      have hslash : '/' ∈ rest.head? := hmore.head? rfl rfl
      obtain ⟨others, rfl⟩ := List.head?_eq_some_iff.mp hslash
      exact h .lineComment
  | blockComment =>
      have hstar : '*' ∈ rest.head? := hmore.head? rfl rfl
      obtain ⟨others, rfl⟩ := List.head?_eq_some_iff.mp hstar
      exact h .blockComment

theorem Lexeme.before (h : Lexeme text kind lexeme) (hrest : text = lexeme ++ rest)
    (hmore : Replaces kind rest more) : Lexeme (lexeme ++ more) kind lexeme := by
  cases h with
  | word hfirst hlongest =>
      rw [hrest] at hlongest
      obtain ⟨first, others, rfl, hbegins, hothers⟩ := hlongest.1.2
      exact .word hbegins (hlongest.before (fun _ hword _ => hword.not_blank) hmore)
  | number hfirst hlongest =>
      rw [hrest] at hlongest
      obtain ⟨whole, part, mark, hlexeme, hwhole, -⟩ := hlongest.1.2
      obtain ⟨first, others, rfl⟩ := List.exists_cons_of_ne_nil hwhole.1
      have hnumber := hlongest.before (fun _ hnumber _ => hnumber.not_blank) hmore
      rw [hlexeme] at hnumber ⊢
      exact .number (hwhole.2 first (by simp)) hnumber
  | string hrun =>
      rw [List.cons_append, List.cons.injEq] at hrest
      exact .string (hrun.before hrest.2 hmore.ends)
  | char hfirst hrun =>
      rw [List.cons_append, List.cons.injEq] at hrest
      have hbefore := hrun.before hrest.2 hmore.ends
      obtain ⟨first, others, rfl⟩ :=
        List.exists_cons_of_ne_nil (hrun.ne_nil (by simp) (by simp))
      obtain ⟨-, hrest⟩ := hrest
      cases hrest
      exact .char hfirst hbefore
  | lineComment hrun => exact .lineComment (hrun.before (hmore.newline rfl))
  | blockComment hrun =>
      rw [List.cons_append, List.cons_append, List.cons.injEq, List.cons.injEq] at hrest
      exact .blockComment (hrun.before hrest.2.2 hmore.ends)
  | pair hopens hkind => exact .pair (not_opens_of_pair more hopens) hkind
  | @mark first others kind hopens hpair hkind =>
      cases hrest
      have hquote : first ≠ '\'' := (symbol_character hkind (by simp)).2
      refine .mark (not_opens_of_replaces hquote hmore hopens) (fun char hchar => ?_) hkind
      -- what stands first now is a blank, which is no half of a symbol, or it stood there before
      cases hsymbol : Kind.ofSymbol? (String.ofList [first, char]) with
      | none => rfl
      | some other =>
          have hblank : Text.isBlank char = false := (symbol_character hsymbol (by simp)).1
          rw [hpair char (hmore.head? hchar hblank)] at hsymbol
          cases hsymbol

end Replaces

/-! ## Stray characters -/

section Stray

variable {first : Char} {rest more : List Char}

theorem exists_lexeme_of_opens {text : List Char} (h : Opens text) :
    ∃ kind lexeme, Lexeme text kind lexeme := by
  cases h with
  | word hfirst => exact ⟨_, _, .word hfirst (longest_word hfirst _)⟩
  | number hfirst => exact ⟨_, _, .number hfirst (longest_number hfirst _)⟩
  | string => exact ⟨_, _, .string (through_quote '"' _)⟩
  | char hfirst => exact ⟨_, _, .char hfirst (through_quote '\'' _)⟩
  | lineComment => exact ⟨_, _, .lineComment (upTo_restOfLine _)⟩
  | blockComment => exact ⟨_, _, .blockComment (through_close _)⟩

theorem stray_iff :
    (∀ kind lexeme, ¬ Lexeme (first :: rest) kind lexeme) ↔
      ¬ Opens (first :: rest) ∧ Kind.ofSymbol? (String.ofList [first]) = none ∧
      ∀ second ∈ rest.head?, Kind.ofSymbol? (String.ofList [first, second]) = none := by
  constructor
  · intro hnone
    have hopens : ¬ Opens (first :: rest) := by
      intro hopens
      obtain ⟨kind, lexeme, hlexeme⟩ := exists_lexeme_of_opens hopens
      exact hnone kind lexeme hlexeme
    have hpair : ∀ second ∈ rest.head?, Kind.ofSymbol? (String.ofList [first, second]) = none := by
      intro second hsecond
      obtain ⟨others, rfl⟩ := List.head?_eq_some_iff.mp hsecond
      rw [Option.eq_none_iff_forall_ne_some]
      exact fun kind hkind => hnone kind _ (.pair hopens hkind)
    refine ⟨hopens, ?_, hpair⟩
    rw [Option.eq_none_iff_forall_ne_some]
    exact fun kind hkind => hnone kind _ (.mark hopens hpair hkind)
  · rintro ⟨hopens, hmark, hpair⟩ kind lexeme hlexeme
    cases hlexeme with
    | word hfirst => exact hopens (.word hfirst)
    | number hfirst => exact hopens (.number hfirst)
    | string => exact hopens .string
    | char hfirst => exact hopens (.char hfirst)
    | lineComment => exact hopens .lineComment
    | blockComment => exact hopens .blockComment
    | pair _ hkind =>
        rw [hpair _ rfl] at hkind
        cases hkind
    | mark _ _ hkind =>
        rw [hmark] at hkind
        cases hkind

/-- A stray character stays one if what follows it stays, or is a blank as it was before. -/
theorem stray_of_head? (hsame : ∀ char ∈ more.head?, char ∈ rest.head? ∨
      Text.isBlank char = true ∧ ∃ other ∈ rest.head?, Text.isBlank other = true)
    (h : ∀ kind lexeme, ¬ Lexeme (first :: rest) kind lexeme) :
    ∀ kind lexeme, ¬ Lexeme (first :: more) kind lexeme := by
  rw [stray_iff] at h ⊢
  obtain ⟨hopens, hmark, hpair⟩ := h
  have hhead : ∀ char ∈ more.head?, Text.isBlank char = false → char ∈ rest.head? := by
    intro char hchar hblank
    rcases hsame char hchar with hsame | ⟨hnot, -⟩
    · exact hsame
    · rw [hblank] at hnot
      cases hnot
  refine ⟨fun hmore => hopens ?_, hmark, fun second hsecond => ?_⟩
  · cases hmore with
    | word hfirst => exact .word hfirst
    | number hfirst => exact .number hfirst
    | string => exact .string
    | @char second others hsecond =>
        obtain ⟨other, hother, hquote⟩ : ∃ other ∈ rest.head?, other ≠ '\'' := by
          rcases hsame second rfl with hsame | ⟨-, other, hother, hblank⟩
          · exact ⟨second, hsame, hsecond⟩
          · exact ⟨other, hother, by rintro rfl; exact absurd hblank (by decide)⟩
        obtain ⟨others, rfl⟩ := List.head?_eq_some_iff.mp hother
        exact .char hquote
    | lineComment =>
        obtain ⟨others, rfl⟩ := List.head?_eq_some_iff.mp (hhead '/' rfl rfl)
        exact .lineComment
    | blockComment =>
        obtain ⟨others, rfl⟩ := List.head?_eq_some_iff.mp (hhead '*' rfl rfl)
        exact .blockComment
  · rw [Option.eq_none_iff_forall_ne_some]
    intro kind hkind
    have hblank : Text.isBlank second = false := (symbol_character hkind (by simp)).1
    rw [hpair second (hhead second hsecond hblank)] at hkind
    cases hkind

end Stray

/-! ## Blanks between items -/

theorem Lexes.of_blank {position : Position} {char : Char} {rest : List Char}
    {items : List Item} (h : Lexes position (char :: rest) items)
    (hblank : Text.isBlank char = true) : Lexes (position.next char) rest items := by
  cases h with
  | blank _ hrest => exact hrest
  | token hnot | stray hnot =>
      rw [hblank] at hnot
      cases hnot

end Classlet.Scan
