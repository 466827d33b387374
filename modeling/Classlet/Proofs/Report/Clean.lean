import Classlet.Command.Editor
import Classlet.Proofs.Analysis.Provenance
import Classlet.Proofs.Console.Unstyled
import Classlet.Proofs.Scan.Layout

/-!
# Clean reports

Where a text has no escape character, nothing that is reported about it has one.  The
words of a report are fixed or they are lexemes, lines and numbers of that text; quoted
texts and JSON strings spell out controls anyway.
-/

namespace Classlet

open Console (Clean CleanLines escape clean_append clean_literal clean_number clean_ofList
  clean_text cleanLines_nil cleanLines_cons cleanLines_append)

/-! ## Texts -/

namespace Text

@[simp] theorem clean_spaces (count : Nat) : Clean (spaces count) := by
  simp [spaces, escape]

@[simp] theorem clean_padRight {width : Nat} {text : String} :
    Clean (padRight width text) ↔ Clean text := by
  simp [padRight]

@[simp] theorem clean_padLeft {width : Nat} {text : String} :
    Clean (padLeft width text) ↔ Clean text := by
  simp [padLeft]

theorem escape_ne_digitChar : ∀ digit < 16, escape ≠ Nat.digitChar digit := by
  decide

theorem escape_not_mem_hexDigits (number : Nat) : escape ∉ Nat.toDigits 16 number := by
  induction number using Nat.strongRecOn with
  | ind number ih =>
      rw [Nat.toDigits_eq_if (by decide)]
      split
      · rename_i hsmall
        simpa using escape_ne_digitChar number hsmall
      · rename_i hlarge
        have hless : number / 16 < number := by omega
        have hlast := escape_ne_digitChar (number % 16) (Nat.mod_lt _ (by decide))
        simpa using ⟨ih _ hless, hlast⟩

theorem escape_not_mem_visible {quotes : List Char} (hquotes : escape ∉ quotes)
    (char : Char) :
    escape ∉ visible quotes char := by
  have hescape : isUnprintable escape = true := by decide +kernel
  unfold visible
  split
  · rename_i letter hletter
    unfold backslashed? at hletter
    split at hletter <;> cases hletter <;> decide
  · split
    · rename_i hquote
      have hne : char ≠ escape := fun heq => hquotes (heq ▸ hquote)
      simpa [escape] using hne.symm
    · split
      · simpa [codePoint, escape] using escape_not_mem_hexDigits char.toNat
      · rename_i hshown
        have hne : escape ≠ char := by
          rintro rfl
          simp [hescape] at hshown
        simpa using hne

@[simp] theorem clean_quoted (text : String) : Clean (quoted text) := by
  have hvisible (char : Char) : escape ∉ visible ['"'] char :=
    escape_not_mem_visible (by decide) char
  have hquote : Clean "\"" := clean_literal rfl (by decide)
  simp [quoted, hvisible, hquote]

@[simp] theorem clean_visibleChar (char : Char) : Clean (visibleChar char) :=
  clean_ofList.mpr (escape_not_mem_visible (by decide) char)

theorem mem_extend {char other : Char} {lines : List (List Char)} {line : List Char}
    (h : line ∈ extend char lines) (hother : other ∈ line) :
    other = char ∨ ∃ before ∈ lines, other ∈ before := by
  cases lines with
  | nil =>
      rw [List.mem_singleton.mp h] at hother
      exact .inl (List.mem_singleton.mp hother)
  | cons first rest =>
      rcases List.mem_cons.mp h with rfl | hmem
      · rcases List.mem_cons.mp hother with rfl | hmem
        · exact .inl rfl
        · exact .inr ⟨first, List.mem_cons_self, hmem⟩
      · exact .inr ⟨line, List.mem_cons_of_mem _ hmem, hother⟩

/-- The lines of a text have no characters of their own. -/
theorem mem_of_mem_linesOf {text line : List Char} {char : Char} (h : line ∈ linesOf text)
    (hchar : char ∈ line) : char ∈ text := by
  induction text using linesOf.induct generalizing line with
  | case1 => cases h
  | case2 rest ih =>
      rw [linesOf] at h
      rcases List.mem_cons.mp h with rfl | hrest
      · cases hchar
      · exact List.mem_cons_of_mem _ (List.mem_cons_of_mem _ (ih hrest hchar))
  | case3 rest ih =>
      rw [linesOf] at h
      rcases List.mem_cons.mp h with rfl | hrest
      · cases hchar
      · exact List.mem_cons_of_mem _ (ih hrest hchar)
  | case4 first rest hreturn hnewline ih =>
      rw [linesOf.eq_4 first rest hreturn hnewline] at h
      rcases mem_extend h hchar with rfl | ⟨before, hbefore, hmem⟩
      · exact List.mem_cons_self
      · exact List.mem_cons_of_mem _ (ih hbefore hmem)

theorem clean_of_mem_lines {source line : String} (hsource : Clean source)
    (h : line ∈ lines source) : Clean line := by
  obtain ⟨chars, hchars, rfl⟩ := List.mem_map.mp h
  rw [clean_ofList]
  exact fun hmem => hsource (mem_of_mem_linesOf hchars hmem)

end Text

/-! ## Names -/

@[simp] theorem Kind.clean_name (kind : Kind) : Clean kind.name := by
  cases kind with
  | type inner | word inner | access inner | binary inner | step inner | comment inner =>
      cases inner <;> exact clean_literal rfl (by decide)
  | _ => exact clean_literal rfl (by decide)

@[simp] theorem Ty.clean_name (ty : Ty) : Clean ty.name := by
  cases ty <;> exact clean_literal rfl (by decide)

@[simp] theorem FailureKind.clean_label (kind : FailureKind) : Clean kind.label := by
  cases kind <;> exact clean_literal rfl (by decide)

@[simp] theorem Wanted.clean_describe (wanted : Wanted) : Clean wanted.describe := by
  cases wanted with
  | kind kind => exact kind.clean_name
  | _ => exact clean_literal rfl (by decide)

/-! ## Faults and notes -/

/-- The lexemes of the tokens have no escape character. -/
def CleanTokens (tokens : List Token) : Prop :=
  ∀ token ∈ tokens, Clean token.lexeme

theorem Lookahead.clean_describe {ahead : Lookahead} (h : CleanTokens ahead.tokens) :
    Clean ahead.describe := by
  cases ahead with
  | token found =>
      have hfound := h found List.mem_cons_self
      unfold describe
      simp only [clean_append, clean_text, Kind.clean_name, hfound, and_true, true_and]
      constructor <;> exact clean_literal rfl (by decide)
  | ending last =>
      change Clean "end of input"
      exact clean_literal rfl (by decide)

theorem Fault.clean_message {fault : Fault} (h : CleanTokens fault.tokens) :
    Clean fault.message := by
  unfold message
  cases fault with
  | unexpected wanted ahead =>
      have hahead : Clean ahead.describe := Lookahead.clean_describe h
      simp only [clean_append, clean_text, Wanted.clean_describe, hahead, and_true]
      constructor <;> exact clean_literal rfl (by decide)
  | duplicate name previous | undeclared name =>
      have hname := h name List.mem_cons_self
      simp only [clean_append, clean_text, Ty.clean_name, hname, and_true]
      constructor <;> exact clean_literal rfl (by decide)
  | assignment target declared found sign =>
      have htarget := h target List.mem_cons_self
      simp only [clean_append, clean_text, Ty.clean_name, htarget, and_true, and_assoc]
      refine ⟨?_, ?_, ?_⟩ <;> exact clean_literal rfl (by decide)
  | operands sign left right | nonBoolean sign left right =>
      have hsign := h sign List.mem_cons_self
      simp only [clean_append, clean_text, Ty.clean_name, hsign, and_true, and_assoc]
      refine ⟨?_, ?_, ?_⟩ <;> exact clean_literal rfl (by decide)

theorem Analysis.Note.clean_message {note : Note} (h : CleanTokens note.tokens) :
    Clean note.message := by
  unfold message
  cases note with
  | ofNamespace name | ofClass name | left name =>
      have hname := h name List.mem_cons_self
      simp only [clean_append, clean_text, hname, and_true]
      constructor <;> exact clean_literal rfl (by decide)
  | entered name depth =>
      have hname := h name List.mem_cons_self
      simp only [clean_append, clean_text, Nat.toString_eq_repr, clean_number, hname, and_true,
        and_assoc]
      refine ⟨?_, ?_, ?_⟩ <;> exact clean_literal rfl (by decide)
  | completed globals =>
      simp only [clean_append, clean_text, Nat.toString_eq_repr, clean_number, and_true]
      constructor <;> exact clean_literal rfl (by decide)

/-! ## Scanned texts -/

section Source

variable {source : String} {fault : Fault} {globals : Scope.Table}

theorem cleanTokens_of_source (h : Clean source) : CleanTokens (Scan.tokens source) := by
  intro token htoken hescape
  obtain ⟨ahead, behind, _, _, hsource, _⟩ := Scan.exists_place_of_mem_tokens htoken
  refine h ?_
  rw [hsource]
  exact List.mem_append_left _ (List.mem_append_right _ hescape)

theorem clean_message_of_source (h : Clean source)
    (hfault : Command.analyzeText source = .error fault) : Clean fault.message :=
  Fault.clean_message fun token htoken =>
    cleanTokens_of_source h token (Analysis.tokens_of_analyze_error hfault htoken)

theorem clean_global_of_source (h : Clean source)
    (hglobals : Command.analyzeText source = .ok globals) {entry : String × Ty}
    (hentry : entry ∈ globals.entries) : Clean entry.1 := by
  obtain ⟨token, htoken, hname⟩ := Analysis.exists_token_of_global hglobals hentry
  rw [← hname]
  exact cleanTokens_of_source h token htoken

theorem clean_note_of_source (h : Clean source) {note : Analysis.Note}
    (hnote : note ∈ Analysis.notes (Scan.tokens source)) : Clean note.message :=
  Analysis.Note.clean_message fun token htoken =>
    cleanTokens_of_source h token (Analysis.tokens_of_mem_notes hnote htoken)

end Source

/-! ## Remarks -/

namespace Console

namespace Remark

theorem clean_scanned (token : Token) : Clean (scanned token).message := by
  unfold message
  simp only [clean_append, clean_text, Nat.toString_eq_repr, clean_number, Kind.clean_name,
    Text.clean_quoted, and_true, true_and]
  refine ⟨?_, ?_, ?_⟩ <;> exact clean_literal rfl (by decide)

theorem clean_skipped (char : Char) (position : Position) :
    Clean (skipped char position).message := by
  change Clean (Scan.strayMessage char position)
  unfold Scan.strayMessage
  simp only [clean_append, clean_text, Nat.toString_eq_repr, clean_number,
    Text.clean_visibleChar, and_true, and_assoc]
  refine ⟨?_, ?_, ?_⟩ <;> exact clean_literal rfl (by decide)

theorem clean_counted (tokens strays : Nat) : Clean (counted tokens strays).message := by
  unfold message
  simp only [clean_append, clean_text, Nat.toString_eq_repr, clean_number, and_true, true_and]
  constructor <;> exact clean_literal rfl (by decide)

theorem clean_saved {path : String} (size : Nat) (h : Clean path) :
    Clean (saved size path).message := by
  unfold message
  simp only [clean_append, clean_text, Nat.toString_eq_repr, clean_number, h, and_true]
  constructor <;> exact clean_literal rfl (by decide)

theorem clean_ofItem (item : Scan.Item) : Clean (ofItem item).message := by
  cases item with
  | token found => exact clean_scanned found
  | stray char position => exact clean_skipped char position

end Remark

end Console

/-! ## Reports for a reader -/

namespace Report

open Console (plain bold red redBold greenBold yellow dim)

variable {source : String}

theorem clean_shownLexeme {lexeme : String} (h : Clean lexeme) :
    Clean (shownLexeme lexeme) := by
  have hchars : ∀ char ∈ lexeme.toList, escape ∉ shownChar char := by
    intro char hchar
    have hne : escape ≠ char := fun heq => h (heq ▸ hchar)
    unfold shownChar
    split
    · decide
    · decide
    · decide
    · simpa using hne
  simpa [shownLexeme] using hchars

theorem clean_row {width : Nat} {lexeme kind line : String} (hlexeme : Clean lexeme)
    (hkind : Clean kind) (hline : Clean line) : Clean (row width lexeme kind line) := by
  have hgap : Clean "  " := clean_literal rfl (by decide)
  simp [row, hlexeme, hkind, hline, hgap]

theorem clean_tokenTable {tokens : List Token} (h : CleanTokens tokens) :
    CleanLines (tokenTable tokens) := by
  have hheader : Clean (row (lexemeWidth tokens) "Lexeme" "Kind" "Line") :=
    clean_row (clean_literal rfl (by decide)) (clean_literal rfl (by decide))
      (clean_literal rfl (by decide))
  rw [tokenTable, cleanLines_cons]
  refine ⟨by simpa [bold] using hheader, fun line hline => ?_⟩
  obtain ⟨token, htoken, rfl⟩ := List.mem_map.mp hline
  have hrow : Clean (tokenRow (lexemeWidth tokens) token) :=
    clean_row (clean_shownLexeme (h token htoken)) token.kind.clean_name (clean_number _)
  simpa [plain] using hrow

@[simp] theorem clean_gutter (number : Nat) : Clean (gutter number) := by
  have hbar : Clean " | " := clean_literal rfl (by decide)
  simp [gutter, hbar]

theorem clean_snippet (h : Clean source) (position : Position) :
    CleanLines (snippet source position) := by
  have hframe : Clean "     |" := clean_literal rfl (by decide)
  have hpoint : Clean "^" := clean_literal rfl (by decide)
  have hmarker : Clean (marker position) := by simp [marker, hpoint]
  have hhere : Clean " error here" := clean_literal rfl (by decide)
  unfold snippet
  split
  · exact cleanLines_nil
  · rename_i text htext
    have hline : Clean text := Text.clean_of_mem_lines h (List.mem_of_getElem? htext)
    simp [plain, dim, red, hframe, hmarker, hhere, hline]

@[simp] theorem clean_hint {text : String} :
    (∀ span ∈ hint text, Clean span.text) ↔ Clean text := by
  simp [hint, yellow]

@[simp] theorem clean_detail {text : String} :
    (∀ span ∈ detail text, Clean span.text) ↔ Clean text := by
  have hindent : Clean "    " := clean_literal rfl (by decide)
  simp [detail, plain, dim, hindent]

theorem clean_syntaxAdvice (message : String) : CleanLines (syntaxAdvice message) := by
  unfold syntaxAdvice
  split
  · simp only [cleanLines_cons, cleanLines_nil, clean_hint, clean_detail, and_true]
    constructor <;> exact clean_literal rfl (by decide)
  repeat
    split
    · simp only [cleanLines_cons, cleanLines_nil, clean_hint, and_true]
      exact clean_literal rfl (by decide)
  exact cleanLines_nil

theorem clean_advice (failure : Failure) : CleanLines (advice failure) := by
  unfold advice
  split
  · simp only [cleanLines_cons, cleanLines_nil, clean_hint, clean_detail, and_true]
    refine ⟨?_, ?_, ?_⟩ <;> exact clean_literal rfl (by decide)
  · split
    · simp only [cleanLines_cons, cleanLines_nil, clean_hint, clean_detail, and_true]
      constructor <;> exact clean_literal rfl (by decide)
    · simp only [cleanLines_cons, cleanLines_nil, clean_hint, and_true]
      exact clean_literal rfl (by decide)
  · split
    · simp only [cleanLines_cons, cleanLines_nil, clean_hint, clean_detail, and_true]
      refine ⟨?_, ?_, ?_⟩ <;> exact clean_literal rfl (by decide)
    · simp only [cleanLines_cons, cleanLines_nil, clean_hint, clean_detail, and_true]
      constructor <;> exact clean_literal rfl (by decide)
  · exact clean_syntaxAdvice failure.message

theorem clean_failureLines {failure : Failure} (h : Clean source)
    (hmessage : Clean failure.message) : CleanLines (failureLines source failure) := by
  have hcolon : Clean ": " := clean_literal rfl (by decide)
  have hplace : Clean s!"  --> line {failure.position.line}, column {failure.position.column}" := by
    simp only [clean_append, clean_text, Nat.toString_eq_repr, clean_number, and_true]
    constructor <;> exact clean_literal rfl (by decide)
  simp only [failureLines, cleanLines_append, cleanLines_cons, List.forall_mem_cons, plain, red,
    redBold, FailureKind.clean_label, hcolon, hplace, hmessage, clean_snippet h, clean_advice]
  simp

theorem clean_symbolLines {globals : Scope.Table}
    (h : ∀ entry ∈ globals.entries, Clean entry.1) :
    CleanLines (symbolLines globals) := by
  unfold symbolLines
  split
  · have hnone : Clean "<no global symbols>" := clean_literal rfl (by decide)
    simp [dim, hnone]
  · intro line hline
    obtain ⟨⟨name, ty⟩, hentry, rfl⟩ := List.mem_map.mp hline
    have hname : Clean name := h _ hentry
    have htype : Clean s!": {ty.name}" := by
      simp only [clean_append, clean_text, Ty.clean_name, and_true]
      exact clean_literal rfl (by decide)
    simp [yellow, plain, hname, htype]

theorem clean_verdict (h : Clean source) (symbols : Bool) :
    (verdict symbols source (Command.analyzeText source)).Clean := by
  cases hresult : Command.analyzeText source with
  | ok globals =>
      have htitle : Clean "Analysis completed successfully" := clean_literal rfl (by decide)
      have hsymbols : CleanLines (symbolLines globals) :=
        clean_symbolLines fun entry hentry => clean_global_of_source h hresult hentry
      refine Console.Transcript.clean_say ?_
      cases symbols <;> simp [greenBold, htitle, hsymbols]
  | error fault =>
      exact Console.Transcript.clean_complain
        (clean_failureLines h (clean_message_of_source h hresult))

end Report

/-! ## Documents -/

namespace Json

theorem escape_not_mem_escape (char : Char) : Console.escape ∉ escape char := by
  unfold escape
  split
  · rename_i letter hletter
    unfold shortEscape? at hletter
    split at hletter <;> cases hletter <;> decide
  · split
    · rename_i hcontrol
      have hhigh := Text.escape_ne_digitChar (char.toNat / 16) (by omega)
      have hlow := Text.escape_ne_digitChar (char.toNat % 16) (Nat.mod_lt _ (by decide))
      have hfront : Console.escape ∉ ['\\', 'u', '0', '0'] := by decide
      simpa [hexDigit, hhigh, hlow] using hfront
    · rename_i hshown
      have hne : Console.escape ≠ char := by
        rintro rfl
        exact hshown (by decide)
      simpa using hne

theorem escape_not_mem_writeText (value : String) : Console.escape ∉ writeText value := by
  have hquote : Console.escape ≠ '"' := by decide
  simp [writeText, escape_not_mem_escape, hquote]

theorem escape_not_mem_writeNumber (value : Nat) : Console.escape ∉ writeNumber value :=
  clean_ofList.mp (clean_number value)

theorem escape_not_mem_newLine (level : Nat) : Console.escape ∉ newLine level := by
  simp [newLine, Console.escape]

theorem escape_ne_mark :
    ∀ mark ∈ ['[', ']', '\x7b', '\x7d', ':', ',', ' '], Console.escape ≠ mark := by
  simp [Console.escape]

mutual

/-- Written JSON has no escape character, whatever the strings in it have. -/
theorem escape_not_mem_write : ∀ (document : Json) (level : Nat),
    Console.escape ∉ document.write level
  | .text value, level => by
      rw [write]
      exact escape_not_mem_writeText value
  | .number value, level => by
      rw [write]
      exact escape_not_mem_writeNumber value
  | .list [], level => by
      simp [write, escape_ne_mark]
  | .list (item :: rest), level => by
      simp [write, escape_ne_mark, escape_not_mem_newLine, escape_not_mem_write item,
        escape_not_mem_writeItems rest]
  | .record [], level => by
      simp [write, escape_ne_mark]
  | .record ((key, value) :: rest), level => by
      simp [write, escape_ne_mark, escape_not_mem_newLine, escape_not_mem_writeText,
        escape_not_mem_write value, escape_not_mem_writeFields rest]

theorem escape_not_mem_writeItems : ∀ (items : List Json) (level : Nat),
    Console.escape ∉ writeItems level items
  | [], level => by
      simp [writeItems]
  | item :: rest, level => by
      simp [writeItems, escape_ne_mark, escape_not_mem_newLine, escape_not_mem_write item,
        escape_not_mem_writeItems rest]

theorem escape_not_mem_writeFields : ∀ (fields : List (String × Json)) (level : Nat),
    Console.escape ∉ writeFields level fields
  | [], level => by
      simp [writeFields]
  | (key, value) :: rest, level => by
      simp [writeFields, escape_ne_mark, escape_not_mem_newLine, escape_not_mem_writeText,
        escape_not_mem_write value, escape_not_mem_writeFields rest]

end

theorem clean_pretty (document : Json) : Clean document.pretty :=
  clean_ofList.mpr (escape_not_mem_write document 0)

end Json

end Classlet
