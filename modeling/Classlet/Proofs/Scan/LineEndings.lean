import Classlet.Proofs.Analysis.Relabelling
import Classlet.Proofs.Scan.Layout
import Classlet.Proofs.Scan.Respacing

/-!
# Line endings

A carriage return before a newline is one more blank at the end of the line, so it
moves nothing on the next one.  Only where a lexeme goes over the end of a line does it
take the carriage return in, and a line comment takes it in although it ends before the
newline.  Names and numbers do not change, hence the analysis does not either.
-/

namespace Classlet.Scan

/-! ## Carriage returns -/

/-- The text with a carriage return before each newline. -/
def withReturns (text : List Char) : List Char :=
  text.flatMap fun char => if char = '\n' then ['\r', '\n'] else [char]

def returned (text : String) : String :=
  String.ofList (withReturns text.toList)

section Returns

variable {char : Char} {rest text : List Char}

theorem withReturns_nil : withReturns [] = [] := rfl

theorem withReturns_newline (rest : List Char) :
    withReturns ('\n' :: rest) = '\r' :: '\n' :: withReturns rest := rfl

theorem withReturns_cons (h : char ≠ '\n') (rest : List Char) :
    withReturns (char :: rest) = char :: withReturns rest := by
  simp [withReturns, h]

theorem withReturns_append (front back : List Char) :
    withReturns (front ++ back) = withReturns front ++ withReturns back :=
  List.flatMap_append

theorem withReturns_of_not_mem (h : '\n' ∉ text) : withReturns text = text := by
  induction text with
  | nil => rfl
  | cons char rest ih =>
      obtain ⟨hchar, hrest⟩ := not_or.mp (List.mem_cons.not.mp h)
      rw [withReturns_cons (Ne.symm hchar), ih hrest]

theorem withReturns_of_not_blank (h : ∀ char ∈ text, Text.isBlank char = false) :
    withReturns text = text :=
  withReturns_of_not_mem fun hmem => by cases h '\n' hmem

/-- What follows a newline begins at the same place as before. -/
theorem past_withReturns (position : Position) (text : List Char) :
    position.past (withReturns text) = position.past text := by
  induction text generalizing position with
  | nil => rfl
  | cons char rest ih =>
      by_cases hchar : char = '\n'
      · subst hchar
        exact ih ⟨position.line + 1, 1⟩
      · rw [withReturns_cons hchar]
        exact ih (position.next char)

theorem begins_withReturns (rest : List Char) : Begins (withReturns rest) rest := by
  induction rest with
  | nil => exact .nil
  | cons char rest ih =>
      by_cases hchar : char = '\n'
      · subst hchar
        exact .blank rfl
      · rw [withReturns_cons hchar]
        exact .cons ih

theorem replaces_withReturns {kind : Kind} (hline : kind ≠ .comment .line) :
    Replaces kind rest (withReturns rest) where
  begins _ := (begins_withReturns rest).prefix_of
  ends hrest := by rw [hrest, withReturns_nil]
  newline h := absurd h hline

theorem head?_withReturns (hchar : char ∈ (withReturns rest).head?) :
    char ∈ rest.head? ∨
      Text.isBlank char = true ∧ ∃ other ∈ rest.head?, Text.isBlank other = true := by
  cases rest with
  | nil => cases hchar
  | cons first rest =>
      by_cases hfirst : first = '\n'
      · subst hfirst
        cases hchar
        exact .inr ⟨rfl, '\n', rfl, rfl⟩
      · rw [withReturns_cons hfirst] at hchar
        exact .inl hchar

end Returns

/-! ## Lexemes -/

theorem throughQuote_withReturns {quote : Char} (hnewline : quote ≠ '\n')
    (hreturn : quote ≠ '\r')
    (text : List Char) :
    (throughQuote quote (withReturns text)).1 = withReturns (throughQuote quote text).1 := by
  induction text with
  | nil => rfl
  | cons char rest ih =>
      by_cases hchar : char = '\n'
      · subst hchar
        simp [withReturns_newline, throughQuote, hnewline.symm, hreturn.symm, ih]
      · rw [withReturns_cons hchar, throughQuote, throughQuote]
        split
        · rw [withReturns_cons hchar, withReturns_nil]
        · rw [withReturns_cons hchar, ih]

theorem throughClose_cons {char : Char} {rest : List Char}
    (h : char = '*' → rest.head? ≠ some '/') :
    (throughClose (char :: rest)).1 = char :: (throughClose rest).1 := by
  rw [throughClose]
  rintro others rfl rfl
  exact h rfl rfl

theorem throughClose_withReturns (text : List Char) :
    (throughClose (withReturns text)).1 = withReturns (throughClose text).1 := by
  fun_induction throughClose text with
  | case1 => rfl
  | case2 rest => rfl
  | case3 char rest hclose ih =>
      by_cases hchar : char = '\n'
      · subst hchar
        rw [withReturns_newline, withReturns_newline, throughClose_cons (by simp),
          throughClose_cons (by simp), ih]
      · rw [withReturns_cons hchar, withReturns_cons hchar, throughClose_cons, ih]
        rintro rfl hslash
        rcases head?_withReturns hslash with hhead | ⟨hblank, -⟩
        · obtain ⟨others, rfl⟩ := List.head?_eq_some_iff.mp hhead
          exact hclose others rfl rfl
        · cases hblank

/-- What a line comment takes in from behind it. -/
def lineReturn (kind : Kind) (rest : List Char) : List Char :=
  if kind = .comment .line ∧ rest.head? = some '\n' then ['\r'] else []

section Lexeme

variable {text lexeme rest : List Char} {kind : Kind}

theorem lineReturn_of_ne (h : kind ≠ .comment .line) (rest : List Char) :
    lineReturn kind rest = [] :=
  if_neg fun hline => h hline.1

theorem Lexeme.withReturns_line (h : Lexeme text (.comment .line) lexeme)
    (htext : text = lexeme ++ rest) :
    Lexeme (withReturns text) (.comment .line)
      (withReturns lexeme ++ lineReturn (.comment .line) rest) := by
  obtain ⟨after, run, rfl, rfl, hnone, -⟩ := h.line
  have hsame : withReturns ('/' :: '/' :: run) = '/' :: '/' :: run :=
    withReturns_of_not_mem (by simp [hnone])
  rw [htext, withReturns_append, hsame]
  cases rest with
  | nil =>
      have hreturn : lineReturn (.comment .line) [] = [] := rfl
      rw [hreturn, withReturns_nil, List.append_nil]
      exact .lineComment ⟨hnone, .inl rfl⟩
  | cons char rest =>
      obtain rfl : char = '\n' := h.newline_behind htext
      have hrun : '\n' ∉ run ++ ['\r'] := by simp [hnone]
      have hreturn : lineReturn (.comment .line) ('\n' :: rest) = ['\r'] := rfl
      rw [hreturn, withReturns_newline]
      exact .lineComment ⟨hrun, .inr ⟨withReturns rest, by simp⟩⟩

theorem Lexeme.withReturns_plain (h : Lexeme text kind lexeme)
    (htext : text = lexeme ++ rest)
    (hline : kind ≠ .comment .line) (hplain : ∀ char ∈ lexeme, Text.isBlank char = false) :
    Lexeme (withReturns text) kind (withReturns lexeme) := by
  rw [htext, withReturns_append, withReturns_of_not_blank hplain]
  exact h.before htext (replaces_withReturns hline)

theorem Lexeme.withReturns (h : Lexeme text kind lexeme) (htext : text = lexeme ++ rest) :
    Lexeme (withReturns text) kind (withReturns lexeme ++ lineReturn kind rest) := by
  by_cases hline : kind = .comment .line
  · subst hline
    exact h.withReturns_line htext
  · rw [lineReturn_of_ne hline, List.append_nil]
    have hwhole := h
    cases h with
    | word _ hlongest => exact hwhole.withReturns_plain htext hline fun _ => hlongest.1.2.not_blank
    | number _ hlongest =>
        exact hwhole.withReturns_plain htext hline fun _ => hlongest.1.2.not_blank
    | pair _ hkind | mark _ _ hkind =>
        exact hwhole.withReturns_plain htext hline fun _ hmem => (symbol_character hkind hmem).1
    | lineComment => exact absurd rfl hline
    | @string after run hrun =>
        rw [withReturns_cons (by decide), withReturns_cons (by decide),
          hrun.unique (through_quote '"' after),
          ← throughQuote_withReturns (by decide) (by decide)]
        exact .string (through_quote '"' _)
    | @blockComment after run hrun =>
        rw [withReturns_cons (by decide), withReturns_cons (by decide),
          withReturns_cons (by decide), withReturns_cons (by decide),
          hrun.unique (through_close after), ← throughClose_withReturns]
        exact .blockComment (through_close _)
    | @char first after run hfirst hrun =>
        rw [withReturns_cons (by decide) (first :: after), withReturns_cons (by decide) run,
          hrun.unique (through_quote '\'' _), ← throughQuote_withReturns (by decide) (by decide)]
        by_cases hnewline : first = '\n'
        · subst hnewline
          exact .char (by decide) (through_quote '\'' _)
        · rw [withReturns_cons hnewline]
          exact .char hfirst (through_quote '\'' _)

end Lexeme

/-! ## Texts -/

/--
`other` stands for `token`, which a carriage return before each newline of its text
left where it was.  It has one before each of its own newlines, and a line comment has
one at its end if a newline follows.
-/
structure Returned (text : List Char) (token other : Token) : Prop where
  kind : other.kind = token.kind
  position : other.position = token.position
  lexeme : ∃ before after, text = before ++ token.lexeme.toList ++ after ∧
    token.position = placeAfter before ∧
    other.lexeme.toList = withReturns token.lexeme.toList ++ lineReturn token.kind after

section Texts

variable {position : Position} {text : List Char} {items : List Item}

theorem Lexes.behind_lineReturn {lexeme rest : List Char} (kind : Kind)
    (h : Lexes (position.past lexeme) (withReturns rest) items) :
    ∃ after, withReturns rest = lineReturn kind rest ++ after ∧
      Lexes (position.past (withReturns lexeme ++ lineReturn kind rest)) after items := by
  rw [Position.past_append, past_withReturns]
  by_cases hreturn : kind = .comment .line ∧ rest.head? = some '\n'
  · obtain ⟨others, rfl⟩ := List.head?_eq_some_iff.mp hreturn.2
    rw [lineReturn, if_pos hreturn]
    exact ⟨'\n' :: withReturns others, rfl, h.of_blank rfl⟩
  · rw [lineReturn, if_neg hreturn]
    exact ⟨withReturns rest, rfl, h⟩

theorem Lexes.exists_returned (h : Lexes position text items) {whole before : List Char}
    (hwhole : whole = before ++ text) (hposition : position = placeAfter before) :
    ∃ others, Lexes position (withReturns text) others ∧
      List.Forall₂ (Returned whole) (tokensOf items) (tokensOf others) ∧
      straysOf others = straysOf items := by
  induction h generalizing before with
  | done => exact ⟨[], .done, .nil, rfl⟩
  | @blank position char rest items hblank _ ih =>
      obtain ⟨others, hothers, hsame⟩ := @ih (before ++ [char]) (by simp [hwhole])
        (by rw [hposition, next_placeAfter])
      refine ⟨others, ?_, hsame⟩
      by_cases hchar : char = '\n'
      · subst hchar
        exact .blank rfl (.blank rfl hothers)
      · rw [withReturns_cons hchar]
        exact .blank hblank hothers
  | @stray position char rest items hblank hnone _ ih =>
      obtain ⟨others, hothers, htokens, hstrays⟩ :=
        @ih (before ++ [char]) (by simp [hwhole])
        (by rw [hposition, next_placeAfter])
      have hchar : char ≠ '\n' := by
        rintro rfl
        cases hblank
      refine ⟨.stray char position :: others, ?_, htokens, congrArg (List.cons _) hstrays⟩
      rw [withReturns_cons hchar]
      exact .stray hblank (stray_of_head? (fun _ => head?_withReturns) hnone) hothers
  | @token position char text lexeme rest kind items hblank hlexeme htext _ ih =>
      obtain ⟨others, hothers, htokens, hstrays⟩ :=
        @ih (before ++ lexeme) (by simp [hwhole, htext])
        (by rw [hposition, past_placeAfter])
      -- a carriage return that goes to the lexeme is not the blank in front of the rest
      obtain ⟨after, hafter, hothers⟩ := hothers.behind_lineReturn kind
      have hlexeme := hlexeme.withReturns htext
      have hchar : char ≠ '\n' := by
        rintro rfl
        cases hblank
      have hwhole : whole = before ++ lexeme ++ rest := by simp [hwhole, htext]
      have hcut : withReturns (char :: text) =
          (withReturns lexeme ++ lineReturn kind rest) ++ after := by
        rw [htext, withReturns_append, hafter, List.append_assoc]
      rw [withReturns_cons hchar] at hlexeme hcut ⊢
      refine ⟨_, .token hblank hlexeme hcut hothers, ?_, hstrays⟩
      refine .cons ⟨rfl, rfl, before, rest, ?_, hposition, ?_⟩ htokens
      · simpa using hwhole
      · simp

theorem Returned.relabels {whole : List Char} {token other : Token}
    (hrecurs : Recurs token []) (h : Returned whole token other) :
    token.Relabels id id other := by
  have hsame (htext : isText token.kind = false) : other.lexeme = token.lexeme := by
    obtain ⟨before, after, -, -, hlexeme⟩ := h.lexeme
    have hline : token.kind ≠ .comment .line := by
      intro hline
      rw [hline] at htext
      cases htext
    rw [lineReturn_of_ne hline, List.append_nil,
      withReturns_of_not_blank (hrecurs.lexeme.not_blank htext)] at hlexeme
    exact String.toList_inj.mp hlexeme
  refine ⟨h.kind, h.position, fun hname => ?_, fun hnumber => ?_⟩
  · exact hsame (by rw [hname]; rfl)
  · rw [hsame (by rw [hnumber]; rfl)]

/-- What a fault is about and where. -/
def placed (fault : Fault) : FailureKind × Position :=
  (fault.kind, fault.position)

/--
With a carriage return before each newline, a text has the same tokens at the same
places, up to the carriage returns in them, and the same stray characters.  It is
accepted with the same table, or refused with a fault of the same kind at the same place.
-/
theorem returned_scans (text : String) :
    List.Forall₂ (Returned text.toList) (tokens text) (tokens (returned text)) ∧
      strays (returned text) = strays text ∧
      (Analysis.analyze (tokens (returned text))).mapError placed =
        (Analysis.analyze (tokens text)).mapError placed := by
  have hlexes := lexes_itemsAfter .start text.toList
  obtain ⟨others, hothers, htokens, hstrays⟩ :=
    hlexes.exists_returned (List.nil_append _).symm placeAfter_nil.symm
  have hitems : others = items (returned text) := by
    rw [← lexes_iff, returned, String.toList_ofList]
    exact hothers
  subst hitems
  refine ⟨htokens, hstrays, ?_⟩
  let r : Relabelling := ⟨Token.identifiers (tokens text), id, Set.injOn_id _, id⟩
  have hrelabels : List.Forall₂ (Token.Relabels id id) (tokens text) (tokens (returned text)) :=
    ((List.forall₂_and_left _ _).mpr ⟨hlexes.recurs.1, htokens⟩).imp
      fun _ _ h => h.2.relabels h.1
  have hresult :=
    Analysis.onResult_analyze (Analysis.forall₂_onToken (r := r) hrelabels subset_rfl)
  generalize Analysis.analyze (tokens text) = result at hresult
  generalize Analysis.analyze (tokens (returned text)) = other at hresult
  cases hresult with
  | error hfault => exact congrArg Except.error (Prod.ext hfault.kind hfault.position)
  | @ok globals renamed htable =>
      have hentries : renamed.entries = globals.entries := by
        rw [htable.entries]
        exact List.map_id _
      exact congrArg Except.ok (congrArg Scope.Table.mk hentries)

example : (tokens (returned "a//b\n\"\n")).map Token.lexeme = ["a", "//b\r", "\"\r\n"] := by
  decide +kernel

end Texts

end Classlet.Scan
