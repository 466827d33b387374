import Classlet.Proofs.Scan.Surroundings

/-!
# Respacing

A lexeme cut out of its text is found again when a blank follows it, or nothing
does.  The one exception is a comment up to the end of the line, which takes a
blank that is not a newline into its lexeme.  So the tokens of a text, written
one after the other with blanks in between, are the tokens of what is written.
-/

namespace Classlet.Scan

/-! ## Tokens out of their text -/

/-- Nothing follows, or a blank, and that is the end of the line behind a line comment. -/
def Ends (kind : Kind) (more : List Char) : Prop :=
  ∀ char ∈ more.head?, Text.isBlank char = true ∧ (kind = .comment .line → char = '\n')

theorem Ends.replaces {kind : Kind} {rest more : List Char} (h : Ends kind more)
    (hend : rest = [] → more = []) : Replaces kind rest more :=
  .of_blank (fun char hchar => (h char hchar).1) hend
    fun hline char hchar => (h char hchar).2 hline

/-- In front of `more`, the lexeme of the token is what is cut off. -/
structure Recurs (token : Token) (more : List Char) : Prop where
  first : ∀ char ∈ token.lexeme.toList.head?, Text.isBlank char = false
  lexeme : Lexeme (token.lexeme.toList ++ more) token.kind token.lexeme.toList

theorem Recurs.itemsAfter {token : Token} {more : List Char} (h : Recurs token more)
    (position : Position) :
    itemsAfter 0 position (token.lexeme.toList ++ more) =
      .token { token with position } ::
        Scan.itemsAfter 0 (position.past token.lexeme.toList) more := by
  obtain ⟨hfirst, hlexeme⟩ := h
  have hcut := cut?_eq_some_iff.mpr ⟨hlexeme, rfl⟩
  obtain ⟨char, chars, hchars⟩ := List.exists_cons_of_ne_nil (cut?_lexeme_ne_nil hcut)
  have htoken : String.ofList token.lexeme.toList = token.lexeme := String.ofList_toList
  simp only at hchars
  rw [hchars] at hfirst hcut ⊢
  rw [hchars] at htoken
  rw [List.cons_append] at hcut ⊢
  rw [itemsAfter_token (hfirst char rfl) hcut, htoken]

theorem recurs_of_lexeme {char : Char} {text lexeme rest : List Char} {kind : Kind}
    {position : Position} (hblank : Text.isBlank char = false)
    (hlexeme : Lexeme (char :: text) kind lexeme) (hrest : char :: text = lexeme ++ rest)
    {more : List Char} (hends : Ends kind more) (hend : rest = [] → more = []) :
    Recurs ⟨kind, String.ofList lexeme, position⟩ more := by
  have hne : lexeme ≠ [] := cut?_lexeme_ne_nil (cut?_eq_some_iff.mpr ⟨hlexeme, hrest⟩)
  have hbefore := hlexeme.before hrest (hends.replaces hend)
  obtain ⟨first, others, rfl⟩ := List.exists_cons_of_ne_nil hne
  cases hrest
  refine ⟨?_, ?_⟩
  · simpa using hblank
  · simpa using hbefore

/-- All tokens of a text recur at its end, and all but the last one in front of a blank. -/
theorem Lexes.recurs {position : Position} {text : List Char} {found : List Item}
    (h : Lexes position text found) :
    (∀ token ∈ tokensOf found, Recurs token []) ∧
      ∀ token ∈ (tokensOf found).dropLast, ∀ more, Ends token.kind more → Recurs token more := by
  induction h with
  | done => simp [tokensOf]
  | blank _ _ ih => exact ih
  | stray _ _ _ ih => exact ih
  | @token position char text lexeme rest kind found hblank hlexeme hrest hfound ih =>
      let token : Token := ⟨kind, String.ofList lexeme, position⟩
      have htokens : tokensOf (.token token :: found) = token :: tokensOf found := rfl
      rw [htokens]
      constructor
      · refine List.forall_mem_cons.mpr ⟨?_, ih.1⟩
        exact recurs_of_lexeme hblank hlexeme hrest (by simp [Ends]) fun _ => rfl
      · intro other hother
        cases hmore : tokensOf found with
        | nil =>
            rw [hmore] at hother
            cases hother
        | cons next others =>
            rw [hmore, List.dropLast_cons_cons, ← hmore] at hother
            rcases List.mem_cons.mp hother with rfl | hother
            · refine fun more hends => recurs_of_lexeme hblank hlexeme hrest hends ?_
              rintro rfl
              cases hfound
              cases hmore
            · exact ih.2 other hother

/-! ## Written anew -/

/-- What an item is, wherever it stands. -/
def shape (token : Token) : Kind × String :=
  (token.kind, token.lexeme)

/-- Blanks that keep a lexeme of the kind apart from the next one. -/
structure Parts (kind : Kind) (gap : List Char) : Prop where
  ne_nil : gap ≠ []
  blank : ∀ char ∈ gap, Text.isBlank char = true
  newline : kind = .comment .line → gap.head? = some '\n'

/-- The lexemes of the tokens in order, with a gap between each and the next. -/
inductive Respaced : List Token → List Char → Prop where
  | nil : Respaced [] []
  | last {token : Token} : Respaced [token] token.lexeme.toList
  | cons {token next : Token} {tokens : List Token} {gap chars : List Char}
      (hgap : Parts token.kind gap) (h : Respaced (next :: tokens) chars) :
      Respaced (token :: next :: tokens) (token.lexeme.toList ++ (gap ++ chars))

theorem Parts.ends {kind : Kind} {gap chars : List Char} (h : Parts kind gap) :
    Ends kind (gap ++ chars) := by
  obtain ⟨hne, hblank, hnewline⟩ := h
  obtain ⟨first, others, rfl⟩ := List.exists_cons_of_ne_nil hne
  intro char hchar
  cases hchar
  exact ⟨hblank first (by simp), fun hline => Option.some.inj (hnewline hline)⟩

theorem itemsAfter_gap {gap : List Char} (hgap : ∀ char ∈ gap, Text.isBlank char = true)
    (position : Position) (rest : List Char) :
    itemsAfter 0 position (gap ++ rest) = itemsAfter 0 (position.past gap) rest := by
  induction gap generalizing position with
  | nil => rfl
  | cons char gap ih =>
      obtain ⟨hchar, hgap⟩ := List.forall_mem_cons.mp hgap
      rw [List.cons_append, itemsAfter_blank hchar, ih hgap, Position.past_cons]

theorem Respaced.scanned {tokens : List Token} {chars : List Char}
    (h : Respaced tokens chars)
    (hend : ∀ token ∈ tokens, Recurs token [])
    (hblank : ∀ token ∈ tokens.dropLast, ∀ more, Ends token.kind more → Recurs token more)
    (position : Position) :
    (tokensOf (itemsAfter 0 position chars)).map shape = tokens.map shape ∧
      straysOf (itemsAfter 0 position chars) = [] := by
  induction h generalizing position with
  | nil => exact ⟨rfl, rfl⟩
  | @last token =>
      have hitems := (hend token (by simp)).itemsAfter position
      rw [List.append_nil] at hitems
      rw [hitems]
      exact ⟨rfl, rfl⟩
  | @cons token next tokens gap chars hgap _ ih =>
      rw [List.dropLast_cons_cons, List.forall_mem_cons] at hblank
      obtain ⟨hshapes, hstrays⟩ := ih (List.forall_mem_cons.mp hend).2 hblank.2
        ((position.past token.lexeme.toList).past gap)
      rw [(hblank.1 _ hgap.ends).itemsAfter, itemsAfter_gap hgap.blank]
      exact ⟨congrArg (List.cons (shape token)) hshapes, hstrays⟩

/-! ## Single spaces -/

/-- In front of a space, the lexeme of a line comment is not cut off again. -/
theorem head_shape_line {token : Token} (hline : token.kind = .comment .line)
    (hend : Recurs token []) (position : Position) (chars : List Char) :
    ∀ found ∈ (tokensOf (itemsAfter 0 position (token.lexeme.toList ++ ' ' :: chars))).head?,
      shape found ≠ shape token := by
  have hlexeme := hend.lexeme
  rw [hline] at hlexeme
  obtain ⟨_, run, -, hrun, hnewline, -⟩ := hlexeme.line
  have hkeep : ∀ char ∈ run, decide (char ≠ '\n') = true := by
    intro char hchar
    rw [decide_eq_true_iff]
    rintro rfl
    exact hnewline hchar
  have hlonger : (restOfLine (run ++ ' ' :: chars)).1 =
      run ++ ' ' :: chars.takeWhile (· ≠ '\n') := by
    rw [restOfLine, List.takeWhile_append_of_pos hkeep]
    rfl
  have hcut : cut? ('/' :: '/' :: (run ++ ' ' :: chars)) =
      some (cutLineComment (run ++ ' ' :: chars)) := rfl
  have hslash : Text.isBlank '/' = false := rfl
  rw [hrun, List.cons_append, List.cons_append, itemsAfter_token hslash hcut, cutLineComment,
    hlonger]
  rintro found hfound hshape
  cases hfound
  simp [shape, ← String.toList_inj, hrun] at hshape

theorem shapes_spaced {tokens : List Token} (hend : ∀ token ∈ tokens, Recurs token [])
    (hblank : ∀ token ∈ tokens.dropLast, ∀ more, Ends token.kind more → Recurs token more)
    (position : Position) :
    (tokensOf (itemsAfter 0 position
        (" ".intercalate (tokens.map Token.lexeme)).toList)).map shape = tokens.map shape ↔
      ∀ token ∈ tokens.dropLast, token.kind ≠ .comment .line := by
  induction tokens generalizing position with
  | nil => simp [itemsAfter, scanAfter, tokensOf]
  | cons token tokens ih =>
      cases tokens with
      | nil =>
          have hlast : Respaced [token] token.lexeme.toList := .last
          simpa using (hlast.scanned hend hblank position).1
      | cons next tokens =>
          rw [List.dropLast_cons_cons, List.forall_mem_cons] at hblank ⊢
          rw [List.forall_mem_cons] at hend
          have hchars : (" ".intercalate ((token :: next :: tokens).map Token.lexeme)).toList =
              token.lexeme.toList ++
                ' ' :: (" ".intercalate ((next :: tokens).map Token.lexeme)).toList := by
            simp [String.toList_intercalate]
          rw [hchars]
          by_cases hline : token.kind = .comment .line
          · have hhead := head_shape_line hline hend.1 position
              (" ".intercalate ((next :: tokens).map Token.lexeme)).toList
            refine iff_of_false (fun hshapes => ?_) fun hnone => hnone.1 hline
            obtain ⟨found, others, hfound, hshape, -⟩ := List.map_eq_cons_iff.mp hshapes
            exact hhead found (by rw [hfound]; rfl) hshape
          · have hends : Ends token.kind
                (' ' :: (" ".intercalate ((next :: tokens).map Token.lexeme)).toList) := by
              intro char hchar
              cases hchar
              exact ⟨rfl, fun hcomment => absurd hcomment hline⟩
            rw [(hblank.1 _ hends).itemsAfter, itemsAfter_blank rfl]
            have hrest := ih hend.2 hblank.2 ((position.past token.lexeme.toList).next ' ')
            have hcons (items : List Item) :
                (tokensOf (.token { token with position } :: items)).map shape =
                    (token :: next :: tokens).map shape ↔
                  (tokensOf items).map shape = (next :: tokens).map shape :=
              List.cons_inj_right (shape token)
            rw [hcons, hrest]
            exact ⟨fun hnone => ⟨hline, hnone⟩, And.right⟩

/--
The lexemes of a text, written with blanks between them, scan to the same kinds
and lexemes and to nothing else, if a newline comes first behind each line
comment.  With single spaces they do so just in case no token stands behind a
line comment.
-/
theorem tokens_respaced (text : String) :
    (∀ lead chars, (∀ char ∈ lead, Text.isBlank char = true) → Respaced (tokens text) chars →
      (tokens (String.ofList (lead ++ chars))).map shape = (tokens text).map shape ∧
        strays (String.ofList (lead ++ chars)) = []) ∧
    ((tokens (" ".intercalate ((tokens text).map Token.lexeme))).map shape =
        (tokens text).map shape ↔
      ∀ token ∈ (tokens text).dropLast, token.kind ≠ .comment .line) := by
  obtain ⟨hend, hblank⟩ := (lexes_itemsAfter .start text.toList).recurs
  constructor
  · intro lead chars hlead hchars
    have hscanned := hchars.scanned hend hblank (Position.start.past lead)
    rw [← itemsAfter_gap hlead] at hscanned
    have hitems : items (String.ofList (lead ++ chars)) = itemsAfter 0 .start (lead ++ chars) := by
      rw [items, Scanner.ofText, Scanner.run, String.toList_ofList, itemsAfter]
    rw [tokens, strays, hitems]
    exact hscanned
  · exact shapes_spaced hend hblank .start

theorem respaced_behind_line_comment :
    Respaced (tokens "x//a\n;") "x\t//a\n ;".toList ∧
      (tokens " x\t//a\n ;").map shape = (tokens "x//a\n;").map shape ∧
      strays " x\t//a\n ;" = [] ∧
      (tokens "x //a ;").map shape ≠ (tokens "x//a\n;").map shape := by
  let name : Token := ⟨.identifier, "x", ⟨1, 1⟩⟩
  let line : Token := ⟨.comment .line, "//a", ⟨1, 2⟩⟩
  let stop : Token := ⟨.semicolon, ";", ⟨2, 1⟩⟩
  have htokens : tokens "x//a\n;" = [name, line, stop] := by decide +kernel
  have hspace : ∀ char ∈ [' '], Text.isBlank char = true :=
    List.forall_mem_singleton.mpr rfl
  have htab : ∀ char ∈ ['\t'], Text.isBlank char = true := List.forall_mem_singleton.mpr rfl
  have hname : Parts name.kind ['\t'] := ⟨by simp, htab, by simp [name]⟩
  have hline : Parts line.kind ['\n', ' '] :=
    ⟨by simp, List.forall_mem_cons.mpr ⟨rfl, hspace⟩, fun _ => rfl⟩
  have hchars : Respaced (tokens "x//a\n;") "x\t//a\n ;".toList := by
    have hwritten : "x\t//a\n ;".toList = name.lexeme.toList ++ (['\t'] ++
        (line.lexeme.toList ++ (['\n', ' '] ++ stop.lexeme.toList))) := by
      decide +kernel
    rw [htokens, hwritten]
    exact .cons hname (.cons hline .last)
  obtain ⟨hblanks, hspaces⟩ := tokens_respaced "x//a\n;"
  obtain ⟨hshapes, hstrays⟩ := hblanks [' '] _ hspace hchars
  have hspaced : " ".intercalate ((tokens "x//a\n;").map Token.lexeme) = "x //a ;" := by
    decide +kernel
  rw [hspaced, htokens] at hspaces
  refine ⟨hchars, hshapes, hstrays, fun hsame => ?_⟩
  rw [htokens] at hsame
  exact hspaces.mp hsame line (by simp) rfl

end Classlet.Scan
