import Classlet.Proofs.Analysis.Acceptance
import Classlet.Proofs.Command.Sessions
import Classlet.Proofs.Grammar.Nesting
import Classlet.Proofs.Scan.Respacing

/-!
# Braces

The editor counts the braces among the tokens of its buffer and asks for more text while
one is open.  It never asks the analysis, but the two agree: the brackets of a program
are nested, so none is open where it ends.  The tokens that are counted are the brace
characters of the buffer, those inside of literals and comments apart.
-/

namespace Classlet

namespace Scan

/-! ## Brace characters -/

/-- The opening braces less the closing ones. -/
def braceBalance (chars : List Char) : Int :=
  (chars.count '\x7b' : Int) - chars.count '\x7d'

/-- What a token of a kind counts as a brace. -/
def braceOf : Kind → Int
  | .leftBrace => 1
  | .rightBrace => -1
  | _ => 0

@[simp] theorem braceBalance_nil : braceBalance [] = 0 := rfl

@[simp] theorem braceBalance_append (front back : List Char) :
    braceBalance (front ++ back) = braceBalance front + braceBalance back := by
  simp [braceBalance]
  omega

theorem braceBalance_cons (char : Char) (chars : List Char) :
    braceBalance (char :: chars) = braceBalance [char] + braceBalance chars :=
  braceBalance_append [char] chars

theorem braceBalance_eq_zero {chars : List Char}
    (h : ∀ char ∈ chars, char ≠ '\x7b' ∧ char ≠ '\x7d') : braceBalance chars = 0 := by
  have hopening : chars.count '\x7b' = 0 :=
    List.count_eq_zero.mpr fun hmem => (h _ hmem).1 rfl
  have hclosing : chars.count '\x7d' = 0 :=
    List.count_eq_zero.mpr fun hmem => (h _ hmem).2 rfl
  simp [braceBalance, hopening, hclosing]

theorem not_brace_of_word {char : Char} (h : BeginsWord char ∨ IsDigit char) :
    char ≠ '\x7b' ∧ char ≠ '\x7d' := by
  obtain ⟨_, hmost⟩ := bounds_of_word h
  constructor <;> rintro rfl <;> exact absurd hmost (by decide)

theorem not_brace_of_blank {char : Char} (h : Text.isBlank char = true) :
    char ≠ '\x7b' ∧ char ≠ '\x7d' := by
  constructor <;> rintro rfl <;> exact absurd h (by decide)

/-! ## Lexemes -/

theorem words_balance : ∀ entry ∈ Kind.words, braceOf entry.2 = 0 := by
  decide

theorem symbols_balance :
    ∀ entry ∈ Kind.symbols, braceBalance entry.1.toList = braceOf entry.2 := by
  decide +kernel

theorem IsWord.balance {lexeme : List Char} (h : IsWord lexeme) :
    braceBalance lexeme = 0 := by
  obtain ⟨first, rest, rfl, hfirst, hrest⟩ := h
  apply braceBalance_eq_zero
  intro char hchar
  rcases List.mem_cons.mp hchar with rfl | hchar
  · exact not_brace_of_word (.inl hfirst)
  · exact not_brace_of_word (hrest char hchar)

theorem IsNumber.balance {lexeme : List Char} (h : IsNumber lexeme) :
    braceBalance lexeme = 0 := by
  have hdigits {run : List Char} (hrun : IsDigits run) : braceBalance run = 0 :=
    braceBalance_eq_zero fun char hchar => not_brace_of_word (.inr (hrun.2 char hchar))
  obtain ⟨whole, part, mark, rfl, hwhole, hpart, hmark⟩ := h
  have hpartZero : braceBalance part = 0 := by
    rcases hpart with rfl | ⟨decimals, rfl, hdecimals⟩
    · rfl
    · rw [braceBalance_cons, hdigits hdecimals]
      rfl
  have hmarkZero : braceBalance mark = 0 := by
    rcases hmark with rfl | rfl <;> rfl
  simp [hdigits hwhole, hpartZero, hmarkZero]

/-- Only a brace has a brace in its lexeme, unless the lexeme is a text. -/
theorem Lexeme.balance {text lexeme : List Char} {kind : Kind} (h : Lexeme text kind lexeme)
    (htext : isText kind = false) : braceBalance lexeme = braceOf kind := by
  cases h with
  | word hfirst h =>
      rw [h.1.2.balance]
      cases hkind : Kind.ofWord? (String.ofList lexeme) with
      | none => rfl
      | some kind => exact (words_balance _ (mem_words hkind)).symm
  | number hfirst h => exact h.1.2.balance
  | string | char | lineComment | blockComment => cases htext
  | pair hopens h | mark hopens hpair h => simpa using symbols_balance _ (mem_symbols h)

theorem exists_cut?_of_brace {char : Char} (rest : List Char)
    (h : char = '\x7b' ∨ char = '\x7d') : ∃ cut, cut? (char :: rest) = some cut := by
  have hsymbol : cut? (char :: rest) = cutSymbol? (char :: rest) := by
    rcases h with rfl | rfl <;> rfl
  obtain ⟨cut, hcut⟩ : ∃ cut, cutMark? (char :: rest) = some cut := by
    rcases h with rfl | rfl
    · exact ⟨⟨.leftBrace, ['\x7b'], rest⟩, rfl⟩
    · exact ⟨⟨.rightBrace, ['\x7d'], rest⟩, rfl⟩
  rw [hsymbol]
  cases rest with
  | nil => exact ⟨cut, hcut⟩
  | cons second rest =>
      cases hpair : Kind.ofSymbol? (String.ofList [char, second]) with
      | some kind => exact ⟨⟨kind, [char, second], rest⟩, by simp only [cutSymbol?, hpair]⟩
      | none => exact ⟨cut, by simp only [cutSymbol?, hpair, hcut]⟩

/-! ## Texts -/

/-- What stands inside of the literals and comments of some items. -/
def insideTexts (items : List Item) : List Char :=
  ((tokensOf items).filter (isText ·.kind)).flatMap (·.lexeme.toList)

theorem insideTexts_token (token : Token) (items : List Item) :
    insideTexts (.token token :: items) =
      (if isText token.kind then token.lexeme.toList else []) ++ insideTexts items := by
  have htokens : tokensOf (.token token :: items) = token :: tokensOf items := rfl
  rw [insideTexts, htokens, List.filter_cons]
  split <;> rfl

/-- What the tokens count as braces. -/
def braceSum (tokens : List Token) : Int :=
  (tokens.map (braceOf ·.kind)).sum

@[simp] theorem braceSum_cons (token : Token) (tokens : List Token) :
    braceSum (token :: tokens) = braceOf token.kind + braceSum tokens :=
  rfl

/-- Each brace character of a text is a token, or it stands inside of one. -/
theorem Lexes.balance {position : Position} {text : List Char} {items : List Item}
    (h : Lexes position text items) :
    braceBalance text = braceSum (tokensOf items) + braceBalance (insideTexts items) := by
  induction h with
  | done => rfl
  | blank hblank _ ih =>
      rw [braceBalance_cons, ih,
        braceBalance_eq_zero (by simpa using not_brace_of_blank hblank), Int.zero_add]
  | @stray position char rest items hblank hnone _ ih =>
      have hnot : char ≠ '\x7b' ∧ char ≠ '\x7d' := by
        rw [← not_or]
        intro hbrace
        obtain ⟨cut, hcut⟩ := exists_cut?_of_brace rest hbrace
        exact hnone _ _ (cut?_eq_some_iff.mp hcut).1
      rw [braceBalance_cons, ih, braceBalance_eq_zero (by simpa using hnot), Int.zero_add]
      rfl
  | @token position char text lexeme rest kind items hblank hlexeme hrest _ ih =>
      let token : Token := ⟨kind, String.ofList lexeme, position⟩
      have htokens : tokensOf (.token token :: items) = token :: tokensOf items := rfl
      rw [hrest, braceBalance_append, ih, htokens, braceSum_cons, insideTexts_token,
        braceBalance_append]
      cases htext : isText kind with
      | false =>
          simp [token, hlexeme.balance htext]
          omega
      | true =>
          have hnone : braceOf kind = 0 := by
            cases kind <;> first | rfl | cases htext
          simp [token, hnone]
          omega

end Scan

/-! ## The count of the editor -/

namespace Command.Editor

open Grammar (Bracket Nested brackets isBracket)
open Console (cyan)
open Files (Desk InputLine)

theorem braceStep_eq (depth : Int) (token : Token) :
    braceStep depth token = depth + Scan.braceOf token.kind := by
  unfold braceStep Scan.braceOf
  split <;> simp_all [Int.sub_eq_add_neg]

theorem foldl_braceStep_sum (tokens : List Token) (depth : Int) :
    tokens.foldl braceStep depth = depth + Scan.braceSum tokens := by
  induction tokens generalizing depth with
  | nil => simp [Scan.braceSum]
  | cons token tokens ih =>
      rw [List.foldl_cons, ih, braceStep_eq, Scan.braceSum_cons, Int.add_assoc]

theorem braceBalance_eq (buffer : String) :
    Scan.braceBalance buffer.toList =
      braceDepth buffer + Scan.braceBalance (Scan.insideTexts (Scan.items buffer)) := by
  have hbalance := (Scan.lexes_itemsAfter .start buffer.toList).balance
  rw [braceDepth, foldl_braceStep_sum, Int.zero_add]
  exact hbalance

theorem count_brackets (tokens : List Token) {kind : Kind} (h : isBracket kind = true) :
    (brackets tokens).count kind = tokens.countP (·.kind = kind) := by
  rw [brackets, List.count_filter h, List.count, List.countP_map]
  rfl

theorem braceDepth_of_nested {buffer : String}
    (h : Nested (brackets (Scan.tokens buffer))) :
    braceDepth buffer = 0 := by
  have hcount := h.count_eq .brace
  rw [Bracket.closing_brace, Bracket.opening_brace, count_brackets _ rfl,
    count_brackets _ rfl] at hcount
  rw [braceDepth, foldl_braceStep, hcount]
  simp

theorem prompt_of_nested {buffer : String} (h : Nested (brackets (Scan.tokens buffer))) :
    prompt buffer = scanLog buffer ++ .write [cyan "sharp> "] := by
  rw [prompt, promptText, braceDepth_of_nested h]
  rfl

/-! ## Accepted buffers -/

theorem nested_of_accepted {tokens : List Token} {globals : Scope.Table}
    (h : Analysis.analyze tokens = .ok globals) : Nested (brackets tokens) := by
  obtain ⟨program, rfl⟩ := Analysis.sentence_of_verdict h
  exact program.nested

theorem countP_closing_le {tokens front : List Token} (h : Nested (brackets tokens))
    (hfront : front <+: tokens) (bracket : Bracket) :
    front.countP (·.kind = bracket.closing) ≤ front.countP (·.kind = bracket.opening) := by
  have hbrackets : brackets front <+: brackets tokens :=
    (hfront.map Token.kind).filter isBracket
  have hle := h.count_le bracket hbrackets
  rwa [count_brackets front bracket.isBracket_closing,
    count_brackets front bracket.isBracket_opening] at hle

/--
The brackets of accepted tokens are nested, and no beginning of them closes more brackets
of a kind than it opens.  So the editor finds no brace open in a buffer that is accepted,
and it asks there as it does at the start.  In every buffer it counts the brace characters
but for those inside of literals and comments.
-/
theorem accepted_brackets_nested :
    (∀ (tokens : List Token) (globals : Scope.Table), Analysis.analyze tokens = .ok globals →
      Nested (brackets tokens) ∧
      ∀ front : List Token, front <+: tokens → ∀ bracket : Bracket,
        front.countP (·.kind = bracket.closing) ≤ front.countP (·.kind = bracket.opening)) ∧
    (∀ (buffer : String) (globals : Scope.Table), analyzeText buffer = .ok globals →
      braceDepth buffer = 0 ∧
      ∀ (now : Desk) (rest : List InputLine), ∃ heard,
        (continued buffer now rest).1 = scanLog buffer ++ .write [cyan "sharp> "] ++ heard) ∧
    ∀ buffer : String, braceDepth buffer =
      Scan.braceBalance buffer.toList -
        Scan.braceBalance (Scan.insideTexts (Scan.items buffer)) := by
  refine ⟨fun tokens globals haccepted => ?_, fun buffer globals haccepted => ?_, fun buffer => ?_⟩
  · have hnested := nested_of_accepted haccepted
    exact ⟨hnested, fun front hfront => countP_closing_le hnested hfront⟩
  · have hnested : Nested (brackets (Scan.tokens buffer)) := nested_of_accepted haccepted
    refine ⟨braceDepth_of_nested hnested, fun now rest => ?_⟩
    rw [← prompt_of_nested hnested]
    exact exists_continued_eq buffer now rest
  · have hbalance := braceBalance_eq buffer
    omega

theorem accepted_brackets_nested_text :
    let buffer :=
      "namespace N \x7b public class C \x7b public int x; public int f() \x7b " ++
      "string s = \"\x7d\"; /* \x7b */ \x7d \x7d \x7d"
    let globals : Scope.Table := ⟨[("x", .int)]⟩
    analyzeText buffer = .ok globals ∧ Nested (brackets (Scan.tokens buffer)) ∧
      braceDepth buffer = 0 := by
  intro buffer globals
  have haccepted : analyzeText buffer = .ok globals := by
    unfold buffer globals
    rfl
  have hnested := (accepted_brackets_nested.1 (Scan.tokens buffer) globals haccepted).1
  exact ⟨haccepted, hnested, (accepted_brackets_nested.2.1 buffer globals haccepted).1⟩

end Command.Editor

end Classlet
