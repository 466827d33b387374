import Classlet.Analysis.Analyzer
import Classlet.Proofs.Analysis.Reads

/-!
# One token of look-ahead

A run or a reading that stops in front of a token has looked at that token and at
those before it, and at nothing behind.  Whatever comes there instead, it stops at
the same place and in the same way.
-/

namespace Classlet

/-! ## Expressions -/

theorem Expression.read_of_rest_eq_cons {scopes : Scope.Stack} {state : State}
    {last : Position} {tokens rest : List Token} {token : Token}
    (h : (read scopes state last tokens).rest = token :: rest) :
    ∃ front, tokens = front ++ token :: rest ∧ ∀ more,
      read scopes state last (front ++ token :: more) =
        { read scopes state last tokens with rest := token :: more } := by
  induction tokens generalizing state last with
  | nil => cases h
  | cons first tokens ih =>
      cases htake : state.take? scopes first with
      | error fault =>
          simp only [read, htake, List.cons.injEq] at h
          obtain ⟨rfl, rfl⟩ := h
          exact ⟨[], rfl, fun more => by simp [read, htake]⟩
      | ok next? =>
          cases next? with
          | none =>
              simp only [read, htake, List.cons.injEq] at h
              obtain ⟨rfl, rfl⟩ := h
              exact ⟨[], rfl, fun more => by simp [read, htake]⟩
          | some next =>
              simp only [read, htake] at h
              obtain ⟨front, rfl, hmore⟩ := ih h
              refine ⟨first :: front, rfl, fun more => ?_⟩
              simpa [read, htake] using hmore more

namespace Analysis

/-! ## Runs -/

theorem run_of_rest_eq_cons {goals : List Goal} {scopes : Scope.Stack} {last : Position}
    {tokens rest : List Token} {token : Token}
    (h : (run goals scopes last tokens).rest = token :: rest) :
    ∃ front, tokens = front ++ token :: rest ∧ ∀ more,
      run goals scopes last (front ++ token :: more) =
        { run goals scopes last tokens with rest := token :: more } := by
  induction tokens generalizing goals scopes last with
  | nil =>
      rw [run, rest_close] at h
      cases h
  | cons first tokens ih =>
      cases hsettle : settle first goals scopes with
      | met after =>
          simp only [run, hsettle, List.cons.injEq] at h
          obtain ⟨rfl, rfl⟩ := h
          exact ⟨[], rfl, fun more => by simp [run, hsettle]⟩
      | failed fault after =>
          simp only [run, hsettle, List.cons.injEq] at h
          obtain ⟨rfl, rfl⟩ := h
          exact ⟨[], rfl, fun more => by simp [run, hsettle]⟩
      | taken next after =>
          simp only [run, hsettle] at h
          obtain ⟨front, rfl, hmore⟩ := ih h
          refine ⟨first :: front, rfl, fun more => ?_⟩
          simpa [run, hsettle] using hmore more

/-! ## Requests -/

/--
An analysis that fails in front of a token fails in the same way whatever follows
that token.  So does a request for an expression, and if it succeeds in front of a
token it gives the same type whatever follows.
-/
theorem stops_by_one_token :
    (∀ {tokens rest : List Token} {token : Token} {fault : Fault} {stopped : Analyzer},
      (Analyzer.ofTokens tokens).program = (.error fault, stopped) →
      stopped.rest = token :: rest →
      ∃ front, tokens = front ++ token :: rest ∧ ∀ more,
        (Analyzer.ofTokens (front ++ token :: more)).program =
          (.error fault, { stopped with rest := token :: more })) ∧
    ∀ {analyzer stopped : Analyzer} {verdict : Except Fault Ty} {rest : List Token}
      {token : Token},
      analyzer.expression = (verdict, stopped) → stopped.rest = token :: rest →
      ∃ front, analyzer.rest = front ++ token :: rest ∧ ∀ more,
        Analyzer.expression { analyzer with rest := front ++ token :: more } =
          (verdict, { stopped with rest := token :: more }) := by
  constructor
  · intro tokens rest token fault stopped hprogram hrest
    cases hfault : (run [.program] .empty .start tokens).fault? with
    | none => simp [Analyzer.program, Analyzer.ofTokens, hfault] at hprogram
    | some shown =>
        simp only [Analyzer.program, Analyzer.ofTokens, hfault, Prod.mk.injEq,
          Except.error.injEq] at hprogram
        obtain ⟨rfl, rfl⟩ := hprogram
        obtain ⟨front, htokens, hmore⟩ := run_of_rest_eq_cons hrest
        refine ⟨front, htokens, fun more => ?_⟩
        simp [Analyzer.program, Analyzer.ofTokens, hmore more, hfault]
  · intro analyzer stopped verdict rest token hexpression hrest
    simp only [Analyzer.expression, Prod.mk.injEq] at hexpression
    obtain ⟨rfl, rfl⟩ := hexpression
    obtain ⟨front, htokens, hmore⟩ := Expression.read_of_rest_eq_cons hrest
    refine ⟨front, htokens, fun more => ?_⟩
    simp [Analyzer.expression, hmore more]

/-- What follows the text in `using ""`, or the parenthesis in `"" )`, does not matter. -/
theorem stops_behind_using_and_text :
    let word : Token := ⟨.word .usingWord, "using", ⟨1, 1⟩⟩
    let text : Token := ⟨.stringLiteral, "\"\"", ⟨1, 7⟩⟩
    let closing : Token := ⟨.rightParen, ")", ⟨1, 9⟩⟩
    let fault : Fault := .unexpected (.kind .identifier) (.token text)
    let failed : Analyzer := ⟨⟨1, 1⟩, [text, closing], .empty⟩
    let before : Analyzer := ⟨.start, [text, closing, word], .empty⟩
    let after : Analyzer := ⟨⟨1, 7⟩, [closing, word], .empty⟩
    ((Analyzer.ofTokens [word, text, closing]).program = (.error fault, failed) ∧
      ∃ front, [word, text, closing] = front ++ text :: [closing] ∧ ∀ more,
        (Analyzer.ofTokens (front ++ text :: more)).program =
          (.error fault, { failed with rest := text :: more })) ∧
    before.expression = (.ok .string, after) ∧
      ∃ front, before.rest = front ++ closing :: [word] ∧ ∀ more,
        Analyzer.expression { before with rest := front ++ closing :: more } =
          (.ok .string, { after with rest := closing :: more }) := by
  intro word text closing fault failed before after
  have hprogram : (Analyzer.ofTokens [word, text, closing]).program =
      (.error fault, failed) := by rfl
  have hexpression : before.expression = (.ok .string, after) := by rfl
  exact ⟨⟨hprogram, stops_by_one_token.1 hprogram rfl⟩, hexpression,
    stops_by_one_token.2 hexpression rfl⟩

end Analysis

end Classlet
