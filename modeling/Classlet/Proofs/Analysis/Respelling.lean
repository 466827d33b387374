import Classlet.Proofs.Analysis.Viability

/-!
# The token a syntax fault is about

An analysis that ends with a fault of syntax has looked at the kind of the token in
front of it and at nothing else about it.  With another token of that kind in its
place the same is expected there.
-/

namespace Classlet

/-- The fault, if it is one of syntax with `ahead` as what comes next. -/
def Fault.about (ahead : Lookahead) : Fault → Fault
  | unexpected wanted _ => unexpected wanted ahead
  | fault => fault

theorem Fault.about_of_kind_ne {fault : Fault} (h : fault.kind ≠ .syntactic)
    (ahead : Lookahead) :
    fault.about ahead = fault := by
  cases fault with
  | unexpected wanted found => exact absurd rfl h
  | _ => rfl

/-! ## Expressions -/

namespace Expression

variable {scopes : Scope.Stack} {token other : Token} {state : State}

theorem operandType?_eq_none (hkind : other.kind = token.kind)
    (h : operandType? scopes token = .ok none) : operandType? scopes other = .ok none := by
  unfold operandType? at h ⊢
  rw [hkind]
  split at h
  · split at h <;> cases h
  · split at h <;> cases h
  · cases h
  · rfl

theorem State.take?_eq_none (hkind : other.kind = token.kind)
    (h : state.take? scopes token = .ok none) : state.take? scopes other = .ok none := by
  cases state with
  | operand frames =>
      simp only [take?] at h ⊢
      rw [hkind]
      split at h
      · cases h
      · rename_i hgroup
        rw [if_neg hgroup]
        cases hoperand : operandType? scopes token with
        | error fault => simp [hoperand] at h
        | ok ty? =>
            cases ty? with
            | some ty => simp [hoperand] at h
            | none => simp [operandType?_eq_none hkind hoperand]
  | operator frames ty =>
      simp only [take?] at h ⊢
      rw [hkind]
      -- A token that continues the expression is only kept, never looked at.
      split at h
      · split at h <;> cases h
      · split at h <;> cases h
      · exact h
      · rfl

theorem State.finish_about (state : State) (ahead shown : Lookahead) :
    state.finish shown = (state.finish ahead).mapError (Fault.about shown) := by
  cases state with
  | operand frames => rfl
  | operator frames ty =>
      simp only [finish]
      cases hreduce : reduce 0 frames ty with
      | ok reduced =>
          obtain ⟨_ | ⟨frame, frames⟩, whole⟩ := reduced <;> rfl
      | error fault =>
          exact congrArg Except.error (Fault.about_of_kind_ne (reduce_error_kind hreduce) _).symm

end Expression

namespace Analysis

/-! ## Goals -/

section Goals

variable {scopes after : Scope.Stack} {token other : Token} {goal : Goal}
  {goals : List Goal}
variable {fault : Fault}

theorem Goal.statement?_eq_none (hkind : other.kind = token.kind)
    (h : statement? token = none) : statement? other = none := by
  unfold statement? at h ⊢
  rw [hkind]
  split at h <;> simp_all

theorem Goal.take?_eq_none (hkind : other.kind = token.kind)
    (h : goal.take? scopes token = .ok none) : goal.take? scopes other = .ok none := by
  cases goal with
  | expression state use =>
      simp only [take?] at h ⊢
      cases hstate : state.take? scopes token with
      | error fault => simp [hstate] at h
      | ok next? =>
          cases next? with
          | some next => simp [hstate] at h
          | none => simp [Expression.State.take?_eq_none hkind hstate]
  | target name =>
      simp only [take?] at h ⊢
      cases hname : scopes.lookup name.lexeme with
      | none => simp [hname] at h
      | some ty => simpa [hname, hkind] using h
  | statements afterIf =>
      simp only [take?, hkind] at h ⊢
      split at h
      · cases h
      · cases h
      · exact h
      · exact congrArg Except.ok (statement?_eq_none hkind (Except.ok.inj h))
  | _ => simp_all [take?]

theorem resolveName_about (scopes : Scope.Stack) (name : Token) (shown : Lookahead) :
    (resolveName scopes name).mapError (Fault.about shown) = resolveName scopes name := by
  cases h : resolveName scopes name with
  | ok after => rfl
  | error fault =>
      exact congrArg Except.error (Fault.about_of_kind_ne (resolveName_error_kind h) _)

theorem bindName_about (scopes : Scope.Stack) (ty : Ty) (name : Token) (shown : Lookahead) :
    (bindName scopes ty name).mapError (Fault.about shown) = bindName scopes ty name := by
  cases h : bindName scopes ty name with
  | ok after => rfl
  | error fault =>
      exact congrArg Except.error (Fault.about_of_kind_ne (bindName_error_kind h) _)

theorem Goal.finish_about (hkind : other.kind = token.kind) (goal : Goal)
    (scopes : Scope.Stack) :
    goal.finish scopes (.token other) =
      (goal.finish scopes (.token token)).mapError (Fault.about (.token other)) := by
  cases goal with
  | field ty name =>
      have hahead : (Lookahead.token other).kind? = (Lookahead.token token).kind? :=
        congrArg some hkind
      simp only [finish, hahead]
      by_cases hmethod : (Lookahead.token token).kind? = some .leftParen
      · rw [if_pos hmethod]
        rfl
      · rw [if_neg hmethod, bindName_about]
  | declare ty name => exact (bindName_about ..).symm
  | known name => exact (resolveName_about ..).symm
  | target name =>
      simp only [finish]
      cases h : resolveName scopes name with
      | ok after => rfl
      | error fault =>
          exact congrArg Except.error (Fault.about_of_kind_ne (resolveName_error_kind h) _).symm
  | expression state use =>
      have hshown := state.finish_about (.token token) (.token other)
      simp only [finish]
      cases hstate : state.finish (.token token) with
      | error fault =>
          have hother : state.finish (.token other) = .error (fault.about (.token other)) := by
            rw [hshown, hstate]
            rfl
          rw [hother]
          rfl
      | ok ty =>
          have hother : state.finish (.token other) = .ok ty := by
            rw [hshown, hstate]
            rfl
          rw [hother]
          cases h : use.check ty with
          | ok _ =>
              simp only [h]
              rfl
          | error fault =>
              simp only [h]
              exact congrArg Except.error (Fault.about_of_kind_ne (Use.check_error_kind h) _).symm
  | _ => rfl

/-- The step lemma: of all the tokens of one kind either none or each fails so. -/
theorem settle_failed_about (hkind : other.kind = token.kind)
    (h : settle token goals scopes = .failed fault after) (hsyntactic : fault.kind = .syntactic) :
    settle other goals scopes = .failed (fault.about (.token other)) after := by
  induction goals generalizing scopes with
  | nil => cases h
  | cons goal goals ih =>
      simp only [settle] at h ⊢
      cases htake : goal.take? scopes token with
      | error refused =>
          simp only [htake, Settlement.failed.injEq] at h
          obtain ⟨rfl, _⟩ := h
          exact absurd hsyntactic (Goal.take?_error_kind htake)
      | ok next? =>
          cases next? with
          | some next => simp [htake] at h
          | none =>
              simp only [Goal.take?_eq_none hkind htake, goal.finish_about hkind]
              cases hfinish : goal.finish scopes (.token token) with
              | ok finished =>
                  simp only [htake, hfinish] at h
                  exact ih h
              | error refused =>
                  simp only [htake, hfinish, Settlement.failed.injEq] at h
                  obtain ⟨rfl, rfl⟩ := h
                  rfl

end Goals

/-! ## Programs -/

section Program

variable {front rest : List Token} {token other : Token} {fault : Fault}

/-- The run lemma: up to the token nothing changes, and there the same is expected. -/
theorem run_respelled (hkind : other.kind = token.kind)
    (hfault : (run [.program] .empty .start (front ++ token :: rest)).fault? = some fault)
    (hrest : (run [.program] .empty .start (front ++ token :: rest)).rest = token :: rest)
    (hsyntactic : fault.kind = .syntactic) :
    fault.Blames (.token token) ∧
      run [.program] .empty .start (front ++ other :: rest) =
        { run [.program] .empty .start (front ++ token :: rest) with
          fault? := some (fault.about (.token other)), rest := other :: rest } := by
  obtain ⟨read, left, after, hreads, htokens, hends⟩ :=
    exists_reads_program .empty .start (front ++ token :: rest)
  rw [hrest] at htokens hends
  obtain rfl : front = read := List.append_cancel_right htokens
  obtain ⟨shown, final, hfailed, houtcome⟩ := hends
  rw [houtcome] at hfault ⊢
  cases hfault
  refine ⟨settle_failed_blames hfailed, ?_⟩
  rw [hreads.run_eq, run, settle_failed_about hkind hfailed hsyntactic]

/-- Where one token is refused for its syntax, so is any other of its kind. -/
theorem program_respelled {stopped : Analyzer}
    (h : (Analyzer.ofTokens (front ++ token :: rest)).program = (.error fault, stopped))
    (hstopped : stopped.rest = token :: rest) (hsyntactic : fault.kind = .syntactic)
    (hkind : other.kind = token.kind) :
    ∃ wanted, fault = .unexpected wanted (.token token) ∧
      (Analyzer.ofTokens (front ++ other :: rest)).program =
        (.error (.unexpected wanted (.token other)), { stopped with rest := other :: rest }) := by
  cases hfault : (run [.program] .empty .start (front ++ token :: rest)).fault? with
  | none => simp [Analyzer.program, Analyzer.ofTokens, hfault] at h
  | some shown =>
      simp only [Analyzer.program, Analyzer.ofTokens, hfault, Prod.mk.injEq,
        Except.error.injEq] at h
      obtain ⟨rfl, rfl⟩ := h
      obtain ⟨hblames, hrun⟩ := run_respelled hkind hfault hstopped hsyntactic
      obtain ⟨wanted, rfl⟩ := hblames hsyntactic
      refine ⟨wanted, rfl, ?_⟩
      simp only [Analyzer.program, Analyzer.ofTokens, hrun, Fault.about]

end Program

end Analysis

end Classlet
