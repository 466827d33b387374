import Classlet.Proofs.Analysis.Acceptance

/-!
# Viable prefixes

What an analysis has read when it fails is the beginning of some program.  If
the fault is one of syntax, nothing that goes on with the next token is a
program: syntax errors show at the first token that cannot be right.

The continuation is what meets the goals that were left.  That there is no other
one follows from acceptance: a run over a program never ends with a syntax fault,
and a run over another text with the same tokens in front fails in the same way.
-/

namespace Classlet

/-- If the fault is one of syntax, it is about what comes next. -/
def Fault.Blames (ahead : Lookahead) (fault : Fault) : Prop :=
  fault.kind = .syntactic → ∃ wanted, fault = .unexpected wanted ahead

theorem Fault.blames_unexpected (wanted : Wanted) (ahead : Lookahead) :
    (Fault.unexpected wanted ahead).Blames ahead :=
  fun _ => ⟨wanted, rfl⟩

theorem Fault.blames_of_kind_ne {fault : Fault} (h : fault.kind ≠ .syntactic)
    (ahead : Lookahead) : fault.Blames ahead :=
  fun hkind => absurd hkind h

namespace Expression

/-! ## Faults in expressions -/

theorem reduce_error_kind {level : Nat} {frames : List Frame} {ty : Ty} {fault : Fault}
    (h : reduce level frames ty = .error fault) : fault.kind ≠ .syntactic := by
  induction frames generalizing ty with
  | nil => cases h
  | cons frame frames ih =>
      cases frame with
      | group => cases h
      | operation left operator sign =>
          rw [reduce] at h
          split at h
          · split at h
            · exact ih h
            · rename_i htyping
              cases h
              simp [Grammar.typing_error_kind htyping]
          · cases h

section State

variable {scopes : Scope.Stack} {token : Token} {state : State} {fault : Fault}

theorem operandType?_error_kind (h : operandType? scopes token = .error fault) :
    fault.kind ≠ .syntactic := by
  unfold operandType? at h
  split at h
  · split at h <;> cases h
    simp [Fault.kind]
  · split at h <;> cases h
  · cases h
  · cases h

theorem take?_error_kind (h : state.take? scopes token = .error fault) :
    fault.kind ≠ .syntactic := by
  cases state with
  | operand frames =>
      simp only [State.take?] at h
      split at h
      · cases h
      · split at h
        · cases h
        · rename_i hoperand
          cases h
          exact operandType?_error_kind hoperand
  | operator frames ty =>
      simp only [State.take?] at h
      split at h
      · split at h
        · cases h
        · rename_i hreduce
          cases h
          exact reduce_error_kind hreduce
      · split at h
        · cases h
        · rename_i hreduce
          cases h
          exact reduce_error_kind hreduce
      · split at h
        · cases h
        · cases h
        · rename_i hreduce
          cases h
          exact reduce_error_kind hreduce
      · cases h

theorem finish_error_blames {ahead : Lookahead} (h : state.finish ahead = .error fault) :
    fault.Blames ahead := by
  cases state with
  | operand frames =>
      cases h
      exact Fault.blames_unexpected _ ahead
  | operator frames ty =>
      simp only [State.finish] at h
      split at h
      · cases h
      · cases h
        exact Fault.blames_unexpected _ ahead
      · rename_i hreduce
        cases h
        exact Fault.blames_of_kind_ne (reduce_error_kind hreduce) ahead

end State

end Expression

namespace Analysis

open Grammar

/-! ## Faults of goals -/

section Goals

variable {scopes after : Scope.Stack} {token : Token} {ahead : Lookahead} {fault : Fault}
variable {goal : Goal} {goals : List Goal}

theorem bindName_error_kind {ty : Ty} {name : Token}
    (h : bindName scopes ty name = .error fault) : fault.kind ≠ .syntactic := by
  rw [bindName_eq] at h
  split at h <;> cases h
  simp [Fault.kind]

theorem resolveName_error_kind {name : Token} (h : resolveName scopes name = .error fault) :
    fault.kind ≠ .syntactic := by
  rw [resolveName_eq] at h
  split at h <;> cases h
  simp [Fault.kind]

theorem Use.check_error_kind {use : Use} {ty : Ty} (h : use.check ty = .error fault) :
    fault.kind ≠ .syntactic := by
  cases use with
  | discard => cases h
  | assign target declared sign =>
      simp only [check] at h
      split at h <;> cases h
      simp [Fault.kind]

theorem Goal.take?_error_kind (h : goal.take? scopes token = .error fault) :
    fault.kind ≠ .syntactic := by
  cases goal with
  | target name =>
      simp only [take?] at h
      split at h <;> cases h
      simp [Fault.kind]
  | expression state use =>
      simp only [take?] at h
      split at h
      · cases h
      · rename_i htake
        cases h
        exact Expression.take?_error_kind htake
  | _ => cases h

theorem Goal.finish_error_blames (h : goal.finish scopes ahead = .error fault) :
    fault.Blames ahead := by
  cases goal with
  | program =>
      simp only [finish] at h
      split at h <;> cases h
      exact Fault.blames_unexpected _ _
  | field ty name =>
      simp only [finish] at h
      split at h
      · cases h
      · exact Fault.blames_of_kind_ne (bindName_error_kind h) ahead
  | declare ty name => exact Fault.blames_of_kind_ne (bindName_error_kind h) ahead
  | known name => exact Fault.blames_of_kind_ne (resolveName_error_kind h) ahead
  | enter | leave | initializer => cases h
  | target name =>
      simp only [finish] at h
      split at h
      · cases h
        exact Fault.blames_unexpected _ ahead
      · rename_i hresolve
        cases h
        exact Fault.blames_of_kind_ne (resolveName_error_kind hresolve) ahead
  | expression state use =>
      simp only [finish] at h
      split at h
      · split at h
        · cases h
        · rename_i hcheck
          cases h
          exact Fault.blames_of_kind_ne (Use.check_error_kind hcheck) ahead
      · rename_i hfinish
        cases h
        exact Expression.finish_error_blames hfinish
  | _ =>
      cases h
      exact Fault.blames_unexpected _ ahead

theorem settle_failed_blames (h : settle token goals scopes = .failed fault after) :
    fault.Blames (.token token) := by
  induction goals generalizing scopes with
  | nil => cases h
  | cons goal goals ih =>
      simp only [settle] at h
      split at h
      · rename_i htake
        cases h
        exact Fault.blames_of_kind_ne (Goal.take?_error_kind htake) _
      · cases h
      · split at h
        · exact ih h
        · rename_i hfinish
          cases h
          exact Goal.finish_error_blames hfinish

theorem close_blames {last : Position} (h : (close last goals scopes).fault? = some fault) :
    fault.Blames (.ending last) := by
  induction goals generalizing scopes with
  | nil => cases h
  | cons goal goals ih =>
      simp only [close] at h
      split at h
      · exact ih h
      · rename_i hfinish
        cases h
        exact Goal.finish_error_blames hfinish

end Goals

/-! ## Where an analysis fails -/

theorem kind_ne_of_sentence {tokens : List Token} (h : Sentence tokens) {fault : Fault}
    (hfault : (run [.program] .empty .start tokens).fault? = some fault) :
    fault.kind ≠ .syntactic := by
  obtain ⟨program, rfl⟩ := h
  obtain ⟨haccepted, hrejected⟩ := run_program program .empty .start
  by_cases hvalid : MembersValid [] program.members
  · rw [haccepted hvalid] at hfault
    cases hfault
  · obtain ⟨other, hother, hkind⟩ := hrejected hvalid
    rw [hfault, Option.some.injEq] at hother
    rwa [hother]

/-- What a fault of syntax between `read` and `rest` says about all texts that begin so. -/
def Refutes (fault : Fault) (read rest : List Token) : Prop :=
  match rest with
  | [] =>
      (∃ wanted, fault = .unexpected wanted (.ending (lastPlace .start read))) ∧
        ¬ Sentence read
  | token :: _ =>
      (∃ wanted, fault = .unexpected wanted (.token token)) ∧
        ∀ more, ¬ Sentence (read ++ token :: more)

theorem refutes_of_endsAt {fault : Fault} (hkind : fault.kind = .syntactic)
    {outcome : Outcome} (hfault : outcome.fault? = some fault) {read rest : List Token}
    {left : List Goal} {after : Scope.Stack} (hreads : Reads [.program] .empty read left after)
    (hends : outcome.EndsAt left after (lastPlace .start read) rest) :
    Refutes fault read rest := by
  cases rest with
  | nil =>
      rw [Outcome.EndsAt] at hends
      rw [hends] at hfault
      have hrun := hreads.run_eq .start []
      rw [List.append_nil] at hrun
      refine ⟨close_blames hfault hkind, fun hsentence => ?_⟩
      refine kind_ne_of_sentence hsentence ?_ hkind
      rw [hrun]
      exact hfault
  | cons token rest =>
      obtain ⟨shown, final, hfailed, houtcome⟩ := hends
      rw [houtcome] at hfault
      cases hfault
      refine ⟨settle_failed_blames hfailed hkind, fun more hsentence => ?_⟩
      have hrun := hreads.run_eq .start (token :: more)
      refine kind_ne_of_sentence hsentence ?_ hkind
      rw [hrun, run, hfailed]

/--
Wherever the analysis of a text fails, what it has read can be completed to a
program; with a fault of syntax, not by the next token, nor by nothing if there
is none.
-/
theorem program_fails_at_viable_prefix {tokens : List Token} {fault : Fault}
    {stopped : Analyzer} (h : (Analyzer.ofTokens tokens).program = (.error fault, stopped)) :
    ∃ read : List Token, tokens = read ++ stopped.rest ∧
      (∃ more, Sentence (read ++ more)) ∧
      (fault.kind = .syntactic → Refutes fault read stopped.rest) := by
  cases hfault : (run [.program] .empty .start tokens).fault? with
  | none => simp [Analyzer.program, Analyzer.ofTokens, hfault] at h
  | some shown =>
      simp only [Analyzer.program, Analyzer.ofTokens, hfault, Prod.mk.injEq,
        Except.error.injEq] at h
      obtain ⟨rfl, rfl⟩ := h
      obtain ⟨read, left, after, hreads, htokens, hends⟩ :=
        exists_reads_program .empty .start tokens
      obtain ⟨more, hmore⟩ := exists_admitsAll left
      refine ⟨read, htokens, ⟨more, ?_⟩, fun hkind => ?_⟩
      · exact admitsAll_singleton.mp (hreads.admits hmore)
      · exact refutes_of_endsAt hkind hfault hreads hends

/-- In `using 1` the fault shows at the number: no program begins with these tokens. -/
theorem program_fails_behind_using :
    let word : Token := ⟨.word .usingWord, "using", ⟨1, 1⟩⟩
    let number : Token := ⟨.number, "1", ⟨1, 7⟩⟩
    let fault : Fault := .unexpected (.kind .identifier) (.token number)
    (Analyzer.ofTokens [word, number]).program = (.error fault, ⟨⟨1, 1⟩, [number], .empty⟩) ∧
      fault.kind = .syntactic ∧
      ∃ read, [word, number] = read ++ [number] ∧ (∃ more, Sentence (read ++ more)) ∧
        Refutes fault read [number] := by
  intro word number fault
  have hprogram : (Analyzer.ofTokens [word, number]).program =
      (.error fault, ⟨⟨1, 1⟩, [number], .empty⟩) := by rfl
  obtain ⟨read, htokens, hviable, hrefutes⟩ := program_fails_at_viable_prefix hprogram
  exact ⟨hprogram, rfl, read, htokens, hviable, hrefutes rfl⟩

end Analysis

end Classlet
