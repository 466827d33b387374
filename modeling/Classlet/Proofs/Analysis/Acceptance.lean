import Classlet.Analysis.Analyzer
import Classlet.Proofs.Analysis.Programs
import Classlet.Proofs.Analysis.Reads

/-!
# Acceptance

An analysis accepts exactly the well-typed programs, and the table it hands over
holds their fields.  In one direction the run over a given tree decides; in the
other the run itself shows that there is a tree.
-/

namespace Classlet.Analysis

open Grammar

/-- Tokens over which a run ends without a fault spell a program. -/
theorem sentence_of_run {scopes : Scope.Stack} {last : Position} {tokens : List Token}
    (h : (run [.program] scopes last tokens).fault? = none) : Sentence tokens := by
  obtain ⟨read, left, after, hreads, htokens, hends⟩ :=
    exists_reads_program scopes last tokens
  rw [rest_of_fault?_none h] at htokens hends
  rw [Outcome.EndsAt] at hends
  rw [hends] at h
  rw [htokens]
  exact admitsAll_singleton.mp (hreads.admits (admitsAll_of_close h))

section Verdict

variable {scopes : Scope.Stack} {last : Position} {tokens : List Token} {fault : Fault}

theorem verdict_of_fault?_none (h : (run [.program] scopes last tokens).fault? = none) :
    (Analyzer.program ⟨last, tokens, scopes⟩).1 =
      .ok (run [.program] scopes last tokens).scopes.global := by
  simp [Analyzer.program, h]

theorem verdict_of_fault?_some
    (h : (run [.program] scopes last tokens).fault? = some fault) :
    (Analyzer.program ⟨last, tokens, scopes⟩).1 = .error fault := by
  simp [Analyzer.program, h]

theorem sentence_of_verdict {globals : Scope.Table}
    (h : (Analyzer.program ⟨last, tokens, scopes⟩).1 = .ok globals) : Sentence tokens := by
  cases hfault : (run [.program] scopes last tokens).fault? with
  | none => exact sentence_of_run hfault
  | some fault =>
      rw [verdict_of_fault?_some hfault] at h
      cases h

end Verdict

/--
Over a given tree, with some names bound before, the verdict is that of the typing rules.
-/
theorem verdict_program (program : Program) (known globals : Scope.Table)
    (last : Position) :
    (Analyzer.program ⟨last, program.tokens, ⟨known, []⟩⟩).1 = .ok globals ↔
      MembersValid known.entries program.members ∧
        known.entries ++ program.fields = globals.entries := by
  obtain ⟨haccepted, hrejected⟩ := run_program program ⟨known, []⟩ last
  by_cases hvalid : MembersValid known.entries program.members
  · have hrun := haccepted hvalid
    rw [verdict_of_fault?_none (congrArg Outcome.fault? hrun), hrun]
    obtain ⟨entries⟩ := globals
    simp [hvalid, Scope.Stack.extend, Scope.Stack.withCurrent, Scope.Stack.current]
  · obtain ⟨fault, hfault, _⟩ := hrejected hvalid
    rw [verdict_of_fault?_some hfault]
    simp [hvalid]

theorem analyze_program (program : Program) (globals : Scope.Table) :
    analyze program.tokens = .ok globals ↔
      program.WellTyped ∧ program.fields = globals.entries := by
  rw [← membersValid_nil_left]
  exact verdict_program program .empty globals .start

/--
An analysis accepts a list of tokens if and only if they spell a program that is
well typed, and its table then lists the fields in the order of the text.  The
grammar is ambiguous, but which tree is taken does not matter.
-/
theorem analyze_eq_ok_iff :
    (∀ (tokens : List Token) (globals : Scope.Table), analyze tokens = .ok globals ↔
      ∃ program : Program, program.tokens = tokens ∧ program.WellTyped ∧
        program.fields = globals.entries) ∧
    ∀ (program : Program) (globals : Scope.Table), analyze program.tokens = .ok globals ↔
      program.WellTyped ∧ program.fields = globals.entries := by
  refine ⟨fun tokens globals => ⟨fun haccepted => ?_, ?_⟩, analyze_program⟩
  · obtain ⟨program, rfl⟩ := sentence_of_verdict haccepted
    exact ⟨program, rfl, (analyze_program program globals).mp haccepted⟩
  · rintro ⟨program, rfl, hprogram⟩
    exact (analyze_program program globals).mpr hprogram

end Classlet.Analysis
