import Classlet.Analysis.Sequence
import Classlet.Proofs.Analysis.Soundness
import Classlet.Proofs.Expression.Reading

/-!
# What a run has read

Every run splits at the token where it stops.  The goals that were left there
are the right ones for what was read: whatever meets them, put behind the tokens
read, meets the goals at the start (`Reads.admits`), and another text with the
same tokens in front leads to the same goals (`Reads.run_eq`).
-/

namespace Classlet.Analysis

/-! ## One token -/

section Settle

variable {token : Token} {goals next : List Goal} {scopes after : Scope.Stack}

theorem admitsAll_of_settle_taken (h : settle token goals scopes = .taken next after)
    {tokens : List Token} (htokens : AdmitsAll next tokens) :
    AdmitsAll goals (token :: tokens) := by
  induction goals generalizing scopes with
  | nil => cases h
  | cons goal goals ih =>
      simp only [settle] at h
      cases htake : goal.take? scopes token with
      | error fault => simp [htake] at h
      | ok replaced? =>
          cases replaced? with
          | some replaced =>
              simp only [htake, Settlement.taken.injEq] at h
              obtain ⟨rfl, _⟩ := h
              obtain ⟨front, back, rfl, hfront, hback⟩ := admitsAll_append.mp htokens
              exact ⟨token :: front, back, rfl, Goal.admits_of_take htake hfront, hback⟩
          | none =>
              cases hfinish : goal.finish scopes (.token token) with
              | error fault => simp [htake, hfinish] at h
              | ok finished =>
                  simp only [htake, hfinish] at h
                  exact admitsAll_cons_of_admits_nil (Goal.admits_of_finish hfinish) (ih h)

theorem admitsAll_of_settle_met (h : settle token goals scopes = .met after) :
    AdmitsAll goals [] := by
  induction goals generalizing scopes with
  | nil => rfl
  | cons goal goals ih =>
      simp only [settle] at h
      cases htake : goal.take? scopes token with
      | error fault => simp [htake] at h
      | ok replaced? =>
          cases replaced? with
          | some replaced => simp [htake] at h
          | none =>
              cases hfinish : goal.finish scopes (.token token) with
              | error fault => simp [htake, hfinish] at h
              | ok finished =>
                  simp only [htake, hfinish] at h
                  exact admitsAll_cons_of_admits_nil (Goal.admits_of_finish hfinish) (ih h)

theorem admitsAll_of_close {last : Position} (h : (close last goals scopes).fault? = none) :
    AdmitsAll goals [] := by
  induction goals generalizing scopes with
  | nil => rfl
  | cons goal goals ih =>
      simp only [close] at h
      cases hfinish : goal.finish scopes (.ending last) with
      | error fault => simp [hfinish] at h
      | ok finished =>
          simp only [hfinish] at h
          exact admitsAll_cons_of_admits_nil (Goal.admits_of_finish hfinish) (ih h)

theorem rest_close {last : Position} : (close last goals scopes).rest = [] := by
  induction goals generalizing scopes with
  | nil => rfl
  | cons goal goals ih =>
      simp only [close]
      cases goal.finish scopes (.ending last) with
      | error fault => rfl
      | ok finished => exact ih

end Settle

/-! ## Some tokens -/

/-- The goals take the tokens one after another and become other goals. -/
inductive Reads :
    List Goal → Scope.Stack → List Token → List Goal → Scope.Stack → Prop where
  | nil (goals : List Goal) (scopes : Scope.Stack) : Reads goals scopes [] goals scopes
  | cons {token : Token} {tokens : List Token} {goals next left : List Goal}
      {scopes after final : Scope.Stack} (h : settle token goals scopes = .taken next after)
      (hmore : Reads next after tokens left final) :
      Reads goals scopes (token :: tokens) left final

section Reads

variable {goals left : List Goal} {scopes after : Scope.Stack} {tokens : List Token}

theorem Reads.run_eq (h : Reads goals scopes tokens left after) (last : Position)
    (more : List Token) :
    run goals scopes last (tokens ++ more) = run left after (lastPlace last tokens) more := by
  induction h generalizing last with
  | nil goals scopes => rfl
  | cons h hmore ih =>
      rename_i token tokens _ _ _ _ _ _
      simp only [List.cons_append, run, h, lastPlace_cons]
      exact ih token.position

theorem Reads.admits (h : Reads goals scopes tokens left after) {more : List Token}
    (hmore : AdmitsAll left more) : AdmitsAll goals (tokens ++ more) := by
  induction h with
  | nil goals scopes => exact hmore
  | cons h _ ih => exact admitsAll_of_settle_taken h (ih hmore)

/-- The goals are finished or fail in front of the tokens that are left. -/
def Stops (goals : List Goal) (scopes : Scope.Stack) : List Token → Prop
  | [] => True
  | token :: _ => ∀ next after, settle token goals scopes ≠ .taken next after

theorem exists_reads (goals : List Goal) (scopes : Scope.Stack) (last : Position)
    (tokens : List Token) :
    ∃ (read : List Token) (left : List Goal) (after : Scope.Stack),
      Reads goals scopes read left after ∧
      tokens = read ++ (run goals scopes last tokens).rest ∧
      run goals scopes last tokens =
        run left after (lastPlace last read) (run goals scopes last tokens).rest ∧
      Stops left after (run goals scopes last tokens).rest := by
  induction tokens generalizing goals scopes last with
  | nil =>
      have hrest : (run goals scopes last []).rest = [] := rest_close
      refine ⟨[], goals, scopes, .nil goals scopes, ?_⟩
      simp [hrest, Stops]
  | cons token tokens ih =>
      cases hsettle : settle token goals scopes with
      | taken next after =>
          obtain ⟨read, left, final, hreads, htokens, hrun, hstops⟩ :=
            ih next after token.position
          have hnext : run goals scopes last (token :: tokens) =
              run next after token.position tokens := by
            simp [run, hsettle]
          rw [hnext]
          refine ⟨token :: read, left, final, .cons hsettle hreads, ?_, hrun, hstops⟩
          rw [List.cons_append, ← htokens]
      | met after =>
          have hrest : (run goals scopes last (token :: tokens)).rest = token :: tokens := by
            simp [run, hsettle]
          refine ⟨[], goals, scopes, .nil goals scopes, ?_⟩
          simp [hrest, Stops, hsettle]
      | failed fault after =>
          have hrest : (run goals scopes last (token :: tokens)).rest = token :: tokens := by
            simp [run, hsettle]
          refine ⟨[], goals, scopes, .nil goals scopes, ?_⟩
          simp [hrest, Stops, hsettle]

/-- A run without a fault has read what its goals ask for. -/
theorem exists_admitted {last : Position}
    (h : (run goals scopes last tokens).fault? = none) :
    ∃ read, tokens = read ++ (run goals scopes last tokens).rest ∧ AdmitsAll goals read := by
  obtain ⟨read, left, after, hreads, htokens, hrun, hstops⟩ :=
    exists_reads goals scopes last tokens
  refine ⟨read, htokens, ?_⟩
  rw [hrun] at h
  rw [← List.append_nil read]
  refine hreads.admits ?_
  cases hrest : (run goals scopes last tokens).rest with
  | nil =>
      rw [hrest] at h
      exact admitsAll_of_close h
  | cons token rest =>
      rw [hrest, run] at h
      rw [hrest] at hstops
      cases hsettle : settle token left after with
      | taken next later => exact absurd hsettle (hstops next later)
      | met later => exact admitsAll_of_settle_met hsettle
      | failed fault later => simp [hsettle] at h

end Reads

/-! ## Runs over programs -/

/-- The last of the goals is `program`, which every step keeps. -/
def EndsInProgram (goals : List Goal) : Prop :=
  ∃ front, goals = front ++ [.program]

theorem endsInProgram_of_take {scopes : Scope.Stack} {token : Token} {next : List Goal}
    (h : Goal.program.take? scopes token = .ok (some next)) : EndsInProgram next := by
  simp only [Goal.take?, Except.ok.injEq] at h
  split at h
  · cases h
    exact ⟨[.namespaceName, .expect .leftBrace, .classes true], rfl⟩
  · cases h
    exact ⟨[.expect .identifier, .expect .semicolon], rfl⟩
  · cases h

section Program

variable {token : Token} {goals : List Goal} {scopes : Scope.Stack}

theorem settle_endsInProgram (h : EndsInProgram goals) :
    (∃ next after, settle token goals scopes = .taken next after ∧ EndsInProgram next) ∨
      ∃ fault after, settle token goals scopes = .failed fault after := by
  obtain ⟨front, rfl⟩ := h
  rw [settle_append]
  cases settle token front scopes with
  | taken next after => exact .inl ⟨next ++ [.program], after, rfl, next, rfl⟩
  | failed fault after => exact .inr ⟨fault, after, rfl⟩
  | met after =>
      simp only [Settlement.followedBy, settle]
      cases htake : Goal.program.take? after token with
      | error fault => exact .inr ⟨fault, after, rfl⟩
      | ok next? =>
          cases next? with
          | none => exact .inr ⟨_, after, rfl⟩
          | some next =>
              obtain ⟨earlier, rfl⟩ := endsInProgram_of_take htake
              exact .inl ⟨_, after, rfl, earlier, by simp⟩

theorem Reads.endsInProgram {left : List Goal} {after : Scope.Stack} {tokens : List Token}
    (h : Reads goals scopes tokens left after) (hgoals : EndsInProgram goals) :
    EndsInProgram left := by
  induction h with
  | nil goals scopes => exact hgoals
  | cons h _ ih =>
      rcases settle_endsInProgram hgoals with ⟨next, after, hsettle, hnext⟩ | ⟨_, _, hsettle⟩
      · rw [h] at hsettle
        cases hsettle
        exact ih hnext
      · rw [h] at hsettle
        cases hsettle

theorem Stops.failed {rest : List Token} (h : Stops goals scopes (token :: rest))
    (hgoals : EndsInProgram goals) :
    ∃ fault after, settle token goals scopes = .failed fault after := by
  rcases settle_endsInProgram hgoals with ⟨next, after, hsettle, _⟩ | hfailed
  · exact absurd hsettle (h next after)
  · exact hfailed

end Program

/-- How a run ends whose goals can only be met at the end of the text. -/
def Outcome.EndsAt (outcome : Outcome) (left : List Goal) (after : Scope.Stack)
    (last : Position) : List Token → Prop
  | [] => outcome = close last left after
  | token :: rest => ∃ fault final, settle token left after = .failed fault final ∧
      outcome = ⟨some fault, final, last, token :: rest⟩

theorem exists_reads_program (scopes : Scope.Stack) (last : Position)
    (tokens : List Token) :
    ∃ (read : List Token) (left : List Goal) (after : Scope.Stack),
      Reads [.program] scopes read left after ∧
      tokens = read ++ (run [.program] scopes last tokens).rest ∧
      (run [.program] scopes last tokens).EndsAt left after (lastPlace last read)
        (run [.program] scopes last tokens).rest := by
  obtain ⟨read, left, after, hreads, htokens, hrun, hstops⟩ :=
    exists_reads [.program] scopes last tokens
  refine ⟨read, left, after, hreads, htokens, ?_⟩
  have hend : EndsInProgram left := hreads.endsInProgram ⟨[], rfl⟩
  cases hrest : (run [.program] scopes last tokens).rest with
  | nil =>
      rw [hrest] at hrun
      exact hrun
  | cons token rest =>
      rw [hrest] at hrun hstops
      obtain ⟨fault, final, hfailed⟩ := hstops.failed hend
      refine ⟨fault, final, hfailed, ?_⟩
      rw [hrun, run, hfailed]

/-- A program is only done at the end of the tokens. -/
theorem rest_of_fault?_none {scopes : Scope.Stack} {last : Position} {tokens : List Token}
    (h : (run [.program] scopes last tokens).fault? = none) :
    (run [.program] scopes last tokens).rest = [] := by
  obtain ⟨_, _, _, _, _, hends⟩ := exists_reads_program scopes last tokens
  cases hrest : (run [.program] scopes last tokens).rest with
  | nil => rfl
  | cons token rest =>
      rw [hrest] at hends
      obtain ⟨_, _, _, houtcome⟩ := hends
      rw [houtcome] at h
      cases h

end Classlet.Analysis
