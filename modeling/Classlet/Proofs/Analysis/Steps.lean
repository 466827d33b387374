import Classlet.Analysis.Run

/-!
# Steps of a run

A run, one goal at a time: the first goal takes the next token, or it is finished
in front of it.  A run ends where its first goal fails or where no goal is left.
What each step preserves holds of a whole run.
-/

namespace Classlet.Analysis

/-- A run in front of one of its steps. -/
structure Config where
  goals : List Goal
  scopes : Scope.Stack
  last : Position
  rest : List Token

namespace Config

def ahead (config : Config) : Lookahead :=
  match config.rest with
  | [] => .ending config.last
  | token :: _ => .token token

def outcome (config : Config) : Outcome :=
  run config.goals config.scopes config.last config.rest

end Config

/-- The goal does not take the token that comes next, if one does. -/
def Goal.Passes (goal : Goal) (config : Config) : Prop :=
  ∀ token ∈ config.rest.head?, goal.take? config.scopes token = .ok none

inductive Step : Config → Config → Prop where
  | take {goal : Goal} {goals next : List Goal} {scopes : Scope.Stack} {last : Position}
      {token : Token} {rest : List Token} (h : goal.take? scopes token = .ok (some next)) :
      Step ⟨goal :: goals, scopes, last, token :: rest⟩
        ⟨next ++ goals, scopes, token.position, rest⟩
  | finish {config : Config} {goal : Goal} {goals : List Goal} {after : Scope.Stack}
      (hgoals : config.goals = goal :: goals) (hpasses : goal.Passes config)
      (h : goal.finish config.scopes config.ahead = .ok after) :
      Step config { config with goals := goals, scopes := after }

inductive Steps : Config → Config → Prop where
  | refl (config : Config) : Steps config config
  | next {before middle after : Config} (first : Step before middle)
      (more : Steps middle after) : Steps before after

/-- A run ends here, without another step. -/
inductive Config.Ends (config : Config) : Outcome → Prop where
  | met (hgoals : config.goals = []) :
      Ends config ⟨none, config.scopes, config.last, config.rest⟩
  | refuse {goal : Goal} {goals : List Goal} {token : Token} {rest : List Token}
      {fault : Fault} (hgoals : config.goals = goal :: goals)
      (hrest : config.rest = token :: rest)
      (h : goal.take? config.scopes token = .error fault) :
      Ends config ⟨some fault, config.scopes, config.last, config.rest⟩
  | fail {goal : Goal} {goals : List Goal} {fault : Fault}
      (hgoals : config.goals = goal :: goals) (hpasses : goal.Passes config)
      (h : goal.finish config.scopes config.ahead = .error fault) :
      Ends config ⟨some fault, config.scopes, config.last, config.rest⟩

/-! ## Runs as steps -/

section Runs

variable {before after config : Config} {outcome : Outcome}

theorem Step.outcome_eq (h : Step before after) : before.outcome = after.outcome := by
  cases h with
  | take h => simp [Config.outcome, run, settle, h]
  | finish hgoals hpasses h =>
      obtain ⟨goals, scopes, last, rest⟩ := before
      cases hgoals
      cases rest with
      | nil => simp_all [Config.outcome, Config.ahead, run, close]
      | cons token rest =>
          have htake := hpasses token rfl
          simp_all [Config.outcome, Config.ahead, run, settle]

theorem Steps.outcome_eq (h : Steps before after) : before.outcome = after.outcome := by
  induction h with
  | refl config => rfl
  | next first _ ih => rw [first.outcome_eq, ih]

theorem Config.Ends.outcome_eq (h : config.Ends outcome) : config.outcome = outcome := by
  obtain ⟨goals, scopes, last, rest⟩ := config
  cases h with
  | met hgoals =>
      cases hgoals
      cases rest <;> rfl
  | refuse hgoals hrest h =>
      cases hgoals
      cases hrest
      simp_all [Config.outcome, run, settle]
  | fail hgoals hpasses h =>
      cases hgoals
      cases rest with
      | nil => simp_all [Config.outcome, Config.ahead, run, close]
      | cons token rest =>
          have htake := hpasses token rfl
          simp_all [Config.outcome, Config.ahead, run, settle]

theorem Config.Ends.rest_eq (h : config.Ends outcome) : outcome.rest = config.rest := by
  cases h <;> rfl

/-- A run either ends at once or makes a step. -/
theorem Config.ends_or_step (config : Config) :
    config.Ends config.outcome ∨ ∃ after, Step config after := by
  have hends : ∀ {outcome : Outcome}, config.Ends outcome → config.Ends config.outcome :=
    fun h => h.outcome_eq ▸ h
  cases hgoals : config.goals with
  | nil => exact .inl (hends (.met hgoals))
  | cons goal goals =>
      -- If the goal does not take a token, it is finished or fails.
      have hfinished : goal.Passes config →
          config.Ends config.outcome ∨ ∃ after, Step config after := by
        intro hpasses
        cases hfinish : goal.finish config.scopes config.ahead with
        | error fault => exact .inl (hends (.fail hgoals hpasses hfinish))
        | ok after => exact .inr ⟨_, .finish hgoals hpasses hfinish⟩
      cases hrest : config.rest with
      | nil => exact hfinished (by simp [Goal.Passes, hrest])
      | cons token rest =>
          cases htake : goal.take? config.scopes token with
          | error fault => exact .inl (hends (.refuse hgoals hrest htake))
          | ok next? =>
              cases next? with
              | none => exact hfinished (by simp [Goal.Passes, hrest, htake])
              | some next =>
                  obtain ⟨_, scopes, last, _⟩ := config
                  cases hgoals
                  cases hrest
                  exact .inr ⟨_, .take htake⟩

/-- A step leaves fewer tokens, or as many tokens and fewer goals. -/
theorem Step.decreases (h : Step before after) :
    Prod.Lex (· < ·) (· < ·) (after.rest.length, after.goals.length)
      (before.rest.length, before.goals.length) := by
  cases h with
  | take h => exact .left _ _ (Nat.lt_succ_self _)
  | finish hgoals hpasses h =>
      rw [hgoals]
      exact .right _ (Nat.lt_succ_self _)

theorem Config.exists_steps (config : Config) :
    ∃ final, Steps config final ∧ final.Ends config.outcome := by
  rcases config.ends_or_step with hends | ⟨after, hstep⟩
  · exact ⟨config, .refl config, hends⟩
  · obtain ⟨final, hsteps, hends⟩ := after.exists_steps
    rw [hstep.outcome_eq]
    exact ⟨final, .next hstep hsteps, hends⟩
termination_by (config.rest.length, config.goals.length)
decreasing_by exact hstep.decreases

end Runs

end Classlet.Analysis
