import Classlet.Analysis.Notes
import Classlet.Proofs.Analysis.Acceptance
import Classlet.Proofs.Analysis.Fields
import Classlet.Proofs.Analysis.Headings

/-!
# Where tokens come from

An analysis makes up no tokens.  What a goal keeps was read, and each step hands on
tokens that were kept or still to be read.  So the tokens that a fault or a note is
about were given to the analysis, and so were the names in its table.
-/

namespace Classlet

def Lookahead.tokens : Lookahead → List Token
  | token found => [found]
  | ending _ => []

/-- The tokens that a fault is about. -/
def Fault.tokens : Fault → List Token
  | unexpected _ ahead => ahead.tokens
  | duplicate name _ | undeclared name => [name]
  | assignment target _ _ sign => [target, sign]
  | operands sign _ _ | nonBoolean sign _ _ => [sign]

namespace Expression

def Frame.tokens : Frame → List Token
  | operation _ _ sign => [sign]
  | group => []

def State.frames : State → List Frame
  | .operand frames | .operator frames _ => frames

def State.tokens (state : State) : List Token :=
  state.frames.flatMap Frame.tokens

@[simp] theorem State.tokens_start : State.start.tokens = [] := rfl

section Frames

variable {level : Nat} {frames waiting : List Frame} {ty left : Ty} {fault : Fault}

theorem typing_error_tokens {operator : Operator} {sign : Token} {left right : Ty}
    (h : operator.typing sign left right = .error fault) : fault.tokens = [sign] := by
  cases operator <;> simp only [Operator.typing] at h <;> split at h <;> cases h <;> rfl

/-- Operations are completed from the innermost outwards. -/
theorem reduce_suffix (h : reduce level frames ty = .ok (waiting, left)) :
    waiting <:+ frames := by
  induction frames generalizing ty with
  | nil =>
      cases h
      exact List.suffix_rfl
  | cons frame frames ih =>
      cases frame with
      | group =>
          cases h
          exact List.suffix_rfl
      | operation first operator sign =>
          simp only [reduce] at h
          split at h
          · split at h
            · exact (ih h).trans (List.suffix_cons ..)
            · cases h
          · cases h
            exact List.suffix_rfl

theorem tokens_of_reduce (h : reduce level frames ty = .ok (waiting, left)) :
    waiting.flatMap Frame.tokens ⊆ frames.flatMap Frame.tokens := by
  obtain ⟨completed, rfl⟩ := reduce_suffix h
  rw [List.flatMap_append]
  exact List.subset_append_right ..

theorem tokens_of_reduce_error (h : reduce level frames ty = .error fault) :
    fault.tokens ⊆ frames.flatMap Frame.tokens := by
  induction frames generalizing ty with
  | nil => cases h
  | cons frame frames ih =>
      cases frame with
      | group => cases h
      | operation first operator sign =>
          simp only [reduce] at h
          split at h
          · split at h
            · exact List.Subset.trans (ih h) (List.subset_append_right ..)
            · cases h
              rename_i htyping
              rw [typing_error_tokens htyping]
              exact List.subset_append_left ..
          · cases h

end Frames

section States

variable {scopes : Scope.Stack} {token : Token} {ahead : Lookahead} {state next : State}
variable {fault : Fault}

theorem tokens_of_operandType?_error (h : operandType? scopes token = .error fault) :
    fault.tokens = [token] := by
  unfold operandType? at h
  split at h
  · split at h <;> cases h
    rfl
  · split at h <;> cases h
  · cases h
  · cases h

theorem State.tokens_of_take (h : state.take? scopes token = .ok (some next)) :
    next.tokens ⊆ token :: state.tokens := by
  cases state with
  | operand frames =>
      simp only [take?] at h
      split at h
      · cases h
        exact List.subset_cons_self ..
      · split at h
        · simp only [Except.ok.injEq, Option.map_eq_some_iff] at h
          obtain ⟨ty, _, rfl⟩ := h
          exact List.subset_cons_self ..
        · cases h
  | operator frames ty =>
      simp only [take?] at h
      split at h
      · split at h <;> cases h
        exact List.Subset.trans (tokens_of_reduce ‹_›) (List.subset_cons_self ..)
      · split at h <;> cases h
        exact List.cons_subset_cons token (tokens_of_reduce ‹_›)
      · split at h <;> cases h
        rename_i hreduce
        have houter := tokens_of_reduce hreduce
        rw [List.flatMap_cons, Frame.tokens, List.nil_append] at houter
        exact List.Subset.trans houter (List.subset_cons_self ..)
      · cases h

theorem State.tokens_of_take_error (h : state.take? scopes token = .error fault) :
    fault.tokens ⊆ token :: state.tokens := by
  cases state with
  | operand frames =>
      simp only [take?] at h
      split at h
      · cases h
      · split at h <;> cases h
        rw [tokens_of_operandType?_error ‹_›]
        exact List.cons_subset_cons token (List.nil_subset _)
  | operator frames ty =>
      have hwaiting {level : Nat} (hreduce : reduce level frames ty = .error fault) :
          fault.tokens ⊆ token :: (operator frames ty).tokens :=
        List.Subset.trans (tokens_of_reduce_error hreduce) (List.subset_cons_self ..)
      simp only [take?] at h
      split at h
      · split at h <;> cases h
        exact hwaiting ‹_›
      · split at h <;> cases h
        exact hwaiting ‹_›
      · split at h <;> cases h
        exact hwaiting ‹_›
      · cases h

theorem State.tokens_of_finish_error (h : state.finish ahead = .error fault) :
    fault.tokens ⊆ ahead.tokens ++ state.tokens := by
  cases state with
  | operand frames =>
      cases h
      exact List.subset_append_left ..
  | operator frames ty =>
      simp only [finish] at h
      split at h <;> cases h
      · exact List.subset_append_left ..
      · exact List.Subset.trans (tokens_of_reduce_error ‹_›) (List.subset_append_right ..)

end States

end Expression

namespace Analysis

/-! ## Goals -/

def Use.tokens : Use → List Token
  | discard => []
  | assign target _ sign => [target, sign]

/-- The tokens that a goal keeps. -/
def Goal.tokens : Goal → List Token
  | field _ name | memberRest name | enter name | leave name | initializer _ name | target name
  | assign _ name | declare _ name | known name => [name]
  | expression state use => state.tokens ++ use.tokens
  | _ => []

section Goals

variable {goal : Goal} {goals next : List Goal} {scopes after : Scope.Stack} {token : Token}
variable {ahead : Lookahead} {fault : Fault}

theorem Goal.tokens_of_statement? (h : statement? token = some next) :
    next.flatMap Goal.tokens ⊆ [token] := by
  unfold statement? at h
  split at h <;> cases h <;>
    simp [condition, body, forHeader, foreachHeader, word, value, Goal.tokens, Use.tokens]

/--
The goals that replace a goal keep what it kept, and perhaps the token that was taken.
-/
theorem Goal.tokens_of_take (h : goal.take? scopes token = .ok (some next)) :
    next.flatMap Goal.tokens ⊆ token :: goal.tokens := by
  cases goal with
  | expression state use =>
      simp only [take?] at h
      split at h
      · rename_i htake
        simp only [Except.ok.injEq, Option.map_eq_some_iff] at h
        obtain ⟨following, rfl, rfl⟩ := h
        have hstate := Expression.State.tokens_of_take htake
        rw [List.flatMap_singleton]
        exact List.append_subset.mpr
          ⟨List.Subset.trans hstate (List.subset_append_left (token :: state.tokens) use.tokens),
            List.subset_append_right (token :: state.tokens) use.tokens⟩
      · cases h
  | target name =>
      simp only [take?] at h
      split at h
      · cases h
      · simp only [Except.ok.injEq, Option.ite_none_right_eq_some, Option.some.injEq] at h
        obtain ⟨_, rfl⟩ := h
        simp [Goal.tokens, Use.tokens]
  | statements afterIf =>
      simp only [take?, Except.ok.injEq] at h
      split at h
      · cases h
        simp
      · cases h
        simp [Goal.tokens]
      · simp only [Option.ite_none_right_eq_some, Option.some.injEq] at h
        obtain ⟨_, rfl⟩ := h
        simp [body, Goal.tokens]
      · exact tokens_of_statement? h
  | classes closable | members closable =>
      simp only [take?, Except.ok.injEq] at h
      split at h
      · simp only [Option.ite_none_right_eq_some, Option.some.injEq] at h
        obtain ⟨_, rfl⟩ := h
        simp
      · cases h
        simp [Goal.tokens]
      · cases h
        simp [word, Goal.tokens]
      · cases h
  | program | memberRest | firstParameter | moreParameters | moreVariables | moreTargets =>
      simp only [take?, Except.ok.injEq] at h
      split at h <;> cases h <;> simp [method, body, Goal.tokens]
  | memberType | parameterType | counterType | elementType =>
      simp only [take?, Except.ok.injEq, Option.map_eq_some_iff] at h
      obtain ⟨ty, _, rfl⟩ := h
      simp [Goal.tokens]
  | expect | namespaceName | className | memberName | parameterName | variableName | initializer
  | targetName | assign | counterName | stepName | stepOperator =>
      simp only [take?, Except.ok.injEq, Option.ite_none_right_eq_some, Option.some.injEq] at h
      obtain ⟨_, rfl⟩ := h
      simp [Goal.tokens, Use.tokens]
  | field | enter | leave | declare | known => cases h

theorem Goal.tokens_of_take_error (h : goal.take? scopes token = .error fault) :
    fault.tokens ⊆ token :: goal.tokens := by
  cases goal with
  | expression state use =>
      simp only [take?] at h
      split at h
      · cases h
      · cases h
        rename_i htake
        have hstate := Expression.State.tokens_of_take_error htake
        exact List.Subset.trans hstate (List.subset_append_left (token :: state.tokens) use.tokens)
  | target name =>
      simp only [take?] at h
      split at h <;> cases h
      exact List.subset_cons_self ..
  | _ => cases h

theorem tokens_of_bindName_error {ty : Ty} {name : Token}
    (h : bindName scopes ty name = .error fault) : fault.tokens = [name] := by
  unfold bindName at h
  split at h <;> cases h
  rfl

theorem tokens_of_resolveName_error {name : Token}
    (h : resolveName scopes name = .error fault) : fault.tokens = [name] := by
  unfold resolveName at h
  split at h <;> cases h
  rfl

theorem Use.tokens_of_check_error {ty : Ty} {use : Use} (h : use.check ty = .error fault) :
    fault.tokens = use.tokens := by
  cases use with
  | discard => cases h
  | assign target declared sign =>
      simp only [check] at h
      split at h <;> cases h
      rfl

theorem Goal.tokens_of_finish_error (h : goal.finish scopes ahead = .error fault) :
    fault.tokens ⊆ ahead.tokens ++ goal.tokens := by
  have hname {name : Token} (hfault : fault.tokens = [name]) :
      fault.tokens ⊆ ahead.tokens ++ [name] := by
    rw [hfault]
    exact List.subset_append_right ..
  cases goal with
  | program =>
      simp only [finish] at h
      split at h <;> cases h
      exact List.subset_append_left ..
  | field ty name =>
      simp only [finish] at h
      split at h
      · cases h
      · exact hname (tokens_of_bindName_error h)
  | declare ty name => exact hname (tokens_of_bindName_error h)
  | known name => exact hname (tokens_of_resolveName_error h)
  | target name =>
      simp only [finish] at h
      split at h <;> cases h
      · exact List.subset_append_left ..
      · exact hname (tokens_of_resolveName_error ‹_›)
  | expression state use =>
      simp only [finish] at h
      split at h
      · split at h <;> cases h
        rename_i hcheck
        rw [Use.tokens_of_check_error hcheck, Goal.tokens, ← List.append_assoc]
        exact List.subset_append_right ..
      · cases h
        rename_i hfinish
        have hstate := Expression.State.tokens_of_finish_error hfinish
        rw [Goal.tokens, ← List.append_assoc]
        exact List.Subset.trans hstate (List.subset_append_left ..)
  | enter | leave | initializer => cases h
  | _ =>
      cases h
      exact List.subset_append_left ..

end Goals

/-! ## Runs -/

/-- The tokens that a run keeps or has still to read. -/
def Config.tokens (config : Config) : List Token :=
  config.goals.flatMap Goal.tokens ++ config.rest

section Runs

variable {before after config : Config} {outcome : Outcome} {fault : Fault}
  {tokens : List Token}

theorem Config.tokens_ahead (config : Config) : config.ahead.tokens ⊆ config.rest := by
  unfold Config.ahead
  split
  · exact List.nil_subset _
  · rename_i hrest
    rw [hrest]
    exact List.cons_subset_cons _ (List.nil_subset _)

theorem Config.tokens_of_goals {goal : Goal} {goals : List Goal}
    (h : config.goals = goal :: goals) :
    config.tokens = goal.tokens ++ (goals.flatMap Goal.tokens ++ config.rest) := by
  rw [Config.tokens, h, List.flatMap_cons, List.append_assoc]

theorem Step.tokens_subset (h : Step before after) : after.tokens ⊆ before.tokens := by
  cases h with
  | @take goal goals next scopes last token rest h =>
      have hnext := Goal.tokens_of_take h
      intro other hother
      simp only [Config.tokens, List.flatMap_append, List.flatMap_cons, List.mem_append,
        List.mem_cons] at hother ⊢
      rcases hother with (hother | hother) | hother
      · rcases List.mem_cons.mp (hnext hother) with rfl | hkept
        · exact .inr (.inl rfl)
        · exact .inl (.inl hkept)
      · exact .inl (.inr hother)
      · exact .inr (.inr hother)
  | finish hgoals hpasses h =>
      rw [Config.tokens_of_goals hgoals]
      exact List.subset_append_right ..

theorem Config.Ends.tokens_subset (h : config.Ends outcome)
    (hfault : outcome.fault? = some fault) :
    fault.tokens ⊆ config.tokens := by
  cases h with
  | met => cases hfault
  | refuse hgoals hrest h =>
      cases hfault
      rw [Config.tokens_of_goals hgoals, hrest]
      refine List.Subset.trans (Goal.tokens_of_take_error h) ?_
      intro other hother
      rcases List.mem_cons.mp hother with rfl | hkept
      · simp
      · exact List.mem_append_left _ hkept
  | fail hgoals hpasses h =>
      cases hfault
      rw [Config.tokens_of_goals hgoals]
      refine List.Subset.trans (Goal.tokens_of_finish_error h) (List.append_subset.mpr ⟨?_, ?_⟩)
      · exact List.Subset.trans (Config.tokens_ahead config)
          (List.subset_append_of_subset_right _ (List.subset_append_right ..))
      · exact List.subset_append_left ..

theorem Steps.tokens_subset (h : Steps before after) : after.tokens ⊆ before.tokens := by
  induction h with
  | refl => exact List.Subset.refl _
  | next first _ ih => exact List.Subset.trans ih first.tokens_subset

/-- A fault is about tokens that were given to the analysis. -/
theorem tokens_of_analyze_error (h : analyze tokens = .error fault) :
    fault.tokens ⊆ tokens := by
  obtain ⟨final, hsteps, hends⟩ := (Config.initial tokens).exists_steps
  exact List.Subset.trans (hends.tokens_subset (fault?_of_analyze_error h)) hsteps.tokens_subset

end Runs

/-! ## Notes -/

/-- The tokens that a note is about. -/
def Note.tokens : Note → List Token
  | ofNamespace name | ofClass name | entered name _ | left name => [name]
  | completed _ => []

/-- The remarks that are still to come in a run. -/
def Config.notes (config : Config) : List Note :=
  runNotes config.goals config.scopes config.last config.rest

section Notes

variable {goal : Goal} {before after config : Config} {outcome : Outcome}
  {tokens : List Token}
variable {note : Note}

theorem Goal.tokens_of_takeNotes {token : Token} (h : note ∈ goal.takeNotes token) :
    note.tokens = [token] := by
  cases goal with
  | namespaceName | className =>
      rw [List.mem_singleton.mp h]
      rfl
  | _ => cases h

theorem Goal.tokens_of_finishNotes {scopes : Scope.Stack}
    (h : note ∈ goal.finishNotes scopes) :
    note.tokens = goal.tokens := by
  cases goal with
  | enter | leave =>
      rw [List.mem_singleton.mp h]
      rfl
  | _ => cases h

theorem Goal.tokens_of_abandonNotes (h : note ∈ goal.abandonNotes) :
    note.tokens = goal.tokens := by
  cases goal with
  | leave =>
      rw [List.mem_singleton.mp h]
      rfl
  | _ => cases h

/-- Each step makes its notes, about tokens that were kept or the one that is read. -/
theorem Step.exists_notes (h : Step before after) :
    ∃ made, before.notes = made ++ after.notes ∧ ∀ note ∈ made, note.tokens ⊆ before.tokens := by
  cases h with
  | @take goal goals next scopes last token rest h =>
      refine ⟨goal.takeNotes token, ?_, fun note hnote => ?_⟩
      · simp only [Config.notes, runNotes, settleNotes, settle, h]
      · rw [Goal.tokens_of_takeNotes hnote]
        simp [Config.tokens]
  | @finish config goal goals scopes hgoals hpasses h =>
      refine ⟨goal.finishNotes scopes, ?_, fun note hnote => ?_⟩
      · obtain ⟨_, _, last, rest⟩ := before
        cases hgoals
        cases rest with
        | nil =>
            simp_all [Config.notes, Config.ahead, runNotes, closeNotes]
        | cons token rest =>
            have htake := hpasses token rfl
            simp_all [Config.notes, Config.ahead, runNotes, settleNotes, settle]
      · rw [Goal.tokens_of_finishNotes hnote, Config.tokens_of_goals hgoals]
        exact List.subset_append_left ..

/-- Where a run ends, the methods it is in are left. -/
theorem Config.Ends.notes_eq (h : config.Ends outcome) :
    config.notes = config.goals.flatMap Goal.abandonNotes := by
  obtain ⟨goals, scopes, last, rest⟩ := config
  cases h with
  | met hgoals =>
      cases hgoals
      cases rest <;> rfl
  | refuse hgoals hrest h =>
      cases hgoals
      cases hrest
      simp_all [Config.notes, runNotes, settleNotes, settle]
  | fail hgoals hpasses h =>
      cases hgoals
      cases rest with
      | nil => simp_all [Config.notes, Config.ahead, runNotes, closeNotes]
      | cons token rest =>
          have htake := hpasses token rfl
          simp_all [Config.notes, Config.ahead, runNotes, settleNotes, settle]

theorem Config.Ends.notes_subset (h : config.Ends outcome) :
    ∀ note ∈ config.notes, note.tokens ⊆ config.tokens := by
  intro note hnote
  rw [h.notes_eq] at hnote
  obtain ⟨goal, hgoal, hmade⟩ := List.mem_flatMap.mp hnote
  rw [Goal.tokens_of_abandonNotes hmade]
  intro token htoken
  exact List.mem_append_left _ (List.mem_flatMap.mpr ⟨goal, hgoal, htoken⟩)

theorem Steps.notes_subset (h : Steps before after)
    (hafter : ∀ note ∈ after.notes, note.tokens ⊆ after.tokens) :
    ∀ note ∈ before.notes, note.tokens ⊆ before.tokens := by
  induction h with
  | refl => exact hafter
  | next first _ ih =>
      intro note hnote
      obtain ⟨made, hmade, htokens⟩ := first.exists_notes
      rw [hmade] at hnote
      rcases List.mem_append.mp hnote with hnote | hnote
      · exact htokens note hnote
      · exact List.Subset.trans (ih hafter note hnote) first.tokens_subset

/-- The notes of an analysis are about tokens that were given to it. -/
theorem tokens_of_mem_notes (h : note ∈ notes tokens) : note.tokens ⊆ tokens := by
  obtain ⟨final, hsteps, hends⟩ := (Config.initial tokens).exists_steps
  rcases List.mem_append.mp h with hnote | hnote
  · exact hsteps.notes_subset hends.notes_subset note hnote
  · split at hnote
    · rw [List.mem_singleton.mp hnote]
      exact List.nil_subset _
    · cases hnote

end Notes

/-! ## Tables -/

theorem exists_token_of_field? {rest tokens : List Token} {entry : String × Ty}
    (h : field? rest tokens = some entry) : ∃ token ∈ tokens, token.lexeme = entry.1 := by
  unfold field? at h
  split at h
  · rename_i name more
    split at h
    · obtain ⟨ty, _, rfl⟩ := Option.map_eq_some_iff.mp h
      exact ⟨name, by simp, rfl⟩
    · cases h
  · cases h

theorem exists_token_of_fieldsIn {rest tokens : List Token} {entry : String × Ty}
    (h : entry ∈ fieldsIn rest tokens) : ∃ token ∈ tokens, token.lexeme = entry.1 := by
  induction tokens with
  | nil => cases h
  | cons token tokens ih =>
      rcases List.mem_append.mp h with hfield | hmore
      · exact exists_token_of_field? (Option.mem_toList.mp hfield)
      · obtain ⟨other, hother, hname⟩ := ih hmore
        exact ⟨other, List.mem_cons_of_mem _ hother, hname⟩

/-- Each name in the table of an analysis is the lexeme of a token that was given to it. -/
theorem exists_token_of_global {tokens : List Token} {globals : Scope.Table}
    {entry : String × Ty}
    (h : analyze tokens = .ok globals) (hentry : entry ∈ globals.entries) :
    ∃ token ∈ tokens, token.lexeme = entry.1 := by
  obtain ⟨program, rfl⟩ := sentence_of_verdict h
  obtain ⟨_, hfields⟩ := (analyze_program program globals).mp h
  rw [← hfields, ← fieldsIn_program] at hentry
  exact exists_token_of_fieldsIn hentry

end Analysis

end Classlet
