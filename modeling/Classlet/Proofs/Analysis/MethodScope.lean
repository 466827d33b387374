import Classlet.Proofs.Analysis.Acceptance
import Classlet.Proofs.Analysis.Locality
import Classlet.Proofs.Grammar.Locals
import Classlet.Scan.Scanner

/-!
# The scope of a method

A method has one flat scope: its parameters, variables and counters stand in it in the
order of the text, however deep the blocks are in which they are declared.  Blocks and
statements open no scope of their own.  Whether they fail or not, they add names at the
end of the innermost scope and leave all else in the stack as it is.
-/

namespace Classlet.Analysis

open Grammar

/-! ## Parts of a method -/

def block (scopes : Scope.Stack) (last : Position) (tokens : List Token) : Outcome :=
  run Goal.body scopes last tokens

/-- Go on with the other body if an `else` comes next. -/
def Outcome.otherwise (outcome : Outcome) : Outcome :=
  match outcome.fault?, outcome.rest with
  | none, token :: rest =>
      if token.kind = .word .elseWord then block outcome.scopes token.position rest
      else outcome
  | _, _ => outcome

/-- One statement, without the statements that follow it. -/
def statement (scopes : Scope.Stack) (last : Position) : List Token → Outcome
  | [] => ⟨some (.unexpected .statement (.ending last)), scopes, last, []⟩
  | token :: rest =>
      match Goal.statement? token with
      | none =>
          ⟨some (.unexpected .statement (.token token)), scopes, last, token :: rest⟩
      | some next =>
          let outcome := run next.dropLast scopes token.position rest
          if token.kind = .word .ifWord then outcome.otherwise else outcome

section Parts

variable {scopes : Scope.Stack} {last : Position} {token : Token}
  {tokens rest : List Token}
variable {goals next : List Goal}

/-- What a statement asks for ends in the statements that follow it. -/
theorem statement?_eq_append (h : Goal.statement? token = some next) :
    next = next.dropLast ++ [.statements (decide (token.kind = .word .ifWord))] := by
  unfold Goal.statement? at h
  split at h <;> rename_i hkind <;> cases h <;> rw [hkind] <;> rfl

theorem run_statements_true
    (hnext : ∀ token ∈ rest.head?, token.kind ≠ .word .elseWord) :
    run (.statements true :: goals) scopes last rest =
      run (.statements false :: goals) scopes last rest := by
  cases rest with
  | nil => rfl
  | cons token rest =>
      have helse : token.kind ≠ .word .elseWord := hnext token rfl
      have htake : (Goal.statements true).take? scopes token =
          (Goal.statements false).take? scopes token := by
        simp only [Goal.take?]
        split <;> simp_all
      simp only [run, settle, htake]
      rfl

theorem Outcome.followedBy_otherwise (outcome : Outcome) (goals : List Goal) :
    outcome.followedBy (.statements true :: goals) =
      outcome.otherwise.followedBy (.statements false :: goals) := by
  obtain ⟨fault?, scopes, last, rest⟩ := outcome
  cases fault? with
  | some fault => rfl
  | none =>
      cases rest with
      | nil => rfl
      | cons token rest =>
          by_cases helse : token.kind = .word .elseWord
          · have htake : (Goal.statements true).take? scopes token =
                .ok (some (Goal.body ++ [.statements false])) := by
              simp [Goal.take?, helse]
            simp only [followedBy, otherwise, if_pos helse, run_take _ htake,
              List.append_assoc, List.singleton_append, run_append]
            rfl
          · simp only [followedBy, otherwise, if_neg helse]
            exact run_statements_true (by simpa using helse)

/-- A list of statements is its first statement, and then the others. -/
theorem run_statements_eq (afterIf : Bool)
    (hstart : Goal.statement? token = some next) :
    run (.statements afterIf :: goals) scopes last (token :: rest) =
      (statement scopes last (token :: rest)).followedBy
        (.statements false :: goals) := by
  rw [run_take _ (take?_statements scopes afterIf hstart), statement?_eq_append hstart,
    List.append_assoc, run_append, List.singleton_append]
  simp only [statement, hstart]
  by_cases hif : token.kind = .word .ifWord
  · simp only [hif, decide_true, if_true]
    exact Outcome.followedBy_otherwise _ goals
  · simp only [hif, decide_false, if_false]

end Parts

/-! ## The scope of a method -/

section Scopes

variable {outer : Scope.Stack} {table : Scope.Table} {last : Position}
  {tokens : List Token}

theorem block_opened :
    ∃ added : Bindings, (block (outer.opened table) last tokens).scopes =
      outer.opened ⟨table.entries ++ added⟩ := by
  have hlocal : LocalGoals Goal.body := fun goal hgoal =>
    localGoals_method goal (List.mem_cons_of_mem _ hgoal)
  obtain ⟨fault?, added, stop, rest, hrun⟩ := exists_run_opened hlocal table last tokens
  exact ⟨added, by rw [block, hrun outer]⟩

theorem Outcome.otherwise_opened {outcome : Outcome}
    (h : outcome.scopes = outer.opened table) :
    ∃ added : Bindings,
      outcome.otherwise.scopes = outer.opened ⟨table.entries ++ added⟩ := by
  unfold otherwise
  split
  · split
    · rw [h]
      exact block_opened
    · exact ⟨[], by rw [h, List.append_nil]⟩
  · exact ⟨[], by rw [h, List.append_nil]⟩

theorem statement_opened :
    ∃ added : Bindings, (statement (outer.opened table) last tokens).scopes =
      outer.opened ⟨table.entries ++ added⟩ := by
  have hnone : ∃ added : Bindings,
      outer.opened table = outer.opened ⟨table.entries ++ added⟩ :=
    ⟨[], by rw [List.append_nil]⟩
  cases tokens with
  | nil => exact hnone
  | cons token rest =>
      simp only [statement]
      cases hstart : Goal.statement? token with
      | none => exact hnone
      | some next =>
          have hlocal : LocalGoals next.dropLast := fun goal hgoal =>
            Goal.local_of_statement? hstart goal (List.dropLast_subset next hgoal)
          obtain ⟨fault?, front, stop, behind, hrun⟩ :=
            exists_run_opened hlocal table token.position rest
          simp only [hrun outer]
          split
          · let inner := outer.opened ⟨table.entries ++ front⟩
            let outcome : Outcome := ⟨fault?, inner, stop, behind⟩
            obtain ⟨back, hback⟩ :=
              Outcome.otherwise_opened (rfl : outcome.scopes = inner)
            exact ⟨front ++ back, by rw [hback, List.append_assoc]⟩
          · exact ⟨front, rfl⟩

end Scopes

/-- What a method without a fault leaves in its scope. -/
theorem methodRest_scope {scopes : Scope.Stack} {last : Position} {method : Method}
    {rest : List Token}
    (h : (run (.firstParameter :: Goal.body) scopes.push last
      (method.tokens.tail ++ rest)).fault? = none) :
    run (.firstParameter :: Goal.body) scopes.push last (method.tokens.tail ++ rest) =
        ⟨none, scopes.opened ⟨method.parameters ++ method.body.locals⟩,
          lastPlace last method.tokens, rest⟩ ∧
      Bindings.Distinct (method.parameters ++ method.body.locals) := by
  have hanswers := run_methodRest [] scopes last rest method
  rw [List.append_nil] at hanswers
  by_cases hvalid : method.WellTyped
  · refine ⟨?_, hvalid.1⟩
    rw [hanswers.1 hvalid]
    cases rest <;> rfl
  · obtain ⟨fault, hfault, -⟩ := hanswers.2 hvalid
    rw [h] at hfault
    cases hfault

/--
Behind the body of a method that has no fault, its scope holds the parameters and the
locals of the body in the order of the text, each name once, and is closed as it stands.
Whether it has a fault or not, a block or a statement inside of a method only adds
names at the end of its scope.
-/
theorem method_scope_flat :
    (∀ (scopes : Scope.Stack) (last : Position) (tokens : List Token),
      let outcome := run (.firstParameter :: Goal.body) scopes.push last tokens
      (∀ (name : Token) (goals : List Goal),
        run (Goal.method name ++ goals) scopes last tokens =
        outcome.followedBy (.leave name :: goals)) ∧
      (outcome.fault? = none →
        (∃ method : Method, tokens = method.tokens.tail ++ outcome.rest) ∧
        ∀ (method : Method) (rest : List Token), tokens = method.tokens.tail ++ rest →
          outcome.rest = rest ∧
          outcome.scopes.pop = (some ⟨method.parameters ++ method.body.locals⟩, scopes) ∧
          method.parameters ++ method.body.locals = localsOf method.tokens.tail.reverse ∧
          Bindings.Distinct (method.parameters ++ method.body.locals))) ∧
    ∀ (outer : Scope.Stack) (table : Scope.Table) (last : Position)
      (tokens : List Token),
      (∃ added : Bindings, (block (outer.opened table) last tokens).scopes =
        outer.opened ⟨table.entries ++ added⟩) ∧
      (∃ added : Bindings, (statement (outer.opened table) last tokens).scopes =
        outer.opened ⟨table.entries ++ added⟩) ∧
      ∀ (afterIf : Bool) (goals : List Goal),
        (∃ token ∈ tokens.head?, (Goal.statement? token).isSome) →
        run (.statements afterIf :: goals) (outer.opened table) last tokens =
          (statement (outer.opened table) last tokens).followedBy
            (.statements false :: goals) := by
  refine ⟨fun scopes last tokens => ?_, fun outer table last tokens => ?_⟩
  · refine ⟨fun name goals => run_method_eq goals scopes last name tokens,
      fun hnone => ⟨?_, ?_⟩⟩
    · obtain ⟨read, htokens, hread⟩ := exists_admitted hnone
      obtain ⟨method, -, hmethod⟩ := exists_method_of_admits (.blank .leftParen) hread
      exact ⟨method, by rw [hmethod, List.tail_cons, ← htokens]⟩
    · rintro method rest rfl
      obtain ⟨hrun, hdistinct⟩ := methodRest_scope hnone
      rw [hrun]
      exact ⟨rfl, rfl, (localsOf_method method).symm, hdistinct⟩
  · refine ⟨block_opened, statement_opened, fun afterIf goals hbegins => ?_⟩
    obtain ⟨token, hhead, hstart⟩ := hbegins
    obtain ⟨rest, rfl⟩ := List.head?_eq_some_iff.mp hhead
    obtain ⟨next, hstart⟩ := Option.isSome_iff_exists.mp hstart
    exact run_statements_eq afterIf hstart

theorem method_scope_flat_nested :
    let tokens := Scan.tokens
      ("int a) \x7b for (int i = a; i < 3; i += 1) \x7b float b, c; " ++
        "foreach (int x in a) \x7b \x7d \x7d \x7d")
    let outcome :=
      run (.firstParameter :: Goal.body) Scope.Stack.empty.push .start tokens
    outcome.fault? = none ∧ ∃ method : Method,
      tokens = method.tokens.tail ++ outcome.rest ∧
      method.parameters ++ method.body.locals =
        [("a", .int), ("i", .int), ("b", .float), ("c", .float)] := by
  intro tokens outcome
  obtain ⟨hnone, hpop⟩ : outcome.fault? = none ∧ outcome.scopes.pop.1 =
      some ⟨[("a", .int), ("i", .int), ("b", .float), ("c", .float)]⟩ := by
    decide +kernel
  obtain ⟨-, hscope⟩ := method_scope_flat.1 .empty .start tokens
  obtain ⟨⟨method, htokens⟩, hall⟩ := hscope hnone
  obtain ⟨-, hsame, -, -⟩ := hall method _ htokens
  refine ⟨hnone, method, htokens, ?_⟩
  have htable := (congrArg Prod.fst hsame).symm.trans hpop
  exact congrArg Scope.Table.entries (Option.some.inj htable)

end Classlet.Analysis
