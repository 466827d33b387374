import Classlet.Proofs.Analysis.Acceptance
import Classlet.Proofs.Analysis.Locality
import Classlet.Proofs.Grammar.Site

/-!
# Isolation of methods

A method is analyzed in a scope of its own, which is closed behind it.  The global
table has no part in this: over any other table the analysis takes the same course,
and it leaves each table as it was.  So the order of methods among the members of a
class does not matter.
-/

namespace Classlet.Analysis

open Grammar

/-! ## One method -/

/--
Check what follows the name of a method, as an analysis of a program does where a
parameter list follows the name of a member.  No scope of the method is left open.
-/
def Analyzer.method (name : Token) (analyzer : Analyzer) : Except Fault Unit × Analyzer :=
  let outcome := run (.expect .leftParen :: Goal.method name) analyzer.scopes analyzer.last
    analyzer.rest
  match outcome.fault? with
  | none => (.ok (), ⟨outcome.last, outcome.rest, outcome.scopes⟩)
  | some fault => (.error fault, ⟨outcome.last, outcome.rest, outcome.scopes.closeAll⟩)

/--
A member with a parameter list is checked as a method, and the analysis goes on behind it.
-/
theorem run_memberRest_leftParen (name : Token) (goals : List Goal) (scopes : Scope.Stack)
    (last : Position) (opening : Leaf .leftParen) (rest : List Token) :
    run (.memberRest name :: goals) scopes last (opening.token :: rest) =
      (run (.expect .leftParen :: Goal.method name) scopes last
        (opening.token :: rest)).followedBy goals := by
  have htake : (Goal.memberRest name).take? scopes opening.token =
      .ok (some (Goal.method name)) := by
    simp [Goal.take?, opening.kind_eq]
  rw [← run_append, List.cons_append, run_expect, run_take _ htake]

/--
Where a parameter list follows the name of a member, an analysis goes on with what is
left behind the method, or ends with the fault and at the place of the method's check.
-/
theorem run_memberRest_method (name : Token) (goals : List Goal) (analyzer : Analyzer)
    {opening : Leaf .leftParen} {rest : List Token}
    (hrest : analyzer.rest = opening.token :: rest) :
    let whole := run (.memberRest name :: goals) analyzer.scopes analyzer.last analyzer.rest
    let after := (analyzer.method name).2
    ((analyzer.method name).1 = .ok () →
        whole = run goals after.scopes after.last after.rest) ∧
      ∀ fault, (analyzer.method name).1 = .error fault →
        whole.fault? = some fault ∧ whole.last = after.last ∧ whole.rest = after.rest := by
  simp only [hrest, run_memberRest_leftParen, Analyzer.method, Outcome.followedBy]
  generalize run (.expect .leftParen :: Goal.method name) analyzer.scopes analyzer.last
    (opening.token :: rest) = outcome
  obtain ⟨fault?, scopes, last, unread⟩ := outcome
  cases fault? with
  | none => exact ⟨fun _ => rfl, fun _ hfault => by cases hfault⟩
  | some fault =>
      refine ⟨fun hok => (by cases hok), fun _ hfault => ?_⟩
      cases hfault
      exact ⟨rfl, rfl, rfl⟩

theorem run_method_locals (name : Token) (last : Position) (tokens : List Token) :
    ∃ (fault? : Option Fault) (locals : List Scope.Table) (stop : Position)
      (rest : List Token), (fault? = none → locals = []) ∧
      ∀ globals : Scope.Table, run (Goal.method name) ⟨globals, []⟩ last tokens =
        ⟨fault?, ⟨globals, locals⟩, stop, rest⟩ := by
  have hsplit : ∀ globals : Scope.Table,
      run (Goal.method name) ⟨globals, []⟩ last tokens =
        (run (.firstParameter :: Goal.body)
          ((⟨globals, []⟩ : Scope.Stack).opened .empty) last tokens).followedBy
          [.leave name] := by
    intro globals
    have hmethod := run_method_eq [] ⟨globals, []⟩ last name tokens
    rw [List.append_nil] at hmethod
    exact hmethod
  obtain ⟨fault?, added, stop, rest, hrun⟩ :=
    exists_run_opened localGoals_method .empty last tokens
  cases fault? with
  | some fault =>
      refine ⟨some fault, [⟨added⟩], stop, rest, by simp, fun globals => ?_⟩
      rw [hsplit, hrun]
      rfl
  | none =>
      refine ⟨none, [], stop, rest, fun _ => rfl, fun globals => ?_⟩
      rw [hsplit, hrun]
      have hleave : run [.leave name]
          ((⟨globals, []⟩ : Scope.Stack).opened ⟨Scope.Table.empty.entries ++ added⟩) stop rest =
          run [] ⟨globals, []⟩ stop rest :=
        run_finish (fun _ => rfl) (fun _ => rfl)
      simp only [Outcome.followedBy, hleave]
      cases rest <;> rfl

theorem exists_method (name : Token) (last : Position) (rest : List Token) :
    ∃ (verdict : Except Fault Unit) (stop : Position) (unread : List Token),
      ∀ globals : Scope.Table, Analyzer.method name ⟨last, rest, ⟨globals, []⟩⟩ =
        (verdict, ⟨stop, unread, ⟨globals, []⟩⟩) := by
  cases rest with
  | nil =>
      exact ⟨.error (.unexpected (.kind .leftParen) (.ending last)), last, [], fun _ => rfl⟩
  | cons token rest =>
      by_cases hopening : token.kind = .leftParen
      · have htake : ∀ globals : Scope.Table, (Goal.expect .leftParen).take? ⟨globals, []⟩ token =
            .ok (some []) := by
          simp [Goal.take?, hopening]
        obtain ⟨fault?, locals, stop, unread, hlocals, hrun⟩ :=
          run_method_locals name token.position rest
        cases fault? with
        | none =>
            refine ⟨.ok (), stop, unread, fun globals => ?_⟩
            simp [Analyzer.method, run_take _ (htake globals), hrun, hlocals rfl]
        | some fault =>
            refine ⟨.error fault, stop, unread, fun globals => ?_⟩
            simp [Analyzer.method, run_take _ (htake globals), hrun, Scope.Stack.closeAll]
      · refine ⟨.error (.unexpected (.kind .leftParen) (.token token)), last, token :: rest, ?_⟩
        intro globals
        simp [Analyzer.method, run, settle, Goal.take?, Goal.finish, Goal.wanted, hopening,
          Scope.Stack.closeAll]

/-! ## The order of members -/

theorem analyze_exchange {first second : Member}
    (hmethod : first.IsMethod ∨ second.IsMethod)
    (site : ClassSite) (front back : List Member) (globals : Scope.Table) :
    analyze (site.program (front ++ second :: first :: back)).tokens = .ok globals ↔
      analyze (site.program (front ++ first :: second :: back)).tokens = .ok globals := by
  rw [analyze_program, analyze_program, wellTyped_exchange hmethod, fields_exchange hmethod]

/--
An analysis that comes to a parameter list behind the name of a member does what the
check of the method does, and goes on behind it.  Over two different global tables a
method is checked with the same verdict, up to the same place, and both tables stay as
they were.  In a program that is accepted, two neighbouring members of a class of which
one is a method can change places, with the same global table as the result.
-/
theorem methods_isolated :
    (∀ (name : Token) (goals : List Goal) (analyzer : Analyzer) (opening : Leaf .leftParen)
      (rest : List Token), analyzer.rest = opening.token :: rest →
      let whole :=
        run (.memberRest name :: goals) analyzer.scopes analyzer.last analyzer.rest
      let after := (analyzer.method name).2
      ((analyzer.method name).1 = .ok () →
          whole = run goals after.scopes after.last after.rest) ∧
        ∀ fault, (analyzer.method name).1 = .error fault →
          whole.fault? = some fault ∧ whole.last = after.last ∧ whole.rest = after.rest) ∧
    (∀ (name : Token) (last : Position) (rest : List Token) (first second : Scope.Table),
      let one := Analyzer.method name ⟨last, rest, ⟨first, []⟩⟩
      let other := Analyzer.method name ⟨last, rest, ⟨second, []⟩⟩
      one.1 = other.1 ∧ one.2.last = other.2.last ∧ one.2.rest = other.2.rest ∧
        one.2.scopes = ⟨first, []⟩ ∧ other.2.scopes = ⟨second, []⟩) ∧
    ∀ (site : ClassSite) (front back : List Member) (first second : Member)
      (globals : Scope.Table), first.IsMethod ∨ second.IsMethod →
      analyze (site.program (front ++ first :: second :: back)).tokens = .ok globals →
      ∃ before after : List Token,
        (site.program (front ++ first :: second :: back)).tokens =
          before ++ (first.tokens ++ second.tokens) ++ after ∧
        (site.program (front ++ second :: first :: back)).tokens =
          before ++ (second.tokens ++ first.tokens) ++ after ∧
        analyze (before ++ (second.tokens ++ first.tokens) ++ after) = .ok globals := by
  refine ⟨?_, ?_, ?_⟩
  · exact fun name goals analyzer opening rest hrest =>
      run_memberRest_method name goals analyzer hrest
  · intro name last rest first second
    obtain ⟨verdict, stop, unread, hmethod⟩ := exists_method name last rest
    simp [hmethod]
  · intro site front back first second globals hmethod haccepted
    have hsegments : ∀ first second : Member,
        (site.program (front ++ first :: second :: back)).tokens =
          (site.front ++ front.flatMap Member.tokens) ++ (first.tokens ++ second.tokens) ++
            (back.flatMap Member.tokens ++ site.back) := by
      intro first second
      simp [ClassSite.tokens_program]
    refine ⟨_, _, hsegments first second, hsegments second first, ?_⟩
    rw [← hsegments second first, analyze_exchange hmethod]
    exact haccepted

/-- In a class that has a field `x` and a method `f`, the method can come first. -/
theorem methods_isolated_behind_field :
    let access : Mark Kind.access := .blank Kind.access .publicAccess
    let type : Mark Kind.type := .blank Kind.type .int
    let field : Member :=
      ⟨[], access, type, ⟨⟨.identifier, "x", ⟨1, 1⟩⟩, rfl⟩, .field (.blank _)⟩
    let definition : Method := ⟨.blank _, none, .blank _, .blank _, .done [] (.blank _)⟩
    let method : Member :=
      ⟨[], access, type, ⟨⟨.identifier, "f", ⟨1, 9⟩⟩, rfl⟩, .method definition⟩
    let site : ClassSite := ⟨[], .blank _, .blank _, .blank _, [], [], access, .blank _,
      .blank _, .blank _, .blank _, [], .blank _, []⟩
    let globals : Scope.Table := ⟨[("x", .int)]⟩
    (field.IsMethod ∨ method.IsMethod) ∧
      analyze (site.program [field, method]).tokens = .ok globals ∧
      ∃ before after : List Token,
        (site.program [field, method]).tokens =
          before ++ (field.tokens ++ method.tokens) ++ after ∧
        (site.program [method, field]).tokens =
          before ++ (method.tokens ++ field.tokens) ++ after ∧
        analyze (before ++ (method.tokens ++ field.tokens) ++ after) = .ok globals := by
  intro access type field definition method site globals
  have hmethod : field.IsMethod ∨ method.IsMethod := .inr ⟨definition, rfl⟩
  have haccepted : analyze (site.program [field, method]).tokens = .ok globals := by rfl
  exact ⟨hmethod, haccepted,
    methods_isolated.2.2 site [] [] field method globals hmethod haccepted⟩

end Classlet.Analysis
