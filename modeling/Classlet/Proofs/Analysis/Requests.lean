import Classlet.Analysis.Analyzer
import Classlet.Proofs.Analysis.Acceptance
import Classlet.Proofs.Analysis.Layers

/-!
# Requests in turn

An analyzer can be asked for expressions and programs in any order, also after
faults.  Whatever was asked before, it goes on behind the tokens read so far and in
no method scope, and nothing but the fields of the programs it reads is ever bound
in the global table.
-/

namespace Classlet

open Analysis

/-! ## Expressions -/

theorem Expression.rest_read_suffix (scopes : Scope.Stack) (state : State) (last : Position)
    (tokens : List Token) : (read scopes state last tokens).rest <:+ tokens := by
  induction tokens generalizing state last with
  | nil => exact List.suffix_rfl
  | cons token rest ih =>
      rw [read]
      split
      · exact (ih _ _).trans (List.suffix_cons ..)
      · exact List.suffix_rfl
      · exact List.suffix_rfl

namespace Analysis

open Grammar (Bindings Program)

/-! ## Programs -/

namespace Analyzer

/-- The run that a request for a program starts. -/
def outcome (analyzer : Analyzer) : Outcome :=
  run [.program] analyzer.scopes analyzer.last analyzer.rest

variable {analyzer : Analyzer}

theorem program_of_fault?_none (h : analyzer.outcome.fault? = none) :
    analyzer.program = (.ok analyzer.outcome.scopes.global,
      ⟨analyzer.outcome.last, analyzer.outcome.rest, .empty⟩) := by
  unfold outcome at h ⊢
  simp [program, h]

theorem program_of_fault?_some {fault : Fault} (h : analyzer.outcome.fault? = some fault) :
    analyzer.program = (.error fault,
      ⟨analyzer.outcome.last, analyzer.outcome.rest, analyzer.outcome.scopes.closeAll⟩) := by
  unfold outcome at h ⊢
  simp [program, h]

theorem rest_program (analyzer : Analyzer) :
    analyzer.program.2.rest = analyzer.outcome.rest := by
  cases h : analyzer.outcome.fault? with
  | none => rw [program_of_fault?_none h]
  | some fault => rw [program_of_fault?_some h]

theorem locals_program (analyzer : Analyzer) : analyzer.program.2.scopes.locals = [] := by
  cases h : analyzer.outcome.fault? with
  | none => rw [program_of_fault?_none h]; rfl
  | some fault => rw [program_of_fault?_some h]; rfl

theorem layered_program : Layered [.program] [] [] :=
  .outside (by simp [Goal.Outer])

/-- Of the fields that the tokens read spell, all but a duplicate at the end are bound. -/
theorem exists_fields (analyzer : Analyzer) (hlocals : analyzer.scopes.locals = []) :
    ∃ (read : List Token) (declared refused : Bindings),
      analyzer.rest = read ++ analyzer.outcome.rest ∧
      fieldsIn analyzer.outcome.rest read = declared ++ refused ∧
      analyzer.outcome.scopes.global.entries = analyzer.scopes.global.entries ++ declared ∧
      (refused = [] ∨ ∃ (name : Token) (ty previous : Ty), refused = [(name.lexeme, ty)] ∧
        analyzer.outcome.fault? = some (.duplicate name previous) ∧
        analyzer.outcome.scopes.global.get? name.lexeme = some previous) := by
  obtain ⟨final, hsteps, hends⟩ :=
    Config.exists_steps ⟨[.program], analyzer.scopes, analyzer.last, analyzer.rest⟩
  obtain ⟨still, read, declared, hfinal, hrest, hbindings, hfields⟩ :=
    hsteps.layered (hlocals ▸ layered_program)
  -- What the header tokens spell where the run ends is the field that was refused.
  have hfields := hfields [] final.rest rfl
  have hrefused := hends.layered hfinal
  obtain ⟨hscopes, hunread⟩ := hends.stays
  simp only [List.append_nil, List.nil_append] at hfields
  rw [← hunread] at hrest hfields hrefused
  rw [← hscopes] at hbindings hrefused
  exact ⟨read, declared, _, hrest, hfields, hbindings, hrefused⟩

/--
A program that is accepted is read to the end, and its fields are handed over behind
the earlier entries; after a fault all fields read stay but the one that was refused.
-/
theorem program_binds_fields (analyzer : Analyzer) (hlocals : analyzer.scopes.locals = []) :
    ∃ read, analyzer.rest = read ++ analyzer.program.2.rest ∧
      (∀ globals, analyzer.program.1 = .ok globals →
        analyzer.program.2.rest = [] ∧ analyzer.program.2.scopes = .empty ∧
        globals.entries = analyzer.scopes.global.entries ++ fieldsIn [] read) ∧
      ∀ fault, analyzer.program.1 = .error fault → ∃ declared refused : Bindings,
        fieldsIn analyzer.program.2.rest read = declared ++ refused ∧
        analyzer.program.2.scopes = ⟨⟨analyzer.scopes.global.entries ++ declared⟩, []⟩ ∧
        (refused = [] ∨ ∃ (name : Token) (ty previous : Ty), refused = [(name.lexeme, ty)] ∧
          fault = .duplicate name previous ∧
          analyzer.program.2.scopes.global.get? name.lexeme = some previous) := by
  obtain ⟨read, declared, refused, hread, hfields, hbindings, hrefused⟩ :=
    analyzer.exists_fields hlocals
  cases hfault : analyzer.outcome.fault? with
  | none =>
      have hrest : analyzer.outcome.rest = [] := rest_of_fault?_none hfault
      have hnone : refused = [] := by
        rcases hrefused with hnone | ⟨_, _, _, _, hduplicate, _⟩
        · exact hnone
        · rw [hfault] at hduplicate
          cases hduplicate
      rw [hrest, hnone, List.append_nil] at hfields
      rw [program_of_fault?_none hfault]
      refine ⟨read, hread, ?_, ?_⟩
      · intro globals hglobals
        cases hglobals
        exact ⟨hrest, rfl, by rw [hbindings, hfields]⟩
      · intro fault hnever
        cases hnever
  | some fault =>
      have hclosed : analyzer.outcome.scopes.closeAll =
          ⟨⟨analyzer.scopes.global.entries ++ declared⟩, []⟩ := by
        rw [← hbindings]
        rfl
      rw [program_of_fault?_some hfault]
      refine ⟨read, hread, ?_, ?_⟩
      · intro globals hnever
        cases hnever
      · intro shown hshown
        cases hshown
        refine ⟨declared, refused, hfields, hclosed, ?_⟩
        rcases hrefused with hnone | ⟨name, ty, previous, hrefused, hduplicate, hprevious⟩
        · exact .inl hnone
        · rw [hfault] at hduplicate
          cases hduplicate
          exact .inr ⟨name, ty, previous, hrefused, rfl, hprevious⟩

end Analyzer

/-! ## Requests -/

inductive Request where
  | expression
  | program
  deriving DecidableEq, Repr

namespace Analyzer

/-- The analyzer after a request, whatever the answer was. -/
def serve (analyzer : Analyzer) : Request → Analyzer
  | .expression => analyzer.expression.2
  | .program => analyzer.program.2

def serveAll (analyzer : Analyzer) (requests : List Request) : Analyzer :=
  requests.foldl serve analyzer

theorem rest_expression_suffix (analyzer : Analyzer) :
    analyzer.expression.2.rest <:+ analyzer.rest :=
  Expression.rest_read_suffix analyzer.scopes .start analyzer.last analyzer.rest

/-- The step lemma: a request leaves no method scope open and moves forward only. -/
theorem serve_keeps (analyzer : Analyzer) (hlocals : analyzer.scopes.locals = [])
    (request : Request) :
    (analyzer.serve request).scopes.locals = [] ∧
      (analyzer.serve request).rest <:+ analyzer.rest := by
  cases request with
  | expression => exact ⟨hlocals, analyzer.rest_expression_suffix⟩
  | program =>
      obtain ⟨read, _, _, hread, _⟩ := analyzer.exists_fields hlocals
      refine ⟨analyzer.locals_program, read, ?_⟩
      rw [serve, rest_program]
      exact hread.symm

theorem serveAll_keeps (analyzer : Analyzer) (hlocals : analyzer.scopes.locals = [])
    (requests : List Request) :
    (analyzer.serveAll requests).scopes.locals = [] ∧
      (analyzer.serveAll requests).rest <:+ analyzer.rest := by
  induction requests generalizing analyzer with
  | nil => exact ⟨hlocals, List.suffix_rfl⟩
  | cons request requests ih =>
      obtain ⟨hserved, hsuffix⟩ := analyzer.serve_keeps hlocals request
      obtain ⟨hlocals, hrest⟩ := ih (analyzer.serve request) hserved
      exact ⟨hlocals, hrest.trans hsuffix⟩

end Analyzer

/--
After any requests no method scope is open and what is left is the end of the tokens.
The next request for an expression changes no scope.  The next request for a program
hands over the earlier global entries and the fields that the tokens read spell; after
a fault these stay, without the field at which a duplicate name was found.  While the
program is analyzed one method scope is open inside methods, and none elsewhere.
-/
theorem requests_bind_fields (tokens : List Token) (requests : List Request) :
    let before := (Analyzer.ofTokens tokens).serveAll requests
    let after := before.program.2
    before.scopes.depth = 0 ∧ before.rest <:+ tokens ∧
    before.expression.2.scopes = before.scopes ∧
    before.expression.2.rest <:+ before.rest ∧
    (∃ read, before.rest = read ++ after.rest ∧
      (∀ globals, before.program.1 = .ok globals →
        after.rest = [] ∧ after.scopes = .empty ∧
        globals.entries = before.scopes.global.entries ++ fieldsIn [] read) ∧
      ∀ fault, before.program.1 = .error fault → ∃ declared refused : Bindings,
        fieldsIn after.rest read = declared ++ refused ∧
        after.scopes = ⟨⟨before.scopes.global.entries ++ declared⟩, []⟩ ∧
        (refused = [] ∨ ∃ (name : Token) (ty previous : Ty), refused = [(name.lexeme, ty)] ∧
          fault = .duplicate name previous ∧
          after.scopes.global.get? name.lexeme = some previous)) ∧
    ∀ config, Steps ⟨[.program], before.scopes, before.last, before.rest⟩ config →
      (config.InMethod → config.scopes.depth = 1) ∧
      (¬ config.InMethod → config.scopes.depth = 0) := by
  intro before after
  obtain ⟨hlocals, hsuffix⟩ := (Analyzer.ofTokens tokens).serveAll_keeps rfl requests
  refine ⟨congrArg List.length hlocals, hsuffix, rfl, before.rest_expression_suffix, ?_, ?_⟩
  · exact before.program_binds_fields hlocals
  · intro config hsteps
    obtain ⟨still, _, _, hconfig, _⟩ := hsteps.layered (hlocals ▸ Analyzer.layered_program)
    exact hconfig.depth

end Analysis

end Classlet
