import Classlet.Proofs.Analysis.Requests
import Classlet.Proofs.Descent.Layers
import Classlet.Proofs.Descent.Progress

/-!
# Rules and goals

What a rule of the grammar reads is what the goals for the same part of a text read:
`Meets`.  A loop stays at the same goals from round to round, and where a rule looks
ahead to choose between others, the goals are the same to what comes next as the goals
of the one that is chosen.  So a program is analyzed as the rules have it.
-/

namespace Classlet

/-- The outcome with the method scopes closed that a fault left open. -/
def Analysis.Outcome.closed (outcome : Outcome) : Outcome :=
  { outcome with scopes := outcome.scopes.closeAll }

theorem Scope.Stack.closeAll_pop (scopes : Stack) :
    scopes.pop.2.closeAll = scopes.closeAll := by
  obtain ⟨global, locals⟩ := scopes
  cases locals <;> rfl

theorem Scope.Stack.closeAll_of_depth {scopes : Stack} (h : scopes.depth = 0) :
    scopes.closeAll = scopes := by
  obtain ⟨global, locals⟩ := scopes
  rw [closeAll, ← List.eq_nil_of_length_eq_zero h]

namespace Descent

open Scope.Stack (closeAll_pop closeAll_of_depth)
open Analysis (Analyzer Goal Outcome Use run)

/-! ## Meeting goals -/

/-- Meeting goals and then some more. -/
def meeting : Continuation (List Goal) (List Goal → Outcome) where
  resume goals analyzer more :=
    (run (goals ++ more) analyzer.scopes analyzer.last analyzer.rest).closed
  abort fault analyzer _ :=
    (Outcome.mk (some fault) analyzer.scopes analyzer.last analyzer.rest).closed

section Meeting

variable {goal other : Goal} {goals : List Goal} {last : Position} {token : Token}
variable {rest : List Token} {scopes after : Scope.Stack} {fault : Fault}
  {analyzer : Analyzer}

theorem meeting_take (next : List Goal) (h : goal.take? scopes token = .ok (some next)) :
    meeting.resume (goal :: goals) ⟨last, token :: rest, scopes⟩ =
      meeting.resume (next ++ goals) ⟨token.position, rest, scopes⟩ := by
  funext more
  simp only [meeting, List.cons_append, Analysis.run_take next h, List.append_assoc]

theorem meeting_take_error (h : goal.take? scopes token = .error fault) :
    meeting.resume (goal :: goals) ⟨last, token :: rest, scopes⟩ =
      meeting.abort fault ⟨last, token :: rest, scopes⟩ := by
  funext more
  simp only [meeting, List.cons_append, run, Analysis.settle, h]

/-- A goal that does not take what comes next is finished before it. -/
theorem meeting_skip
    (htake : ∀ token ∈ analyzer.rest.head?, goal.take? analyzer.scopes token = .ok none) :
    meeting.resume (goal :: goals) analyzer =
      match goal.finish analyzer.scopes analyzer.ahead with
      | .ok after => meeting.resume goals { analyzer with scopes := after }
      | .error fault => meeting.abort fault analyzer := by
  obtain ⟨last, rest, scopes⟩ := analyzer
  funext more
  cases rest with
  | nil =>
      simp only [meeting, List.cons_append, run, Analysis.close, Analyzer.ahead]
      cases goal.finish scopes (.ending last) <;> rfl
  | cons token rest =>
      have htake : goal.take? scopes token = .ok none := htake token rfl
      simp only [meeting, List.cons_append, run, Analysis.settle, Analyzer.ahead, htake]
      cases goal.finish scopes (.token token) <;> rfl

theorem meeting_finish
    (htake : ∀ token ∈ analyzer.rest.head?, goal.take? analyzer.scopes token = .ok none)
    (hfinish : goal.finish analyzer.scopes analyzer.ahead = .ok after) :
    meeting.resume (goal :: goals) analyzer =
      meeting.resume goals { analyzer with scopes := after } := by
  rw [meeting_skip htake, hfinish]

theorem meeting_fail
    (htake : ∀ token ∈ analyzer.rest.head?, goal.take? analyzer.scopes token = .ok none)
    (hfinish : goal.finish analyzer.scopes analyzer.ahead = .error fault) :
    meeting.resume (goal :: goals) analyzer = meeting.abort fault analyzer := by
  rw [meeting_skip htake, hfinish]

/-- Goals that do the same with what comes next. -/
theorem meeting_congr
    (htake : ∀ token ∈ analyzer.rest.head?,
      goal.take? analyzer.scopes token = other.take? analyzer.scopes token)
    (hfinish : goal.finish analyzer.scopes analyzer.ahead =
      other.finish analyzer.scopes analyzer.ahead) :
    meeting.resume (goal :: goals) analyzer = meeting.resume (other :: goals) analyzer := by
  obtain ⟨last, rest, scopes⟩ := analyzer
  funext more
  cases rest with
  | nil =>
      have hfinish : goal.finish scopes (.ending last) = other.finish scopes (.ending last) :=
        hfinish
      simp only [meeting, List.cons_append, run, Analysis.close, hfinish]
  | cons token rest =>
      have htake : goal.take? scopes token = other.take? scopes token := htake token rfl
      have hfinish : goal.finish scopes (.token token) = other.finish scopes (.token token) :=
        hfinish
      simp only [meeting, List.cons_append, run, Analysis.settle, htake, hfinish]

end Meeting

/-! ## Rules that meet goals -/

/-- To meet goals is to follow the rule and to meet the later ones where it ends. -/
def Meets {α : Type} (goals : List Goal) (rule : Rule α) (later : α → List Goal) : Prop :=
  ∀ analyzer, Leads meeting goals analyzer rule later fun _ _ => True

section Meets

variable {α β : Type} {goals : List Goal} {rule : Rule α} {next : α → Rule β}
variable {middle : α → List Goal} {later : β → List Goal}

theorem meets_pure (later : β → List Goal) (result : β) :
    Meets (later result) (pure result) later :=
  fun _ => .ok rfl rfl trivial

theorem Meets.bind (h : Meets goals rule middle)
    (hnext : ∀ result, Meets (middle result) (next result) later) :
    Meets goals (rule >>= next) later :=
  fun analyzer => (h analyzer).bind fun result after _ => hnext result after

theorem meets_take {goal : Goal} {wanted : Wanted} {pick : Token → Option α}
    (next : α → List Goal)
    (htake : ∀ scopes token, goal.take? scopes token = .ok ((pick token).map next))
    (hfinish : ∀ scopes ahead, goal.finish scopes ahead = .error (.unexpected wanted ahead)) :
    Meets (goal :: goals) (take wanted pick) fun found => next found ++ goals := by
  rintro ⟨last, rest, scopes⟩
  refine leads_take (fun {token behind found} hrest hpick => ?_) fun hnone => ?_
  · obtain rfl : rest = token :: behind := hrest
    exact meeting_take (next found) (by rw [htake, hpick]; rfl)
  · refine meeting_fail (fun token htoken => ?_) (hfinish scopes _)
    rw [htake, hnone token htoken]
    rfl

theorem meets_read {goal : Goal} {kind : Kind} {next : Token → List Goal}
    (htake : ∀ scopes token,
      goal.take? scopes token = .ok (if token.kind = kind then some (next token) else none))
    (hfinish : ∀ scopes ahead, goal.finish scopes ahead = .error (.unexpected (.kind kind) ahead)) :
    Meets (goal :: goals) (read kind) fun token => next token ++ goals := by
  refine meets_take next (fun scopes token => ?_) hfinish
  rw [htake]
  by_cases hkind : token.kind = kind
  · rw [if_pos hkind, ofKind?_of_eq hkind]
    rfl
  · rw [if_neg hkind, ofKind?_of_ne hkind]
    rfl

theorem meets_expect {goal : Goal} {kind : Kind}
    (htake : ∀ scopes token,
      goal.take? scopes token = .ok (if token.kind = kind then some [] else none))
    (hfinish : ∀ scopes ahead, goal.finish scopes ahead = .error (.unexpected (.kind kind) ahead)) :
    Meets (goal :: goals) (expect kind) fun _ => goals :=
  Meets.bind (meets_read htake hfinish) fun _ => meets_pure (fun _ => goals) ()

theorem meets_token (kind : Kind) (goals : List Goal) :
    Meets (.expect kind :: goals) (expect kind) fun _ => goals :=
  meets_expect (fun _ _ => rfl) fun _ _ => rfl

theorem meets_type {goal : Goal} {next : Ty → List Goal}
    (htake : ∀ scopes token, goal.take? scopes token = .ok (token.kind.type?.map next))
    (hfinish : ∀ scopes ahead, goal.finish scopes ahead = .error (.unexpected .type ahead)) :
    Meets (goal :: goals) type fun ty => next ty ++ goals :=
  meets_take next htake hfinish

/-! ### Names -/

theorem meets_declare (ty : Ty) (name : Token) (goals : List Goal) :
    Meets (.declare ty name :: goals) (declare ty name) fun _ => goals := by
  intro analyzer
  cases hbind : Analysis.bindName analyzer.scopes ty name with
  | ok scopes =>
      exact .ok (declare_ok hbind) (meeting_finish (fun _ _ => rfl) hbind) trivial
  | error fault => exact .error (declare_error hbind) (meeting_fail (fun _ _ => rfl) hbind)

theorem meets_known (name : Token) (goals : List Goal) :
    Meets (.known name :: goals) (resolve name) fun _ => goals := by
  intro analyzer
  cases hlookup : analyzer.scopes.lookup name.lexeme with
  | some ty =>
      refine .ok (resolve_some hlookup) (meeting_finish (fun _ _ => rfl) ?_) trivial
      simp only [Goal.finish, Analysis.resolveName, hlookup]
  | none =>
      refine .error (resolve_none hlookup) (meeting_fail (fun _ _ => rfl) ?_)
      simp only [Goal.finish, Analysis.resolveName, hlookup]

/-- What the target of an assignment is known to be. -/
theorem meets_target (name : Token) (goals : List Goal) :
    Meets (.target name :: goals) (resolve name) fun ty => .assign ty name :: goals := by
  intro analyzer
  cases hlookup : analyzer.scopes.lookup name.lexeme with
  | some ty =>
      refine .ok (resolve_some hlookup) (meeting_congr (fun _ _ => ?_) ?_) trivial
      · simp only [Goal.take?, hlookup]
      · simp only [Goal.finish, Analysis.resolveName, hlookup, Goal.wanted]
  | none =>
      refine .error (resolve_none hlookup) ?_
      obtain ⟨last, rest, scopes⟩ := analyzer
      cases rest with
      | nil =>
          refine meeting_fail ?_ ?_
          · rintro _ ⟨⟩
          · simp only [Goal.finish, Analysis.resolveName, hlookup]
      | cons token rest =>
          exact meeting_take_error (by simp only [Goal.take?, hlookup])

/-! ### Expressions -/

theorem meeting_expression {bound : Nat} {use : Use} {analyzer after : Analyzer}
    {verdict : Except Fault Ty} (h : expression bound analyzer = some (verdict, after)) :
    meeting.resume (.expression .start use :: goals) analyzer =
      meeting.settle (fun _ => goals) (verdict.bind use.check) after := by
  obtain ⟨rfl, rfl⟩ := Prod.mk.inj (expression_of_some h)
  obtain ⟨last, rest, scopes⟩ := analyzer
  funext more
  simp only [meeting, List.cons_append, Analysis.run_expression, Analysis.afterReading,
    Continuation.settle]
  cases (Expression.read scopes .start last rest).verdict with
  | error fault => rfl
  | ok ty => cases hcheck : use.check ty <;> simp only [Except.bind, hcheck]

theorem meets_value (bound : Nat) (name : Token) (ty : Ty) (sign : Token)
    (goals : List Goal) :
    Meets (.expression .start (.assign name ty sign) :: goals) (value bound name ty sign)
      fun _ => goals := by
  intro analyzer verdict stop hvalue
  match hrule : expression bound analyzer with
  | none => cases (bind_none hrule).symm.trans hvalue
  | some (.error fault, after) =>
      cases (bind_error hrule).symm.trans hvalue
      exact ⟨meeting_expression hrule, nofun⟩
  | some (.ok found, after) =>
      cases (bind_ok hrule).symm.trans hvalue
      exact ⟨meeting_expression hrule, fun _ _ => trivial⟩

theorem meets_discard (bound : Nat) (goals : List Goal) :
    Meets (Goal.value :: goals) (expression bound) fun _ => goals := by
  intro analyzer verdict after hrule
  refine ⟨(meeting_expression hrule).trans ?_, fun _ _ => trivial⟩
  cases verdict <;> rfl

end Meets

/-! ## Looking ahead -/

section Ahead

variable {α : Type} {state goals : List Goal} {analyzer : Analyzer} {later : α → List Goal}

theorem leads_ahead? {next : Option Kind → Rule α} {post : α → Analyzer → Prop}
    (h : Leads meeting state analyzer (next analyzer.ahead.kind?) later post) :
    Leads meeting state analyzer (ahead? >>= next) later post :=
  .via rfl h rfl

/-- Where a token of a kind comes next that a goal takes, the goal expects that kind. -/
theorem meeting_expect {goal : Goal} {kind : Kind} (next : List Goal)
    (hahead : analyzer.ahead.kind? = some kind)
    (htake : ∀ scopes token, token.kind = kind → goal.take? scopes token = .ok (some next)) :
    meeting.resume (goal :: goals) analyzer =
      meeting.resume (.expect kind :: (next ++ goals)) analyzer := by
  obtain ⟨last, rest, scopes⟩ := analyzer
  cases rest with
  | nil => cases hahead
  | cons token rest =>
      have hkind : token.kind = kind := Option.some.inj hahead
      refine (meeting_take next (htake scopes token hkind)).trans (meeting_take [] ?_).symm
      rw [Goal.take?, if_pos hkind]

theorem kind_ne_of_ahead {kind : Kind} (h : analyzer.ahead.kind? ≠ some kind) :
    ∀ token ∈ analyzer.rest.head?, token.kind ≠ kind := by
  obtain ⟨last, rest, scopes⟩ := analyzer
  cases rest with
  | nil => exact nofun
  | cons token rest =>
      rintro _ ⟨⟩ hkind
      exact h (congrArg some hkind)

/-- A round up to a closing brace, at which the goals are the same as to expect it. -/
theorem leads_untilBrace {rule : Rule Unit}
    (hlast : analyzer.ahead.kind? = some .rightBrace →
      meeting.resume state analyzer = meeting.resume goals analyzer)
    (hrule : analyzer.ahead.kind? ≠ some .rightBrace →
      Leads meeting state analyzer rule (fun _ => state) fun _ _ => True) :
    Leads meeting state analyzer (untilBrace rule) (fun next? => next?.elim goals fun _ => state)
      fun _ _ => True := by
  refine leads_ahead? ?_
  by_cases hbrace : analyzer.ahead.kind? = some .rightBrace
  · rw [if_pos hbrace]
    exact .ok rfl (hlast hbrace) trivial
  · rw [if_neg hbrace]
    exact (hrule hbrace).bind fun _ _ _ => .ok rfl rfl trivial

theorem meets_loop {round : Rule (Option Unit)} {goals others : List Goal}
    (h : Meets goals round fun next? => next?.elim others fun _ => goals) (bound : Nat) :
    Meets goals (loop (fun _ => round) bound ()) fun _ => others := by
  intro analyzer
  refine @leads_loop _ _ _ meeting _ (fun _ => goals) (fun _ => others) (fun _ _ => True)
    (fun _ _ => True) (fun _ analyzer _ => (h analyzer).mono ?_) bound () analyzer trivial
  rintro (_ | _) _ _ <;> trivial

/-- The parts in a pair of braces: `closable` is `goal`, but that the brace may come. -/
theorem meets_rounds {goal closable : Goal} {rule : Rule Unit}
    (hrule : Meets (goal :: goals) rule fun _ => closable :: goals)
    (hlast : ∀ scopes token, token.kind = .rightBrace → closable.take? scopes token = .ok (some []))
    (hother : ∀ scopes token, token.kind ≠ .rightBrace →
      closable.take? scopes token = goal.take? scopes token)
    (hfinish : ∀ scopes ahead, closable.finish scopes ahead = goal.finish scopes ahead)
    (bound : Nat) :
    Meets (closable :: goals) (loop (fun _ => untilBrace rule) bound ()) fun _ =>
      .expect .rightBrace :: goals := by
  refine meets_loop (fun analyzer => leads_untilBrace (fun hbrace => ?_) fun hbrace => ?_) bound
  · exact meeting_expect [] hbrace hlast
  · refine (hrule analyzer).congr rfl (meeting_congr (fun token htoken => ?_) (hfinish _ _))
    exact hother _ token (kind_ne_of_ahead hbrace token htoken)

/-- The end of a list, or a comma behind which it goes on. -/
theorem meets_comma? {goal : Goal} {kind : Kind} (next : List Goal)
    (htake : ∀ scopes token, goal.take? scopes token = .ok (
      if token.kind = .comma then some next else if token.kind = kind then some [] else none))
    (hfinish : ∀ scopes ahead, goal.finish scopes ahead = .error (.unexpected (.kind kind) ahead))
    (goals : List Goal) :
    Meets (goal :: goals) comma? fun next? =>
      next?.elim (.expect kind :: goals) fun _ => next ++ goals := by
  rintro ⟨last, rest, scopes⟩
  cases rest with
  | nil =>
      exact .via take?_nil (.ok rfl rfl trivial) (meeting_congr nofun (hfinish scopes _))
  | cons token rest =>
      by_cases hcomma : token.kind = .comma
      · refine .via (take?_some (ofKind?_of_eq hcomma)) (.ok rfl rfl trivial) (meeting_take next ?_)
        rw [htake, if_pos hcomma]
      · refine .via (take?_none (ofKind?_of_ne hcomma)) (.ok rfl rfl trivial) (meeting_congr ?_ ?_)
        · rintro _ ⟨⟩
          rw [htake, if_neg hcomma]
          rfl
        · exact hfinish scopes _

end Ahead

/-! ## Statements -/

section Statements

variable {bound : Nat} {block : Rule Unit} {goals : List Goal} {last : Position}
variable {token : Token} {rest : List Token} {scopes : Scope.Stack}

theorem meets_condition (bound : Nat) (goals : List Goal) :
    Meets (Goal.condition ++ goals) (condition bound) fun _ => goals := by
  refine Meets.bind (meets_token _ _) fun _ => (meets_discard bound _).bind fun _ => ?_
  exact meets_token _ _

theorem meets_initializer (ty : Ty) (name : Token) (goals : List Goal) :
    Meets (.initializer ty name :: goals) (initializer bound name ty) fun _ => goals := by
  rintro ⟨last, rest, scopes⟩
  cases rest with
  | nil => exact .via take?_nil (.ok rfl rfl trivial) (meeting_finish nofun rfl)
  | cons token rest =>
      by_cases hassign : token.kind = .assign
      · refine .via (take?_some (ofKind?_of_eq hassign)) (meets_value bound name ty token goals _)
          (meeting_take [.expression .start (.assign name ty token)] ?_)
        rw [Goal.take?, if_pos hassign]
      · refine .via (take?_none (ofKind?_of_ne hassign)) (.ok rfl rfl trivial)
          (meeting_finish ?_ rfl)
        rintro _ ⟨⟩
        rw [Goal.take?, if_neg hassign]

theorem meets_declarator (ty : Ty) (goals : List Goal) :
    Meets (.variableName ty :: goals) (declarator bound ty) fun next? =>
      next?.elim (.expect .semicolon :: goals) fun _ => .variableName ty :: goals := by
  refine (meets_read (fun _ _ => rfl) fun _ _ => rfl).bind fun name => ?_
  refine (meets_declare ty name _).bind fun _ => (meets_initializer ty name _).bind fun _ => ?_
  refine meets_comma? [.variableName ty] (fun scopes token => ?_) (fun _ _ => rfl) goals
  cases hkind : token.kind <;> simp [Goal.take?, hkind]

theorem meets_assignment (goals : List Goal) :
    Meets (.targetName :: .moreTargets :: goals) (assignment bound) fun next? =>
      next?.elim (.expect .semicolon :: goals) fun _ => .targetName :: .moreTargets :: goals := by
  refine (meets_read (fun _ _ => rfl) fun _ _ => rfl).bind fun name => ?_
  refine (meets_target name _).bind fun ty => ?_
  refine (meets_read (fun _ _ => rfl) fun _ _ => rfl).bind fun sign => ?_
  refine (meets_value bound name ty sign _).bind fun _ => ?_
  refine meets_comma? [.targetName, .moreTargets] (fun scopes token => ?_) (fun _ _ => rfl) goals
  cases hkind : token.kind <;> simp [Goal.take?, hkind]

/-- A rule for the body of a method or a statement. -/
def MeetsBody (block : Rule Unit) : Prop :=
  ∀ goals, Meets (Goal.body ++ goals) block fun _ => goals

/-- A rule for what comes next in a list of statements, which goes on behind it. -/
def ReadsStatement (goals : List Goal) (analyzer : Analyzer) (rule : Rule Unit) : Prop :=
  Leads meeting (.statements false :: goals) analyzer rule (fun _ => .statements false :: goals)
    fun _ _ => True

/--
A statement that begins with a word of its own, at which its goals are put on the list.
-/
theorem readsStatement_word {reserved : Word} {rule : Rule Unit} (next : List Goal)
    (hkind : token.kind = .word reserved)
    (htake : (Goal.statements false).take? scopes token = .ok (some next))
    (h : Meets (next ++ goals) rule fun _ => .statements false :: goals) :
    ReadsStatement goals ⟨last, token :: rest, scopes⟩
      (expect (.word reserved) >>= fun _ => rule) :=
  .via (expect_of_eq hkind) (h _) (meeting_take next htake)

theorem readsStatement_localVariables {ty : Ty} (hkind : token.kind = .type ty) :
    ReadsStatement goals ⟨last, token :: rest, scopes⟩ (localVariables bound) := by
  have htype : type ⟨last, token :: rest, scopes⟩ = some (.ok ty, ⟨token.position, rest, scopes⟩) :=
    take_some (by rw [hkind]; rfl)
  refine .via htype ?_ (meeting_take [.variableName ty, .statements false] ?_)
  · exact (meets_loop (meets_declarator ty _) bound).bind (fun _ => meets_token _ _) _
  · simp only [Goal.take?, hkind, Goal.statement?]

theorem readsStatement_assignments (hkind : token.kind = .identifier) :
    ReadsStatement goals ⟨last, token :: rest, scopes⟩ (assignments bound) := by
  have hassignments : Meets (.targetName :: .moreTargets :: .statements false :: goals)
      (assignments bound) fun _ => .statements false :: goals :=
    (meets_loop (meets_assignment _) bound).bind fun _ => meets_token _ _
  refine (hassignments _).congr rfl ?_
  refine (meeting_take [.target token, .moreTargets, .statements false] ?_).trans
    (meeting_take [.target token] ?_).symm
  · simp only [Goal.take?, hkind, Goal.statement?]
  · simp only [Goal.take?, hkind, if_true]

/--
Behind the body of an `if` an `else` may come; all else is as in any list of statements.
-/
theorem meets_else (hblock : MeetsBody block) (goals : List Goal) :
    Meets (.statements true :: goals) (do
      match ← take? (ofKind? (.word .elseWord)) with
      | some _ => block
      | none => pure ()) fun _ => .statements false :: goals := by
  rintro ⟨last, rest, scopes⟩
  cases rest with
  | nil => exact .via take?_nil (.ok rfl rfl trivial) (meeting_congr nofun rfl)
  | cons token rest =>
      by_cases helse : token.kind = .word .elseWord
      · refine .via (take?_some (ofKind?_of_eq helse)) (hblock _ _)
          (meeting_take (Goal.body ++ [.statements false]) ?_)
        simp only [Goal.take?, helse, if_true]
      · refine .via (take?_none (ofKind?_of_ne helse)) (.ok rfl rfl trivial) (meeting_congr ?_ rfl)
        rintro _ ⟨⟩
        simp only [Goal.take?]
        split
        · rfl
        · rfl
        · exact absurd ‹_› helse
        · rfl

theorem readsStatement_if (hblock : MeetsBody block) (hkind : token.kind = .word .ifWord) :
    ReadsStatement goals ⟨last, token :: rest, scopes⟩ (ifStatement bound block) := by
  refine readsStatement_word (Goal.condition ++ Goal.body ++ [.statements true]) hkind ?_ ?_
  · simp only [Goal.take?, hkind, Goal.statement?]
  · exact (meets_condition bound _).bind fun _ => (hblock _).bind fun _ => meets_else hblock goals

theorem readsStatement_while (hblock : MeetsBody block)
    (hkind : token.kind = .word .whileWord) :
    ReadsStatement goals ⟨last, token :: rest, scopes⟩ (whileStatement bound block) := by
  refine readsStatement_word (Goal.condition ++ Goal.body ++ [.statements false]) hkind ?_ ?_
  · simp only [Goal.take?, hkind, Goal.statement?]
  · exact (meets_condition bound _).bind fun _ => hblock _

theorem meets_forHeader (bound : Nat) (goals : List Goal) :
    Meets (Goal.forHeader ++ goals) (forHeader bound) fun _ => goals := by
  refine Meets.bind (meets_token _ _) fun _ => ?_
  refine Meets.bind (meets_type (fun _ _ => rfl) fun _ _ => rfl) fun ty => ?_
  refine (meets_read (fun _ _ => rfl) fun _ _ => rfl).bind fun name => ?_
  refine (meets_declare ty name _).bind fun _ => ?_
  refine (meets_read (fun _ _ => rfl) fun _ _ => rfl).bind fun sign => ?_
  refine (meets_value bound name ty sign _).bind fun _ => (meets_token _ _).bind fun _ => ?_
  refine (meets_discard bound _).bind fun _ => (meets_token _ _).bind fun _ => ?_
  refine (meets_read (fun _ _ => rfl) fun _ _ => rfl).bind fun counter => ?_
  refine (meets_known counter _).bind fun _ => ?_
  refine Meets.bind (meets_take (fun _ => []) (fun _ token => ?_) fun _ _ => rfl) fun _ => ?_
  · simp only [Goal.take?, Option.guard]
    split <;> rfl
  · exact Meets.bind (meets_token _ _) fun _ => meets_token _ _

theorem readsStatement_for (hblock : MeetsBody block)
    (hkind : token.kind = .word .forWord) :
    ReadsStatement goals ⟨last, token :: rest, scopes⟩ (forStatement bound block) := by
  refine readsStatement_word (Goal.forHeader ++ Goal.body ++ [.statements false]) hkind ?_ ?_
  · simp only [Goal.take?, hkind, Goal.statement?]
  · exact (meets_forHeader bound _).bind fun _ => hblock _

theorem readsStatement_do (hblock : MeetsBody block) (hkind : token.kind = .word .doWord) :
    ReadsStatement goals ⟨last, token :: rest, scopes⟩ (doStatement bound block) := by
  refine readsStatement_word (Goal.body ++ [.word .whileWord] ++ Goal.condition ++
    [.expect .semicolon, .statements false]) hkind ?_ ?_
  · simp only [Goal.take?, hkind, Goal.statement?]
  refine (hblock _).bind fun _ => (meets_token _ _).bind fun _ => ?_
  exact (meets_condition bound _).bind fun _ => meets_token _ _

theorem meets_foreachHeader (bound : Nat) (goals : List Goal) :
    Meets (Goal.foreachHeader ++ goals) (foreachHeader bound) fun _ => goals := by
  refine Meets.bind (meets_token _ _) fun _ => ?_
  refine Meets.bind (meets_type (fun _ _ => rfl) fun _ _ => rfl) fun _ => ?_
  refine Meets.bind (meets_token _ _) fun _ => Meets.bind (meets_token _ _) fun _ => ?_
  exact (meets_discard bound _).bind fun _ => meets_token _ _

theorem readsStatement_foreach (hblock : MeetsBody block)
    (hkind : token.kind = .word .foreachWord) :
    ReadsStatement goals ⟨last, token :: rest, scopes⟩ (foreachStatement bound block) := by
  refine readsStatement_word (Goal.foreachHeader ++ Goal.body ++ [.statements false]) hkind ?_ ?_
  · simp only [Goal.take?, hkind, Goal.statement?]
  · exact (meets_foreachHeader bound _).bind fun _ => hblock _

theorem readsStatement_statementOf (hblock : MeetsBody block)
    (huncommented : token.kind.isComment = false) (hbrace : token.kind ≠ .rightBrace) :
    ReadsStatement goals ⟨last, token :: rest, scopes⟩ (statementOf bound block) := by
  refine leads_ahead? ?_
  have hahead : (Analyzer.ahead ⟨last, token :: rest, scopes⟩).kind? = some token.kind := rfl
  have hother (htake : (Goal.statements false).take? scopes token = .ok none) :
      ReadsStatement goals ⟨last, token :: rest, scopes⟩ (fail .statement) := by
    refine .error rfl (meeting_fail ?_ rfl)
    rintro _ ⟨⟩
    exact htake
  rw [hahead]
  cases hkind : token.kind with
  | identifier => exact readsStatement_assignments hkind
  | type ty => exact readsStatement_localVariables hkind
  | word reserved =>
      cases reserved with
      | ifWord => exact readsStatement_if hblock hkind
      | whileWord => exact readsStatement_while hblock hkind
      | forWord => exact readsStatement_for hblock hkind
      | doWord => exact readsStatement_do hblock hkind
      | foreachWord => exact readsStatement_foreach hblock hkind
      | _ => exact hother (by simp [Goal.take?, hkind, Goal.statement?])
  | rightBrace => exact absurd hkind hbrace
  | comment style =>
      rw [hkind] at huncommented
      cases huncommented
  | _ => exact hother (by simp only [Goal.take?, hkind, Goal.statement?])

theorem meets_nextStatement (hblock : MeetsBody block) (goals : List Goal) :
    Meets (.statements false :: goals) (nextStatement (statementOf bound block)) fun next? =>
      next?.elim (.expect .rightBrace :: goals) fun _ => .statements false :: goals := by
  intro analyzer
  refine (leads_skipComments (fun {last token rest scopes} hcomment =>
    meeting_take [.statements false] ?_) analyzer).bind ?_
  · cases hkind : token.kind with
    | comment style => simp only [Goal.take?, hkind]
    | _ =>
        rw [hkind] at hcomment
        cases hcomment
  rintro ⟨⟩ ⟨last, rest, scopes⟩ ⟨huncommented, -⟩
  refine leads_ahead? ?_
  cases rest with
  | nil => exact .ok rfl (meeting_congr nofun rfl) trivial
  | cons token rest =>
      refine leads_untilBrace (fun hbrace => ?_) fun hbrace => ?_
      · exact meeting_expect [] hbrace fun _ _ hkind => by simp only [Goal.take?, hkind]
      · have hbrace : token.kind ≠ .rightBrace := fun hkind => hbrace (congrArg some hkind)
        exact readsStatement_statementOf hblock (huncommented _ rfl) hbrace

theorem meets_block (bound : Nat) : MeetsBody (Descent.block bound) := by
  induction bound with
  | zero => exact fun _ _ => .exhausted
  | succ bound ih =>
      intro goals
      refine Meets.bind (meets_token _ _) fun _ => ?_
      exact (meets_loop (meets_nextStatement ih goals) bound).bind fun _ => meets_token _ _

end Statements

/-! ## Members and classes -/

section Members

variable {bound : Nat} {goals : List Goal}

theorem meets_parameter (goals : List Goal) :
    Meets (.parameterType :: .moreParameters :: goals) parameter fun next? =>
      next?.elim (.expect .rightParen :: goals) fun _ =>
        .parameterType :: .moreParameters :: goals := by
  refine Meets.bind (meets_type (fun _ _ => rfl) fun _ _ => rfl) fun ty => ?_
  refine (meets_read (fun _ _ => rfl) fun _ _ => rfl).bind fun name => ?_
  refine (meets_declare ty name _).bind fun _ => ?_
  refine meets_comma? [.parameterType, .moreParameters] (fun scopes token => ?_) (fun _ _ => rfl)
    goals
  cases hkind : token.kind <;> simp [Goal.take?, hkind]

/-- What is no closing parenthesis is taken for the first of some parameters. -/
theorem meeting_parameters {analyzer : Analyzer}
    (hclosing : analyzer.ahead.kind? ≠ some .rightParen) :
    meeting.resume (.firstParameter :: goals) analyzer =
      meeting.resume (.parameterType :: .moreParameters :: goals) analyzer := by
  obtain ⟨last, rest, scopes⟩ := analyzer
  cases rest with
  | nil => refine (meeting_fail ?_ rfl).trans (meeting_fail ?_ rfl).symm <;> exact nofun
  | cons token rest =>
      cases hkind : token.kind with
      | type ty =>
          refine (meeting_take [.parameterName ty, .moreParameters] ?_).trans
            (meeting_take [.parameterName ty] ?_).symm
          · simp only [Goal.take?, hkind]
          · rw [Goal.take?, hkind, Kind.type?, Option.map_some]
      | rightParen => exact absurd (congrArg some hkind) hclosing
      | _ =>
          refine (meeting_fail ?_ rfl).trans (meeting_fail ?_ rfl).symm <;> rintro _ ⟨⟩ <;>
            simp only [Goal.take?, hkind, Kind.type?, Option.map_none]

theorem meets_parameters (bound : Nat) (goals : List Goal) :
    Meets (.firstParameter :: goals) (parameters bound) fun _ => .expect .rightParen :: goals := by
  intro analyzer
  refine leads_ahead? ?_
  by_cases hclosing : analyzer.ahead.kind? = some .rightParen
  · rw [if_pos hclosing]
    refine .ok rfl (meeting_expect [] hclosing fun _ _ hkind => ?_) trivial
    simp only [Goal.take?, hkind]
  · rw [if_neg hclosing]
    have hparameters := meets_loop (meets_parameter goals) bound analyzer
    exact hparameters.congr rfl (meeting_parameters hclosing)

theorem meets_methodRest (bound : Nat) (goals : List Goal) :
    Meets (.firstParameter :: Goal.body ++ goals) (methodRest bound) fun _ => goals := by
  refine (meets_parameters bound _).bind fun _ => Meets.bind (meets_token _ _) fun _ => ?_
  exact meets_block bound goals

theorem meets_inScope {inner : List Goal} {rule : Rule Unit} (name : Token)
    (h : ∀ goals, Meets (inner ++ goals) rule fun _ => goals) (goals : List Goal) :
    Meets (.enter name :: (inner ++ .leave name :: goals)) (inScope rule) fun _ => goals := by
  intro analyzer verdict after hrule
  unfold inScope at hrule
  cases hinner : rule { analyzer with scopes := analyzer.scopes.push } with
  | none =>
      rw [hinner] at hrule
      cases hrule
  | some outcome =>
      obtain ⟨result, stop⟩ := outcome
      rw [hinner] at hrule
      cases hrule
      have hmeeting := (h (.leave name :: goals) _ _ _ hinner).1
      refine ⟨(meeting_finish (fun _ _ => rfl) rfl).trans (hmeeting.trans ?_), fun _ _ => trivial⟩
      cases verdict with
      | ok result => exact meeting_finish (fun _ _ => rfl) rfl
      | error fault =>
          funext more
          simp only [Continuation.settle, meeting, Outcome.closed, closeAll_pop]

theorem meets_access {goal : Goal} (next : List Goal)
    (htake : ∀ scopes token, goal.take? scopes token = .ok (
      if token.kind.isComment then some [goal]
      else if token.kind.isAccess then some next else none))
    (hfinish : ∀ scopes ahead, goal.finish scopes ahead = .error (.unexpected .access ahead))
    (goals : List Goal) : Meets (goal :: goals) access fun _ => next ++ goals := by
  intro analyzer
  refine (leads_skipComments (fun hcomment => ?_) analyzer).bind ?_
  · refine meeting_take [goal] ?_
    rw [htake, if_pos hcomment]
  rintro ⟨⟩ ⟨last, rest, scopes⟩ ⟨huncommented, -⟩
  have htaken : Leads meeting (goal :: goals) ⟨last, rest, scopes⟩
      (take .access (Option.guard fun token => token.kind.isAccess)) (fun _ => next ++ goals)
      fun _ _ => True := by
    refine leads_take (fun {token behind found} hrest hpick => ?_) fun hnone => ?_
    · obtain rfl : rest = token :: behind := hrest
      have haccess : token.kind.isAccess = true := (Option.guard_eq_some_iff.mp hpick).2
      refine meeting_take next ?_
      rw [htake, huncommented _ rfl, if_neg Bool.false_ne_true, if_pos haccess]
    · refine meeting_fail (fun token htoken => ?_) (hfinish scopes _)
      have haccess : ¬ token.kind.isAccess = true := fun haccess =>
        nomatch (hnone token htoken).symm.trans (Option.guard_eq_some_iff.mpr ⟨rfl, haccess⟩)
      obtain ⟨behind, rfl⟩ := List.head?_eq_some_iff.mp htoken
      rw [htake, huncommented _ rfl, if_neg Bool.false_ne_true, if_neg haccess]
  exact htaken.bind fun _ _ _ => .ok rfl rfl trivial

theorem meets_method (name : Token) (goals : List Goal) :
    Meets (.expect .leftParen :: Goal.method name ++ goals) (method bound) fun _ => goals :=
  (meets_token _ _).bind fun _ => meets_inScope name (meets_methodRest bound) goals

/-- A field is bound only where no parameter list follows its name. -/
theorem meets_memberRest (ty : Ty) (name : Token) (goals : List Goal) :
    Meets (.field ty name :: .memberRest name :: goals) (do
      if (← ahead?) = some .leftParen then
        method bound
      else
        declare ty name
        expect .semicolon) fun _ => goals := by
  intro analyzer
  refine leads_ahead? ?_
  by_cases hmethod : analyzer.ahead.kind? = some .leftParen
  · rw [if_pos hmethod]
    have hfield : (Goal.field ty name).finish analyzer.scopes analyzer.ahead =
        .ok analyzer.scopes := by
      rw [Goal.finish, if_pos hmethod]
    refine (meets_method name goals analyzer).congr rfl
      ((meeting_finish (fun _ _ => rfl) hfield).trans ?_)
    refine meeting_expect (Goal.method name) hmethod fun _ _ hkind => ?_
    simp only [Goal.take?, hkind]
  · rw [if_neg hmethod]
    have hfield : (Goal.field ty name).finish analyzer.scopes analyzer.ahead =
        Analysis.bindName analyzer.scopes ty name := by
      rw [Goal.finish, if_neg hmethod]
    cases hbind : Analysis.bindName analyzer.scopes ty name with
    | error fault =>
        exact .error (bind_error (declare_error hbind))
          (meeting_fail (fun _ _ => rfl) (hfield.trans hbind))
    | ok scopes =>
        refine .via (declare_ok hbind) (meets_token .semicolon _ _)
          ((meeting_finish (fun _ _ => rfl) (hfield.trans hbind)).trans (meeting_congr ?_ rfl))
        intro token htoken
        have hother := kind_ne_of_ahead hmethod token htoken
        cases hkind : token.kind with
        | leftParen => exact absurd hkind hother
        | _ => simp [Goal.take?, hkind]

theorem meets_member (bound : Nat) (goals : List Goal) :
    Meets (.members false :: goals) (member bound) fun _ => .members true :: goals := by
  refine Meets.bind (meets_access [.memberType, .members true] (fun scopes token => ?_)
    (fun _ _ => rfl) goals) fun _ => ?_
  · cases hkind : token.kind <;> simp [Goal.take?, hkind, Kind.isComment, Kind.isAccess]
  refine Meets.bind (meets_type (fun _ _ => rfl) fun _ _ => rfl) fun ty => ?_
  exact (meets_read (fun _ _ => rfl) fun _ _ => rfl).bind fun name => meets_memberRest ty name _

theorem meets_members (bound : Nat) (goals : List Goal) :
    Meets (.members true :: goals) (members bound) fun _ => .expect .rightBrace :: goals := by
  refine meets_rounds (meets_member bound goals) (fun _ _ hkind => ?_) (fun _ _ hkind => ?_)
    (fun _ _ => rfl) bound
  · simp [Goal.take?, hkind]
  · simp only [Goal.take?]
    split
    · exact absurd ‹_› hkind
    all_goals rfl

theorem meets_classRule (bound : Nat) (goals : List Goal) :
    Meets (.classes false :: goals) (classRule bound) fun _ => .classes true :: goals := by
  refine Meets.bind (meets_access [.word .classWord, .className, .expect .leftBrace, .members true,
    .classes true] (fun scopes token => ?_) (fun _ _ => rfl) goals) fun _ => ?_
  · cases hkind : token.kind <;> simp [Goal.take?, hkind, Kind.isComment, Kind.isAccess]
  refine Meets.bind (meets_token _ _) fun _ => ?_
  refine Meets.bind (meets_expect (fun _ _ => rfl) fun _ _ => rfl) fun _ => ?_
  refine Meets.bind (meets_token _ _) fun _ => (meets_members bound _).bind fun _ => ?_
  exact meets_token _ _

theorem meets_classes (bound : Nat) (goals : List Goal) :
    Meets (.classes true :: goals) (classes bound) fun _ => .expect .rightBrace :: goals := by
  refine meets_rounds (meets_classRule bound goals) (fun _ _ hkind => ?_) (fun _ _ hkind => ?_)
    (fun _ _ => rfl) bound
  · simp [Goal.take?, hkind]
  · simp only [Goal.take?]
    split
    · exact absurd ‹_› hkind
    all_goals rfl

end Members

/-! ## Programs -/

section Programs

variable {bound : Nat}

theorem meets_namespaceRule (bound : Nat) (goals : List Goal) :
    Meets (.expect (.word .namespaceWord) :: .namespaceName :: .expect .leftBrace ::
      .classes true :: goals) (namespaceRule bound) fun _ => goals := by
  refine Meets.bind (meets_token _ _) fun _ => ?_
  refine Meets.bind (meets_expect (fun _ _ => rfl) fun _ _ => rfl) fun _ => ?_
  refine Meets.bind (meets_token _ _) fun _ => (meets_classes bound _).bind fun _ => ?_
  exact meets_token _ _

theorem meets_usingRule (goals : List Goal) :
    Meets (.expect (.word .usingWord) :: .expect .identifier :: .expect .semicolon :: goals)
      usingRule fun _ => goals :=
  Meets.bind (meets_token _ _) fun _ => Meets.bind (meets_token _ _) fun _ => meets_token _ _

theorem meets_declaration (bound : Nat) :
    Meets [.program] (declaration bound) fun next? => next?.elim [] fun _ => [.program] := by
  intro analyzer
  refine leads_ahead? ?_
  split
  · rename_i hending
    obtain ⟨last, rest, scopes⟩ := analyzer
    cases rest with
    | nil => exact .ok rfl (meeting_finish nofun rfl) trivial
    | cons token rest => cases hending
  · rename_i hnamespace
    refine (((meets_namespaceRule bound _).bind fun _ => meets_pure _ (some ())) _).congr rfl
      (meeting_expect [.namespaceName, .expect .leftBrace, .classes true, .program] hnamespace ?_)
    exact fun _ _ hkind => by simp only [Goal.take?, hkind]
  · rename_i kind hother hahead
    refine (((meets_usingRule _).bind fun _ => meets_pure _ (some ())) _).congr rfl ?_
    by_cases husing : kind = .word .usingWord
    · subst husing
      refine meeting_expect [.expect .identifier, .expect .semicolon, .program] hahead ?_
      exact fun _ _ hkind => by simp only [Goal.take?, hkind]
    · obtain ⟨last, rest, scopes⟩ := analyzer
      cases rest with
      | nil => cases hahead
      | cons token rest =>
          obtain rfl : token.kind = kind := Option.some.inj hahead
          refine (meeting_fail ?_ rfl).trans (meeting_fail ?_ rfl).symm
          · rintro _ ⟨⟩
            simp only [Goal.take?]
          · rintro _ ⟨⟩
            rw [Goal.take?, if_neg husing]

/-- An answer to a request for a program, read off its outcome with the scopes closed. -/
theorem program_eq_of_closed {analyzer : Analyzer} {outcome : Outcome}
    (h : analyzer.outcome.closed = outcome) :
    analyzer.program =
      match outcome.fault? with
      | none => (.ok outcome.scopes.global, ⟨outcome.last, outcome.rest, .empty⟩)
      | some fault => (.error fault, ⟨outcome.last, outcome.rest, outcome.scopes⟩) := by
  subst h
  rfl

/-- Outside of methods the rule for programs gives what an analyzer answers. -/
theorem program_eq_some {bound : Nat} {analyzer : Analyzer}
    (hlocals : analyzer.scopes.locals = []) (hbound : analyzer.left < bound) :
    program bound analyzer = some analyzer.program := by
  obtain ⟨verdict, after, hends, honward, -⟩ :=
    moves_loop (fun _ => rounds_declaration) () analyzer (Nat.lt_succ_self _)
  have hloop := hends bound hbound
  obtain ⟨hmeeting, -⟩ :=
    meets_loop (meets_declaration bound) bound analyzer verdict after hloop
  have hmeeting := congrFun hmeeting []
  cases verdict with
  | error fault =>
      have hdepth : after.scopes.depth = 0 := by
        have hnone : analyzer.scopes.depth = 0 := congrArg List.length hlocals
        exact Nat.le_zero.mp (hnone ▸ honward.depth_le)
      have hclosed : (Outcome.mk (some fault) after.scopes after.last after.rest).closed =
          ⟨some fault, after.scopes, after.last, after.rest⟩ := by
        rw [Outcome.closed, closeAll_of_depth hdepth]
      rw [program, bind_error hloop, program_eq_of_closed (hmeeting.trans hclosed)]
  | ok result =>
      have hmet : run [] after.scopes after.last after.rest =
          ⟨none, after.scopes, after.last, after.rest⟩ := by
        cases after.rest <;> rfl
      have hclosed := hmeeting.trans (congrArg Outcome.closed hmet)
      rw [program, bind_ok hloop, program_eq_of_closed hclosed]
      rfl

end Programs

end Descent

end Classlet
