import Classlet.Proofs.Descent.Rules

/-!
# Layers and frames

A rule and an analysis that keeps in hand what it has still to do go on side by side:
`Leads`.  By it the rules of the layers read an expression as it is read with frames.
When the phrase of a layer ends, no operator that the layer or a tighter one could take
comes next (`Spent`), so all operations that wait on frames for it are complete.
-/

namespace Classlet

/-- No comment comes next. -/
def Analysis.Analyzer.Uncommented (analyzer : Analyzer) : Prop :=
  ∀ kind, analyzer.ahead.kind? = some kind → kind.isComment = false

namespace Descent

open Analysis (Analyzer)
open Expression (State Frame Barred reduce operandType? reduce_eq_self reduce_operation
  level_le_tightest)
open Grammar (operatorsAt mem_operatorsAt)

/-! ## Side by side -/

/-- What comes of going on in a state where an analyzer stands, and of a fault there. -/
structure Continuation (σ β : Type) where
  resume : σ → Analyzer → β
  abort : Fault → Analyzer → β

/-- To go on with what a rule has made of a state, or to stop with its fault. -/
def Continuation.settle {σ β α : Type} (continuation : Continuation σ β) (later : α → σ)
    (verdict : Except Fault α) (analyzer : Analyzer) : β :=
  match verdict with
  | .ok result => continuation.resume (later result) analyzer
  | .error fault => continuation.abort fault analyzer

/--
To go on in `state` is to follow the rule, if it has an outcome, and to go on in `later`
from there.  If the rule does not fail, `post` holds of its result.
-/
def Leads {σ β α : Type} (continuation : Continuation σ β) (state : σ) (analyzer : Analyzer)
    (rule : Rule α) (later : α → σ) (post : α → Analyzer → Prop) : Prop :=
  ∀ verdict after, rule analyzer = some (verdict, after) →
    continuation.resume state analyzer = continuation.settle later verdict after ∧
      ∀ result, verdict = .ok result → post result after

section Leads

variable {σ β α γ τ : Type} {continuation : Continuation σ β} {state other : σ}
variable {analyzer after : Analyzer} {rule : Rule α} {next : α → Rule γ} {later : α → σ}
variable {final : γ → σ} {middle post : α → Analyzer → Prop}

theorem Leads.error {fault : Fault} (h : rule analyzer = some (.error fault, after))
    (hresume : continuation.resume state analyzer = continuation.abort fault after) :
    Leads continuation state analyzer rule later post := by
  intro verdict stop hrule
  cases h.symm.trans hrule
  exact ⟨hresume, nofun⟩

theorem Leads.ok {result : α} (h : rule analyzer = some (.ok result, after))
    (hresume : continuation.resume state analyzer = continuation.resume (later result) after)
    (hpost : post result after) : Leads continuation state analyzer rule later post := by
  intro verdict stop hrule
  cases h.symm.trans hrule
  refine ⟨hresume, ?_⟩
  rintro _ ⟨⟩
  exact hpost

theorem Leads.exhausted :
    Leads continuation state analyzer (exhausted : Rule α) later post :=
  fun _ _ hrule => nomatch hrule

/--
What leads on from a state and a place does so from others at which the same comes of them.
-/
theorem Leads.congr {same : Rule α} {there : Analyzer}
    (h : Leads continuation other there same later post) (hrule : rule analyzer = same there)
    (hsame : continuation.resume state analyzer = continuation.resume other there) :
    Leads continuation state analyzer rule later post := by
  intro verdict after hverdict
  rw [hsame]
  exact h verdict after (hrule.symm.trans hverdict)

theorem Leads.mono (h : Leads continuation state analyzer rule later middle)
    (hpost : ∀ result after, middle result after → post result after) :
    Leads continuation state analyzer rule later post := by
  intro verdict after hrule
  obtain ⟨hresume, hmiddle⟩ := h verdict after hrule
  exact ⟨hresume, fun result hresult => hpost result after (hmiddle result hresult)⟩

theorem Leads.bind {post : γ → Analyzer → Prop}
    (h : Leads continuation state analyzer rule later middle)
    (hnext : ∀ result after, middle result after →
      Leads continuation (later result) after (next result) final post) :
    Leads continuation state analyzer (rule >>= next) final post := by
  intro verdict after hboth
  match hrule : rule analyzer with
  | none => cases (bind_none hrule).symm.trans hboth
  | some (.error fault, stop) =>
      cases (bind_error hrule).symm.trans hboth
      exact ⟨(h _ _ hrule).1, nofun⟩
  | some (.ok result, stop) =>
      obtain ⟨hresume, hmiddle⟩ := h _ _ hrule
      rw [hresume]
      exact hnext result stop (hmiddle result rfl) verdict after ((bind_ok hrule).symm.trans hboth)

/-- The first of two rules is known to get from one place and state to others. -/
theorem Leads.via {result : α} {there : Analyzer} {post : γ → Analyzer → Prop}
    (hrule : rule analyzer = some (.ok result, there))
    (h : Leads continuation other there (next result) final post)
    (hsame : continuation.resume state analyzer = continuation.resume other there) :
    Leads continuation state analyzer (rule >>= next) final post :=
  Leads.congr h (bind_ok hrule) hsame

theorem leads_take {pick : Token → Option α} {wanted : Wanted}
    (hsome : ∀ {token rest found}, analyzer.rest = token :: rest → pick token = some found →
      continuation.resume state analyzer =
        continuation.resume (later found) ⟨token.position, rest, analyzer.scopes⟩)
    (hnone : (∀ token ∈ analyzer.rest.head?, pick token = none) →
      continuation.resume state analyzer =
        continuation.abort (.unexpected wanted analyzer.ahead) analyzer) :
    Leads continuation state analyzer (take wanted pick) later fun _ _ => True := by
  obtain ⟨last, rest, scopes⟩ := analyzer
  cases rest with
  | nil => exact .error (take_none nofun) (hnone nofun)
  | cons token rest =>
      cases hpick : pick token with
      | none =>
          have hnone' : ∀ other ∈ (token :: rest).head?, pick other = none := by
            rintro _ ⟨⟩
            exact hpick
          exact .error (take_none hnone') (hnone hnone')
      | some found => exact .ok (take_some hpick) (hsome rfl hpick) trivial

theorem leads_judge {verdict : Except Fault α}
    (h : continuation.resume state analyzer = continuation.settle later verdict analyzer) :
    Leads continuation state analyzer (judge verdict) later fun _ after => after = analyzer := by
  cases verdict with
  | error fault => exact .error rfl h
  | ok result => exact .ok rfl h rfl

/-- Rounds that lead from each state in which a loop can be to the next lead to its end. -/
theorem leads_loop {round : τ → Rule (Option τ)} {state final : τ → σ}
    {holds post : τ → Analyzer → Prop}
    (h : ∀ here analyzer, holds here analyzer →
      Leads continuation (state here) analyzer (round here)
        (fun next? => next?.elim (final here) state)
        fun next? after => next?.elim (post here after) (holds · after))
    (bound : Nat) (here : τ) (analyzer : Analyzer) (hholds : holds here analyzer) :
    Leads continuation (state here) analyzer (loop round bound here) final post := by
  induction bound generalizing here analyzer with
  | zero => exact .exhausted
  | succ bound ih =>
      refine (h here analyzer hholds).bind fun next? after hnext => ?_
      cases next? with
      | none => exact .ok rfl rfl hnext
      | some next => exact ih next after hnext

/-- Comments are skipped in a state that passes over them. -/
theorem leads_skipComments
    (hpass : ∀ {last token rest scopes}, token.kind.isComment = true →
      continuation.resume state ⟨last, token :: rest, scopes⟩ =
        continuation.resume state ⟨token.position, rest, scopes⟩)
    (analyzer : Analyzer) :
    Leads continuation state analyzer skipComments (fun _ => state) fun _ after =>
      after.Uncommented ∧ (analyzer.Uncommented → after = analyzer) := by
  obtain ⟨last, rest, scopes⟩ := analyzer
  induction rest generalizing last with
  | nil => exact .ok skipComments_nil rfl ⟨nofun, fun _ => rfl⟩
  | cons token rest ih =>
      cases hcomment : token.kind.isComment with
      | true =>
          have hskips : Leads continuation state ⟨last, token :: rest, scopes⟩ skipComments
              (fun _ => state) _ :=
            (ih token.position).congr (skipComments_comment hcomment) (hpass hcomment)
          refine hskips.mono fun _ after hafter => ⟨hafter.1, fun hother => ?_⟩
          exact absurd hcomment (Bool.eq_false_iff.mp (hother token.kind rfl))
      | false =>
          refine .ok (skipComments_other hcomment) rfl ⟨?_, fun _ => rfl⟩
          rintro _ ⟨⟩
          exact hcomment

end Leads

/-! ## Reading on -/

/-- Reading an expression, as an analyzer is asked for one. -/
def reading : Continuation State (Except Fault Ty × Analyzer) where
  resume state analyzer :=
    let outcome := Expression.read analyzer.scopes state analyzer.last analyzer.rest
    (outcome.verdict, ⟨outcome.last, outcome.rest, analyzer.scopes⟩)
  abort fault analyzer := (.error fault, analyzer)

section Reading

variable {scopes : Scope.Stack} {last : Position} {token : Token} {rest : List Token}
variable {state next : State} {fault : Fault}

theorem reading_take (h : state.take? scopes token = .ok (some next)) :
    reading.resume state ⟨last, token :: rest, scopes⟩ =
      reading.resume next ⟨token.position, rest, scopes⟩ := by
  simp only [reading, Expression.read, h]

theorem reading_take_error (h : state.take? scopes token = .error fault) :
    reading.resume state ⟨last, token :: rest, scopes⟩ =
      reading.abort fault ⟨last, token :: rest, scopes⟩ := by
  simp only [reading, Expression.read, h]

theorem reading_finish (h : state.take? scopes token = .ok none) :
    reading.resume state ⟨last, token :: rest, scopes⟩ =
      (state.finish (.token token), ⟨last, token :: rest, scopes⟩) := by
  simp only [reading, Expression.read, h]

theorem reading_congr {other : State}
    (htake : state.take? scopes token = other.take? scopes token)
    (hfinish : state.finish (.token token) = other.finish (.token token)) :
    reading.resume state ⟨last, token :: rest, scopes⟩ =
      reading.resume other ⟨last, token :: rest, scopes⟩ := by
  simp only [reading, Expression.read, htake, hfinish]

theorem reading_nil :
    reading.resume state ⟨last, [], scopes⟩ = (state.finish (.ending last), ⟨last, [], scopes⟩) :=
  rfl

end Reading

/-! ## The end of a phrase -/

/--
No operator of the layer or a tighter one comes next.  Only factors, which are in the
seventh layer, leave comments unread.
-/
structure Spent (layer : Nat) (analyzer : Analyzer) : Prop where
  looser : ∀ operator, analyzer.ahead.kind? = some (.binary operator) → operator.level + 1 < layer
  uncommented : layer < 7 → analyzer.Uncommented

theorem spent_factor (analyzer : Analyzer) : Spent 7 analyzer where
  looser operator _ := Nat.succ_lt_succ (Nat.lt_succ_of_le (level_le_tightest operator))
  uncommented hless := absurd hless (Nat.lt_irrefl 7)

section Spent

variable {last : Position} {token : Token} {rest : List Token} {scopes : Scope.Stack}
variable {analyzer : Analyzer} {operator : Operator}

theorem Spent.level_le (h : Spent (operator.level + 2) ⟨last, token :: rest, scopes⟩)
    {next : Operator} (hkind : token.kind = .binary next) : next.level ≤ operator.level :=
  Nat.le_of_lt_succ (Nat.lt_of_succ_lt_succ (h.looser next (congrArg some hkind)))

theorem Spent.tightest_le (h : Spent (operator.level + 2) ⟨last, token :: rest, scopes⟩)
    {style : CommentStyle} (hkind : token.kind = .comment style) :
    Operator.tightest ≤ operator.level := by
  refine Nat.le_of_not_lt fun hless => ?_
  exact nomatch h.uncommented (Nat.add_lt_add_right hless 2) _ (congrArg some hkind)

/--
What is read next completes an operation whose right operand has ended.  Whatever comes
completes the operations of some level, and none demands a tighter one than this.
-/
theorem reading_operation (h : Spent (operator.level + 2) analyzer)
    (left right : Ty) (sign : Token) (frames : List Frame) :
    reading.resume (.operator (.operation left operator sign :: frames) right) analyzer =
      reading.settle (.operator frames) (operator.typing sign left right) analyzer := by
  obtain ⟨last, rest, scopes⟩ := analyzer
  cases htyping : operator.typing sign left right with
  | error fault =>
      have hreduce (low : Nat) (hlow : low ≤ operator.level) :
          reduce low (.operation left operator sign :: frames) right = .error fault := by
        rw [reduce_operation hlow, htyping]
        rfl
      have hzero := hreduce 0 (Nat.zero_le _)
      cases rest with
      | nil =>
          rw [reading_nil, State.finish, hzero]
          rfl
      | cons token rest =>
          have hfinish : (State.operator (.operation left operator sign :: frames) right).finish
              (.token token) = .error fault := by
            simp only [State.finish, hzero]
          cases hkind : token.kind with
          | comment style =>
              have htightest := hreduce _ (h.tightest_le hkind)
              exact reading_take_error (by simp only [State.take?, hkind, htightest])
          | binary next =>
              have hnext := hreduce _ (h.level_le hkind)
              exact reading_take_error (by simp only [State.take?, hkind, hnext])
          | rightParen => exact reading_take_error (by simp only [State.take?, hkind, hzero])
          | _ =>
              refine (reading_finish (by simp only [State.take?, hkind])).trans ?_
              rw [hfinish]
              rfl
  | ok ty =>
      have hreduce (low : Nat) (hlow : low ≤ operator.level) :
          reduce low (.operation left operator sign :: frames) right = reduce low frames ty := by
        rw [reduce_operation hlow, htyping]
        rfl
      have hzero := hreduce 0 (Nat.zero_le _)
      cases rest with
      | nil => simp only [reading_nil, State.finish, hzero, Continuation.settle]
      | cons token rest =>
          refine reading_congr ?_ (by simp only [State.finish, hzero])
          cases hkind : token.kind with
          | comment style => simp only [State.take?, hkind, hreduce _ (h.tightest_le hkind)]
          | binary next => simp only [State.take?, hkind, hreduce _ (h.level_le hkind)]
          | rightParen => simp only [State.take?, hkind, hzero]
          | _ => simp only [State.take?, hkind]

/-- What is read next ends an expression or a group in which no operation waits. -/
theorem reading_finish_of_spent (h : Spent 0 analyzer) {frames : List Frame} {ty : Ty}
    (hclosing : analyzer.ahead.kind? = some .rightParen → frames = []) :
    reading.resume (.operator frames ty) analyzer =
      ((State.operator frames ty).finish analyzer.ahead, analyzer) := by
  obtain ⟨last, rest, scopes⟩ := analyzer
  cases rest with
  | nil => exact reading_nil
  | cons token rest =>
      refine reading_finish ?_
      cases hkind : token.kind with
      | comment style => exact nomatch h.uncommented (by decide) _ (congrArg some hkind)
      | binary next => exact absurd (h.looser next (congrArg some hkind)) (Nat.not_lt_zero _)
      | rightParen => simp only [hclosing (congrArg some hkind), State.take?, hkind, reduce]
      | _ => simp only [State.take?, hkind]

end Spent

/-! ## Phrases -/

/--
A rule that reads what stands where an operand has to follow, if no operation waits that
would have to be complete before an operator of the layer.
-/
def ReadsLayer (layer : Nat) (rule : Rule Ty) : Prop :=
  ∀ frames analyzer, Barred (layer - 1) frames →
    Leads reading (.operand frames) analyzer rule (.operator frames)
      fun _ after => Spent layer after

section Rounds

variable {layer : Nat} {frames : List Frame} {right : Rule Ty}

theorem reading_comment (hbarred : Barred Operator.tightest frames) {ty : Ty}
    {last : Position}
    {token : Token} {rest : List Token} {scopes : Scope.Stack}
    (hcomment : token.kind.isComment = true) :
    reading.resume (.operator frames ty) ⟨last, token :: rest, scopes⟩ =
      reading.resume (.operator frames ty) ⟨token.position, rest, scopes⟩ := by
  apply reading_take
  cases hkind : token.kind with
  | comment style => simp only [State.take?, hkind, reduce_eq_self hbarred]
  | _ => simp only [hkind, Kind.isComment, Bool.false_eq_true] at hcomment

/-- Behind an operand of a layer, with the comments skipped. -/
theorem leads_skip_spent (hlayer : layer ≤ 6) (hbarred : Barred Operator.tightest frames)
    (ty : Ty) {analyzer : Analyzer} (hspent : Spent (layer + 1) analyzer) :
    Leads reading (.operator frames ty) analyzer skipComments (fun _ => .operator frames ty)
      fun _ after => after.Uncommented ∧ Spent (layer + 1) after := by
  refine (leads_skipComments (reading_comment hbarred) analyzer).mono fun _ after hafter => ?_
  refine ⟨hafter.1, ?_⟩
  rcases Nat.lt_or_eq_of_le hlayer with hless | rfl
  · rwa [hafter.2 (hspent.uncommented (Nat.succ_lt_succ hless))]
  · exact spent_factor after

/--
A round of a layer keeps what waits: its operation is complete when its right operand has
ended, as nothing that comes next belongs to a tighter layer.
-/
theorem leads_operation (hlayer : layer ≤ 6) (hbarred : Barred (layer - 1) frames)
    (hright : ReadsLayer (layer + 1) right)
    (left : Ty) (analyzer : Analyzer) (hspent : Spent (layer + 1) analyzer) :
    Leads reading (.operator frames left) analyzer (operation (operatorsAt layer) right left)
      (fun next? => next?.elim (.operator frames left) (.operator frames))
      fun next? after => next?.elim (Spent layer after) fun _ => Spent (layer + 1) after := by
  have htightest : Barred Operator.tightest frames :=
    hbarred.mono (Nat.sub_le_of_le_add hlayer)
  refine (leads_skip_spent hlayer htightest left hspent).bind ?_
  rintro ⟨⟩ ⟨last, rest, scopes⟩ ⟨huncommented, hspent⟩
  cases rest with
  | nil => exact .via take?_nil (.ok rfl rfl ⟨nofun, fun _ => huncommented⟩) rfl
  | cons token rest =>
      cases hpick : ofOperators? (operatorsAt layer) token with
      | none =>
          have hlooser (next : Operator) (hnext : some token.kind = some (.binary next)) :
              next.level + 1 < layer := by
            have hlevel := hspent.looser next hnext
            have hother := not_mem_of_ofOperators? hpick (Option.some.inj hnext)
            rw [mem_operatorsAt] at hother
            omega
          exact .via (take?_none hpick) (.ok rfl rfl ⟨hlooser, fun _ => huncommented⟩) rfl
      | some found =>
          obtain ⟨operator, sign⟩ := found
          obtain ⟨hkind, hmem, rfl⟩ := of_ofOperators? hpick
          -- The outermost layer finds no operator, as the layers in it have taken them all.
          obtain rfl : layer = operator.level + 1 := by
            have hlevel := hspent.looser operator (congrArg some hkind)
            have hlayer := mem_operatorsAt.mp hmem
            omega
          have hbarred : Barred operator.level frames := hbarred
          have htake : (State.operator frames left).take? scopes token =
              .ok (some (.operand (.operation left operator token :: frames))) := by
            simp only [State.take?, hkind, reduce_eq_self hbarred]
          refine .via (take?_some hpick) ?_ (reading_take htake)
          -- The operation waits, but for no operator that its right operand could have.
          have hwaiting : Barred (operator.level + 1) (.operation left operator token :: frames) :=
            Nat.lt_succ_self operator.level
          refine (hright _ _ hwaiting).bind fun other behind hbehind => ?_
          refine (leads_judge (reading_operation hbehind left other token frames)).bind ?_
          rintro ty _ rfl
          exact .ok rfl rfl hbehind

end Rounds

/-- By induction on the layers that are tighter, with the rounds of the layer as a loop. -/
theorem readsLayer_phrase {factor : Rule Ty} (h : ReadsLayer 7 factor) (bound : Nat)
    {layer tighter : Nat} (hlayers : layer + tighter = 7) :
    ReadsLayer layer (phrase bound factor tighter) := by
  induction tighter generalizing layer with
  | zero =>
      obtain rfl : layer = 7 := hlayers
      exact h
  | succ tighter ih =>
      have hright : ReadsLayer (layer + 1) (phrase bound factor tighter) := ih (by omega)
      obtain rfl : tighter = 6 - layer := by omega
      intro frames analyzer hbarred
      have hlooser : Barred layer frames := hbarred.mono (Nat.pred_le layer)
      refine (hright frames analyzer hlooser).bind fun left after hspent => ?_
      have hround (left : Ty) (analyzer : Analyzer) (hspent : Spent (layer + 1) analyzer) :=
        leads_operation (by omega) hbarred hright left analyzer hspent
      have hlayer : 6 - (6 - layer) = layer := by omega
      rw [hlayer]
      exact leads_loop hround bound left after hspent

/-- Behind what is in a group nothing waits in it: it is closed, or that is the fault. -/
theorem leads_closing {frames : List Frame} (inner : Ty) {analyzer : Analyzer}
    (h : Spent 0 analyzer) :
    Leads reading (.operator (.group :: frames) inner) analyzer (expect .rightParen)
      (fun _ => .operator frames inner) fun _ _ => True := by
  obtain ⟨last, rest, scopes⟩ := analyzer
  have hread : Leads reading (.operator (.group :: frames) inner) ⟨last, rest, scopes⟩
      (read .rightParen) (fun _ => .operator frames inner) fun _ _ => True := by
    refine leads_take (fun {token behind found} hrest hpick => ?_) fun hnone => ?_
    · obtain rfl : rest = token :: behind := hrest
      have hkind := (ofKind?_eq_some.mp hpick).1
      exact reading_take (by simp only [State.take?, hkind, reduce])
    · refine reading_finish_of_spent h fun hclosing => ?_
      cases rest with
      | nil => cases hclosing
      | cons token behind =>
        cases (hnone token rfl).symm.trans (ofKind?_of_eq (Option.some.inj hclosing))
  exact hread.bind fun _ _ _ => .ok rfl rfl trivial

theorem readsLayer_factorOf {nested : Rule Ty} (h : ReadsLayer 0 nested) :
    ReadsLayer 7 (factorOf nested) := by
  rintro frames ⟨last, rest, scopes⟩ _
  cases rest with
  | nil => exact .via take?_nil (.error rfl reading_nil) rfl
  | cons token rest =>
      by_cases hopening : token.kind = .leftParen
      · have htake : (State.operand frames).take? scopes token =
            .ok (some (.operand (.group :: frames))) := by
          simp only [State.take?, if_pos hopening]
        have hgroup : Barred 0 (.group :: frames) := trivial
        refine .via (take?_some (ofKind?_of_eq hopening)) ?_ (reading_take htake)
        refine (h _ _ hgroup).bind fun inner behind hbehind => ?_
        exact (leads_closing inner hbehind).bind fun _ after _ => .ok rfl rfl (spent_factor after)
      · refine .via (take?_none (ofKind?_of_ne hopening)) ?_ rfl
        cases htype : operandType? scopes token with
        | error fault =>
            refine .error (operand_error htype) (reading_take_error ?_)
            simp only [State.take?, if_neg hopening, htype]
        | ok ty? =>
            cases ty? with
            | none =>
                refine .error (operand_none htype) (reading_finish ?_)
                simp only [State.take?, if_neg hopening, htype, Option.map_none]
            | some ty =>
                refine .ok (operand_some htype) (reading_take ?_) (spent_factor _)
                simp only [State.take?, if_neg hopening, htype, Option.map_some]

theorem readsLayer_factor (bound : Nat) : ReadsLayer 7 (factor bound) := by
  induction bound with
  | zero => exact fun _ _ _ => .exhausted
  | succ bound ih => exact readsLayer_factorOf (readsLayer_phrase ih bound rfl)

theorem readsLayer_expression (bound : Nat) : ReadsLayer 0 (expression bound) :=
  readsLayer_phrase (readsLayer_factor bound) bound rfl

/--
An outcome of the rule for expressions is what an analyzer answers to a request for one.
-/
theorem expression_of_some {bound : Nat} {analyzer after : Analyzer}
    {verdict : Except Fault Ty}
    (h : expression bound analyzer = some (verdict, after)) :
    analyzer.expression = (verdict, after) := by
  obtain ⟨hresume, hspent⟩ :=
    readsLayer_expression bound [] analyzer trivial verdict after h
  refine hresume.trans ?_
  cases verdict with
  | error fault => rfl
  | ok ty => exact reading_finish_of_spent (hspent ty rfl) fun _ => rfl

end Descent

end Classlet
