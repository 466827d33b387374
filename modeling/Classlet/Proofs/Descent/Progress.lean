import Classlet.Proofs.Descent.Rules
import Classlet.Proofs.Scope.Stacks

/-!
# Progress of rules

Every rule ends wherever it begins, with any bound above the number of tokens that are
left, and no rule goes back.  The rules that loops call fail or take a token: `Advances`.
So a loop makes no more rounds than there are tokens (`moves_loop`), and as a block or a
group begins with a token of its own, what is nested in it has fewer tokens to come.
All else follows part by part.
-/

namespace Classlet

open Analysis (Analyzer)

/-- The number of tokens to come. -/
abbrev Analysis.Analyzer.left (analyzer : Analyzer) : Nat := analyzer.rest.length

/-- `after` stands at or behind the place of `before`, with no more scopes open. -/
structure Analysis.Analyzer.Onward (before after : Analyzer) : Prop where
  rest : after.rest <:+ before.rest
  depth_le : after.scopes.depth ≤ before.scopes.depth

namespace Analysis.Analyzer.Onward

variable {before middle after : Analyzer}

theorem refl (analyzer : Analyzer) : analyzer.Onward analyzer :=
  ⟨List.suffix_rfl, Nat.le_refl _⟩

theorem trans (hfront : before.Onward middle) (hback : middle.Onward after) :
    before.Onward after :=
  ⟨hback.rest.trans hfront.rest, Nat.le_trans hback.depth_le hfront.depth_le⟩

theorem left_le (h : before.Onward after) : after.left ≤ before.left :=
  h.rest.length_le

end Analysis.Analyzer.Onward

theorem Analysis.depth_bindName {scopes after : Scope.Stack} {ty : Ty} {name : Token}
    (h : bindName scopes ty name = .ok after) : after.depth = scopes.depth := by
  unfold bindName Scope.Stack.declare at h
  split at h
  · rename_i hdeclare
    split at hdeclare <;> cases hdeclare
    cases h
    exact Scope.Stack.depth_withCurrent ..
  · cases h

namespace Descent

/-! ## Rules that end -/

/--
With every bound from `limit` on the rule has the same outcome, does not go back and
leaves no scope open; if it does not fail, `post` holds of its result.
-/
def Ends {α : Type} (limit : Nat) (rule : Nat → Rule α) (before : Analyzer)
    (post : α → Analyzer → Prop) : Prop :=
  ∃ verdict after, (∀ bound, limit ≤ bound → rule bound before = some (verdict, after)) ∧
    before.Onward after ∧ ∀ result, verdict = .ok result → post result after

section Ends

variable {α β : Type} {limit : Nat} {rule : Nat → Rule α} {next : Nat → α → Rule β}
variable {before : Analyzer} {middle post : α → Analyzer → Prop}

theorem Ends.stays {rule : Rule α} {result : α}
    (h : rule before = some (.ok result, before))
    (hpost : post result before) : Ends limit (fun _ => rule) before post := by
  refine ⟨.ok result, before, fun _ _ => h, .refl before, ?_⟩
  rintro _ ⟨⟩
  exact hpost

theorem Ends.fails {rule : Rule α} {fault : Fault}
    (h : rule before = some (.error fault, before)) :
    Ends limit (fun _ => rule) before post := by
  refine ⟨.error fault, before, fun _ _ => h, .refl before, ?_⟩
  rintro _ ⟨⟩

theorem Ends.bind {post : β → Analyzer → Prop} (h : Ends limit rule before middle)
    (hnext : ∀ result after, before.Onward after → middle result after →
      Ends limit (fun bound => next bound result) after post) :
    Ends limit (fun bound => rule bound >>= next bound) before post := by
  obtain ⟨verdict, stop, hrule, honward, hmiddle⟩ := h
  cases verdict with
  | error fault =>
      refine ⟨.error fault, stop, fun bound hbound => bind_error (hrule bound hbound), honward, ?_⟩
      intro result hresult
      cases hresult
  | ok result =>
      obtain ⟨verdict, after, hrun, hmore, hpost⟩ :=
        hnext result stop honward (hmiddle result rfl)
      refine ⟨verdict, after, fun bound hbound => ?_, honward.trans hmore, hpost⟩
      exact (bind_ok (hrule bound hbound)).trans (hrun bound hbound)

theorem Ends.mono (h : Ends limit rule before middle)
    (hpost : ∀ result after, before.Onward after → middle result after → post result after) :
    Ends limit rule before post := by
  obtain ⟨verdict, after, hrule, honward, hmiddle⟩ := h
  exact ⟨verdict, after, hrule, honward,
    fun result hresult => hpost result after honward (hmiddle result hresult)⟩

/-- To a rule without loops and nesting the bound does not matter. -/
theorem Ends.const {rule : Rule α} (h : Ends limit (fun _ => rule) before post)
    (other : Nat) :
    Ends other (fun _ => rule) before post := by
  obtain ⟨verdict, after, hrule, honward, hpost⟩ := h
  exact ⟨verdict, after, fun _ _ => hrule limit (Nat.le_refl limit), honward, hpost⟩

/-- A rule that uses up one of its bound before it calls the others. -/
theorem Ends.succ {inner : Nat → Rule α} (h : Ends limit inner before post)
    (hrule : ∀ bound, rule (bound + 1) = inner bound) : Ends (limit + 1) rule before post := by
  obtain ⟨verdict, after, hinner, honward, hpost⟩ := h
  refine ⟨verdict, after, fun bound hbound => ?_, honward, hpost⟩
  obtain ⟨less, rfl⟩ := Nat.exists_eq_add_of_le' (Nat.le_of_add_left_le hbound)
  rw [hrule]
  exact hinner less (Nat.le_of_succ_le_succ hbound)

end Ends

/-! ## Rules that move on -/

/-- The rule ends, with fewer than `limit` tokens to come. -/
def Moves {α : Type} (limit : Nat) (rule : Nat → Rule α) : Prop :=
  ∀ analyzer : Analyzer, analyzer.left < limit → Ends limit rule analyzer fun _ _ => True

/-- The rule ends, and it fails or takes a token. -/
def Advances {α : Type} (limit : Nat) (rule : Nat → Rule α) : Prop :=
  ∀ analyzer : Analyzer, analyzer.left < limit →
    Ends limit rule analyzer fun _ after => after.left < analyzer.left

/-- The round ends, and it fails, is the last or takes a token. -/
def Rounds {σ : Type} (limit : Nat) (round : Nat → Rule (Option σ)) : Prop :=
  ∀ analyzer : Analyzer, analyzer.left < limit →
    Ends limit round analyzer fun next after => next.isSome → after.left < analyzer.left

section Moves

variable {α β σ : Type} {limit : Nat} {rule : Nat → Rule α} {next : Nat → α → Rule β}

theorem Advances.moves (h : Advances limit rule) : Moves limit rule :=
  fun analyzer hleft => (h analyzer hleft).mono fun _ _ _ _ => trivial

theorem Advances.rounds {round : Nat → Rule (Option σ)} (h : Advances limit round) :
    Rounds limit round :=
  fun analyzer hleft => (h analyzer hleft).mono fun _ _ _ hless _ => hless

theorem moves_pure (result : α) : Moves limit fun _ => pure result :=
  fun _ _ => .stays rfl trivial

theorem Moves.bind (h : Moves limit rule)
    (hnext : ∀ result, Moves limit fun bound => next bound result) :
    Moves limit fun bound => rule bound >>= next bound := by
  intro analyzer hleft
  refine (h analyzer hleft).bind fun result after honward _ => ?_
  exact hnext result after (Nat.lt_of_le_of_lt honward.left_le hleft)

theorem Advances.bind (h : Advances limit rule)
    (hnext : ∀ result, Moves limit fun bound => next bound result) :
    Advances limit fun bound => rule bound >>= next bound := by
  intro analyzer hleft
  refine (h analyzer hleft).bind fun result after honward hless => ?_
  refine (hnext result after (Nat.lt_trans hless hleft)).mono fun _ later hmore _ => ?_
  exact Nat.lt_of_le_of_lt hmore.left_le hless

/-- What comes first may take no token, if what comes next does. -/
theorem Moves.advances (h : Moves limit rule)
    (hnext : ∀ result, Advances limit fun bound => next bound result) :
    Advances limit fun bound => rule bound >>= next bound := by
  intro analyzer hleft
  refine (h analyzer hleft).bind fun result after honward _ => ?_
  refine (hnext result after (Nat.lt_of_le_of_lt honward.left_le hleft)).mono ?_
  exact fun _ later _ hless => Nat.lt_of_lt_of_le hless honward.left_le

theorem Moves.rounds {next : Nat → α → Rule (Option σ)} (h : Moves limit rule)
    (hnext : ∀ result, Rounds limit fun bound => next bound result) :
    Rounds limit fun bound => rule bound >>= next bound := by
  intro analyzer hleft
  refine (h analyzer hleft).bind fun result after honward _ => ?_
  refine (hnext result after (Nat.lt_of_le_of_lt honward.left_le hleft)).mono ?_
  exact fun _ _ _ hless hnext => Nat.lt_of_lt_of_le (hless hnext) honward.left_le

theorem rounds_last : Rounds limit fun _ => (pure none : Rule (Option σ)) :=
  fun _ _ => .stays rfl (by simp)

/--
A loop ends if each of its rounds fails, is the last or takes a token.  It reaches what
its last round reaches, if that does not depend on tokens taken before.
-/
theorem ends_loop {round : Nat → σ → Rule (Option σ)} (reaches : Analyzer → Analyzer → Prop)
    (hreaches : ∀ {before middle after : Analyzer}, middle.left < before.left →
      reaches middle after → reaches before after)
    (h : ∀ (state : σ) (before : Analyzer), before.left < limit →
      Ends limit (fun bound => round bound state) before fun next? after =>
        (next?.isSome → after.left < before.left) ∧ (next? = none → reaches before after))
    (state : σ) (analyzer : Analyzer) (hleft : analyzer.left < limit) :
    Ends limit (fun bound => loop (round bound) bound state) analyzer fun _ after =>
      reaches analyzer after := by
  -- As many rounds are enough as there are tokens, whatever else the bound is for.
  have henough (most : Nat) (hmost : most ≤ limit) :
      ∀ (state : σ) (before : Analyzer), before.left < most →
        ∃ verdict after, (∀ bound, limit ≤ bound → ∀ rounds,
            loop (round bound) (rounds + most) state before = some (verdict, after)) ∧
          before.Onward after ∧ ∀ result, verdict = .ok result → reaches before after := by
    induction most with
    | zero => exact fun _ _ hleft => absurd hleft (Nat.not_lt_zero _)
    | succ most ih =>
        intro state before hleft
        obtain ⟨verdict, middle, hround, honward, hpost⟩ :=
          h state before (Nat.lt_of_lt_of_le hleft hmost)
        match verdict with
        | .error fault =>
            exact ⟨.error fault, middle, fun bound hbound _ => bind_error (hround bound hbound),
              honward, nofun⟩
        | .ok none =>
            exact ⟨.ok state, middle, fun bound hbound _ => bind_ok (hround bound hbound),
              honward, fun _ _ => (hpost none rfl).2 rfl⟩
        | .ok (some next) =>
            have hless : middle.left < before.left := (hpost (some next) rfl).1 rfl
            have hfewer : middle.left < most :=
              Nat.lt_of_lt_of_le hless (Nat.le_of_lt_succ hleft)
            obtain ⟨verdict, after, hafter, hmore, hreached⟩ :=
              ih (Nat.le_of_lt hmost) next middle hfewer
            refine ⟨verdict, after, fun bound hbound rounds => ?_, honward.trans hmore,
              fun result hresult => hreaches hless (hreached result hresult)⟩
            exact (bind_ok (hround bound hbound)).trans (hafter bound hbound rounds)
  obtain ⟨verdict, after, hloop, honward, hreached⟩ :=
    henough limit (Nat.le_refl limit) state analyzer hleft
  refine ⟨verdict, after, fun bound hbound => ?_, honward, hreached⟩
  obtain ⟨rounds, rfl⟩ := Nat.exists_eq_add_of_le' hbound
  exact hloop _ hbound rounds

theorem moves_loop {round : Nat → σ → Rule (Option σ)}
    (h : ∀ state, Rounds limit fun bound => round bound state) (state : σ) :
    Moves limit fun bound => loop (round bound) bound state :=
  ends_loop (fun _ _ => True) (fun _ _ => trivial) (fun state before hleft =>
    (h state before hleft).mono fun _ _ _ hless => ⟨hless, fun _ => trivial⟩) state

/-- If the last round takes a token as well, the loop takes one. -/
theorem advances_loop {round : Nat → σ → Rule (Option σ)}
    (h : ∀ state, Advances limit fun bound => round bound state) (state : σ) :
    Advances limit fun bound => loop (round bound) bound state :=
  ends_loop (fun before after => after.left < before.left)
    (fun hfront hback => Nat.lt_trans hback hfront) (fun state before hleft =>
      (h state before hleft).mono fun _ _ _ hless => ⟨fun _ => hless, fun _ => hless⟩) state

end Moves

/-! ## Single tokens -/

section Tokens

variable {α : Type} {limit : Nat}

theorem advances_fail (wanted : Wanted) : Advances limit fun _ => (fail wanted : Rule α) :=
  fun _ _ => .fails rfl

theorem moves_judge (verdict : Except Fault α) : Moves limit fun _ => judge verdict := by
  intro analyzer _
  cases verdict with
  | error fault => exact .fails rfl
  | ok result => exact .stays rfl trivial

theorem moves_ahead? : Moves limit fun _ => ahead? :=
  fun _ _ => .stays rfl trivial

theorem ends_take? (pick : Token → Option α) (analyzer : Analyzer) :
    Ends limit (fun _ => take? pick) analyzer fun found? after =>
      found?.isSome → after.left < analyzer.left := by
  obtain ⟨last, rest, scopes⟩ := analyzer
  cases rest with
  | nil => exact .stays take?_nil (by simp)
  | cons token rest =>
      cases hpick : pick token with
      | none => exact .stays (take?_none hpick) (by simp)
      | some found =>
          exact ⟨.ok (some found), _, fun _ _ => take?_some hpick,
            ⟨List.suffix_cons .., Nat.le_refl _⟩, fun _ _ _ => Nat.lt_succ_self _⟩

theorem moves_take? (pick : Token → Option α) : Moves limit fun _ => take? pick :=
  fun analyzer _ => (ends_take? pick analyzer).mono fun _ _ _ _ => trivial

theorem advances_take (wanted : Wanted) (pick : Token → Option α) :
    Advances limit fun _ => take wanted pick := by
  intro analyzer _
  refine (ends_take? pick analyzer).bind fun found? after honward hless => ?_
  cases found? with
  | some found => exact .stays rfl (hless rfl)
  | none => exact .fails rfl

theorem advances_read (kind : Kind) : Advances limit fun _ => read kind :=
  advances_take _ _

theorem advances_expect (kind : Kind) : Advances limit fun _ => expect kind :=
  (advances_read kind).bind fun _ => moves_pure _

theorem advances_type : Advances limit fun _ => type :=
  advances_take _ _

theorem moves_skipComments : Moves limit fun _ => skipComments :=
  fun _ _ => ⟨.ok (), _, fun _ _ => rfl, ⟨List.dropWhile_suffix _, Nat.le_refl _⟩,
    fun _ _ => trivial⟩

theorem advances_access : Advances limit fun _ => access :=
  moves_skipComments.advances fun _ => (advances_take _ _).bind fun _ => moves_pure _

theorem moves_declare (ty : Ty) (name : Token) : Moves limit fun _ => declare ty name := by
  intro analyzer _
  cases hbind : Analysis.bindName analyzer.scopes ty name with
  | error fault => exact .fails (declare_error hbind)
  | ok scopes =>
      exact ⟨.ok (), _, fun _ _ => declare_ok hbind,
        ⟨List.suffix_rfl, Nat.le_of_eq (Analysis.depth_bindName hbind)⟩, fun _ _ => trivial⟩

theorem moves_resolve (name : Token) : Moves limit fun _ => resolve name := by
  intro analyzer _
  cases hlookup : analyzer.scopes.lookup name.lexeme with
  | none => exact .fails (resolve_none hlookup)
  | some ty => exact .stays (resolve_some hlookup) trivial

theorem moves_comma? : Moves limit fun _ => comma? :=
  (moves_take? _).bind fun _ => moves_pure _

/--
A round up to a closing brace is the last in front of one, or what the rule makes of it.
-/
theorem ends_untilBrace {rule : Nat → Rule Unit} (h : Advances limit rule)
    {analyzer : Analyzer}
    (hleft : analyzer.left < limit) :
    Ends limit (fun bound => untilBrace (rule bound)) analyzer fun next? after =>
      (next?.isSome → after.left < analyzer.left) ∧
        (next? = none → after.ahead.kind? = some .rightBrace) := by
  have hahead : Ends limit (fun _ => ahead?) analyzer fun kind? after =>
      after = analyzer ∧ kind? = analyzer.ahead.kind? := .stays rfl ⟨rfl, rfl⟩
  refine hahead.bind ?_
  rintro _ analyzer - ⟨rfl, rfl⟩
  by_cases hbrace : analyzer.ahead.kind? = some .rightBrace
  · simp only [if_pos hbrace]
    exact .stays rfl ⟨nofun, fun _ => hbrace⟩
  · simp only [if_neg hbrace]
    refine (h analyzer hleft).bind fun _ after _ hless => ?_
    exact .stays rfl ⟨fun _ => hless, nofun⟩

theorem rounds_untilBrace {rule : Nat → Rule Unit} (h : Advances limit rule) :
    Rounds limit fun bound => untilBrace (rule bound) :=
  fun _ hleft => (ends_untilBrace h hleft).mono fun _ _ _ hpost => hpost.1

end Tokens

/-! ## Expressions -/

section Expressions

variable {limit : Nat} {right inner : Nat → Rule Ty}

theorem ends_operand (analyzer : Analyzer) :
    Ends limit (fun _ => operand) analyzer fun _ after => after.left < analyzer.left := by
  obtain ⟨last, rest, scopes⟩ := analyzer
  cases rest with
  | nil => exact .fails rfl
  | cons token rest =>
      match htype : Expression.operandType? scopes token with
      | .error fault => exact .fails (operand_error htype)
      | .ok none => exact .fails (operand_none htype)
      | .ok (some ty) =>
          exact ⟨.ok ty, _, fun _ _ => operand_some htype, ⟨List.suffix_cons .., Nat.le_refl _⟩,
            fun _ _ => Nat.lt_succ_self _⟩

/-- The tokens behind an opening parenthesis are fewer, so what is nested there ends. -/
theorem ends_factorOf (h : Moves limit inner) {analyzer : Analyzer}
    (hleft : analyzer.left ≤ limit) :
    Ends limit (fun bound => factorOf (inner bound)) analyzer fun _ after =>
      after.left < analyzer.left := by
  refine (ends_take? _ analyzer).bind fun found? behind honward hless => ?_
  cases found? with
  | some opening =>
      have hbehind : behind.left < analyzer.left := hless rfl
      have hgroup : Moves limit fun bound => do
          let ty ← inner bound
          expect .rightParen
          return ty :=
        h.bind fun ty => (advances_expect _).moves.bind fun _ => moves_pure ty
      refine (hgroup behind (Nat.lt_of_lt_of_le hbehind hleft)).mono fun _ after hmore _ => ?_
      exact Nat.lt_of_le_of_lt hmore.left_le hbehind
  | none =>
      refine (ends_operand behind).mono fun _ after hmore hless => ?_
      exact Nat.lt_of_lt_of_le hless honward.left_le

theorem rounds_operation (operators : List Operator) (h : Moves limit right) (left : Ty) :
    Rounds limit fun bound => operation operators (right bound) left := by
  intro analyzer hleft
  refine (moves_skipComments analyzer hleft).bind fun _ skipped hskipped _ => ?_
  refine (ends_take? _ skipped).bind fun found? signed hsigned hless => ?_
  cases found? with
  | none => exact .stays rfl (by simp)
  | some sign =>
      have hbehind : signed.left < analyzer.left :=
        Nat.lt_of_lt_of_le (hless rfl) hskipped.left_le
      have hrest : Moves limit fun bound => do
          let other ← right bound
          return some (← judge (sign.1.typing sign.2 left other)) :=
        h.bind fun _ => (moves_judge _).bind fun _ => moves_pure _
      refine (hrest signed (Nat.lt_trans hbehind hleft)).mono fun _ after hmore _ _ => ?_
      exact Nat.lt_of_le_of_lt hmore.left_le hbehind

theorem advances_phrase {factor : Nat → Rule Ty} (h : Advances limit factor)
    (tighter : Nat) :
    Advances limit fun bound => phrase bound (factor bound) tighter := by
  induction tighter with
  | zero => exact h
  | succ tighter ih =>
      exact ih.bind fun left => moves_loop (fun left => rounds_operation _ ih.moves left) left

/-- By induction on the tokens to come: a group has fewer of them than its factor. -/
theorem advances_factor : Advances limit factor := by
  induction limit with
  | zero => exact fun _ hleft => absurd hleft (Nat.not_lt_zero _)
  | succ limit ih =>
      intro analyzer hleft
      have hinner : Moves limit expression := (advances_phrase ih 7).moves
      exact (ends_factorOf hinner (Nat.le_of_lt_succ hleft)).succ fun _ => rfl

theorem advances_expression : Advances limit expression :=
  advances_phrase advances_factor 7

end Expressions

/-! ## Statements -/

section Statements

variable {limit : Nat} {block : Nat → Rule Unit}

theorem moves_condition : Moves limit condition := by
  refine (advances_expect _).moves.bind fun _ => ?_
  exact advances_expression.moves.bind fun _ => (advances_expect _).moves

theorem moves_value (name : Token) (ty : Ty) (sign : Token) :
    Moves limit fun bound => value bound name ty sign :=
  advances_expression.moves.bind fun _ => moves_judge _

theorem moves_initializer (name : Token) (ty : Ty) :
    Moves limit fun bound => initializer bound name ty := by
  refine (moves_take? _).bind fun found? => ?_
  cases found? with
  | some sign => exact moves_value name ty sign
  | none => exact moves_pure ()

theorem advances_declarator (ty : Ty) :
    Advances limit fun bound => declarator bound ty := by
  refine (advances_read _).bind fun name => (moves_declare ty name).bind fun _ => ?_
  exact (moves_initializer name ty).bind fun _ => moves_comma?

theorem advances_localVariables : Advances limit localVariables := by
  refine advances_type.bind fun ty => ?_
  refine (moves_loop (fun _ => (advances_declarator ty).rounds) ()).bind fun _ => ?_
  exact (advances_expect _).moves

theorem advances_assignment : Advances limit assignment := by
  refine (advances_read _).bind fun name => (moves_resolve name).bind fun ty => ?_
  refine (advances_read _).moves.bind fun sign => ?_
  exact (moves_value name ty sign).bind fun _ => moves_comma?

theorem advances_assignments : Advances limit assignments :=
  (advances_loop (fun _ => advances_assignment) ()).bind fun _ => (advances_expect _).moves

theorem advances_ifStatement (h : Moves limit block) :
    Advances limit fun bound => ifStatement bound (block bound) := by
  refine (advances_expect _).bind fun _ => moves_condition.bind fun _ => h.bind fun _ => ?_
  refine (moves_take? _).bind fun found? => ?_
  cases found? with
  | some word => exact h
  | none => exact moves_pure ()

theorem advances_whileStatement (h : Moves limit block) :
    Advances limit fun bound => whileStatement bound (block bound) :=
  (advances_expect _).bind fun _ => moves_condition.bind fun _ => h

theorem moves_forHeader : Moves limit forHeader := by
  refine (advances_expect _).moves.bind fun _ => advances_type.moves.bind fun ty => ?_
  refine (advances_read _).moves.bind fun name => (moves_declare ty name).bind fun _ => ?_
  refine (advances_read _).moves.bind fun sign => (moves_value name ty sign).bind fun _ => ?_
  refine (advances_expect _).moves.bind fun _ => advances_expression.moves.bind fun _ => ?_
  refine (advances_expect _).moves.bind fun _ => (advances_read _).moves.bind fun counter => ?_
  refine (moves_resolve counter).bind fun _ => (advances_take _ _).moves.bind fun _ => ?_
  exact (advances_expect _).moves.bind fun _ => (advances_expect _).moves

theorem advances_forStatement (h : Moves limit block) :
    Advances limit fun bound => forStatement bound (block bound) :=
  (advances_expect _).bind fun _ => moves_forHeader.bind fun _ => h

theorem advances_doStatement (h : Moves limit block) :
    Advances limit fun bound => doStatement bound (block bound) := by
  refine (advances_expect _).bind fun _ => h.bind fun _ => ?_
  refine (advances_expect _).moves.bind fun _ => moves_condition.bind fun _ => ?_
  exact (advances_expect _).moves

theorem moves_foreachHeader : Moves limit foreachHeader := by
  refine (advances_expect _).moves.bind fun _ => advances_type.moves.bind fun _ => ?_
  refine (advances_expect _).moves.bind fun _ => (advances_expect _).moves.bind fun _ => ?_
  exact advances_expression.moves.bind fun _ => (advances_expect _).moves

theorem advances_foreachStatement (h : Moves limit block) :
    Advances limit fun bound => foreachStatement bound (block bound) :=
  (advances_expect _).bind fun _ => moves_foreachHeader.bind fun _ => h

theorem advances_statementOf (h : Moves limit block) :
    Advances limit fun bound => statementOf bound (block bound) := by
  refine moves_ahead?.advances fun kind? => ?_
  cases kind? with
  | none => exact advances_fail _
  | some kind =>
      cases kind with
      | identifier => exact advances_assignments
      | type ty => exact advances_localVariables
      | word reserved =>
          cases reserved with
          | ifWord => exact advances_ifStatement h
          | whileWord => exact advances_whileStatement h
          | forWord => exact advances_forStatement h
          | doWord => exact advances_doStatement h
          | foreachWord => exact advances_foreachStatement h
          | _ => exact advances_fail _
      | _ => exact advances_fail _

theorem rounds_nextStatement {statement : Nat → Rule Unit} (h : Advances limit statement) :
    Rounds limit fun bound => nextStatement (statement bound) := by
  refine moves_skipComments.rounds fun _ => moves_ahead?.rounds fun kind? => ?_
  cases kind? with
  | none => exact rounds_last
  | some kind => exact rounds_untilBrace h

/-- By induction on the tokens to come: the statements of a block have fewer of them. -/
theorem advances_block : Advances limit Descent.block := by
  induction limit with
  | zero => exact fun _ hleft => absurd hleft (Nat.not_lt_zero _)
  | succ limit ih =>
      intro analyzer hleft
      have hround : Rounds limit fun bound => nextStatement (statement bound) :=
        rounds_nextStatement (advances_statementOf ih.moves)
      have hrest : Moves limit fun bound =>
          loop (fun _ => nextStatement (statement bound)) bound () >>= fun _ =>
            expect .rightBrace :=
        (moves_loop (fun _ => hround) ()).bind fun _ => (advances_expect _).moves
      have hopening :=
        (advances_expect .leftBrace analyzer (Nat.lt_succ_self _)).const limit
      refine (hopening.bind fun _ behind _ hless => ?_).succ fun _ => rfl
      have hbehind : behind.left < limit :=
        Nat.lt_of_lt_of_le hless (Nat.le_of_lt_succ hleft)
      refine (hrest behind hbehind).mono fun _ _ hmore _ => ?_
      exact Nat.lt_of_le_of_lt hmore.left_le hless

theorem advances_statement : Advances limit statement :=
  advances_statementOf advances_block.moves

end Statements

/-! ## Members, classes and programs -/

section Programs

variable {limit : Nat}

theorem depth_pop (scopes : Scope.Stack) : scopes.pop.2.depth = scopes.depth - 1 := by
  obtain ⟨global, locals⟩ := scopes
  cases locals <;> rfl

theorem moves_inScope {α : Type} {rule : Nat → Rule α} (h : Moves limit rule) :
    Moves limit fun bound => inScope (rule bound) := by
  intro analyzer hleft
  obtain ⟨verdict, after, hrule, honward, _⟩ :=
    h { analyzer with scopes := analyzer.scopes.push } hleft
  refine ⟨verdict, { after with scopes := after.scopes.pop.2 }, fun bound hbound => ?_,
    ⟨honward.rest, ?_⟩, fun _ _ => trivial⟩
  · simp only [inScope, hrule bound hbound]
  · rw [depth_pop]
    exact Nat.sub_le_of_le_add honward.depth_le

theorem advances_parameter : Advances limit fun _ => parameter := by
  refine advances_type.bind fun ty => (advances_read _).moves.bind fun name => ?_
  exact (moves_declare ty name).bind fun _ => moves_comma?

theorem moves_parameters : Moves limit parameters := by
  refine moves_ahead?.bind fun kind? => ?_
  by_cases hclosing : kind? = some .rightParen
  · simp only [if_pos hclosing]
    exact moves_pure ()
  · simp only [if_neg hclosing]
    exact moves_loop (fun _ => advances_parameter.rounds) ()

theorem advances_methodRest : Advances limit methodRest := by
  refine moves_parameters.advances fun _ => (advances_expect _).bind fun _ => ?_
  exact advances_block.moves

theorem advances_method : Advances limit method :=
  (advances_expect _).bind fun _ => moves_inScope advances_methodRest.moves

theorem advances_member : Advances limit member := by
  refine advances_access.bind fun _ => advances_type.moves.bind fun ty => ?_
  refine (advances_read _).moves.bind fun name => moves_ahead?.bind fun kind? => ?_
  by_cases hmethod : kind? = some .leftParen
  · simp only [if_pos hmethod]
    exact advances_method.moves
  · simp only [if_neg hmethod]
    exact (moves_declare ty name).bind fun _ => (advances_expect _).moves

/-- Rounds up to a closing brace end in front of one, if none of them fails. -/
theorem ends_loop_untilBrace {rule : Nat → Rule Unit} (h : Advances limit rule)
    {analyzer : Analyzer} (hleft : analyzer.left < limit) :
    Ends limit (fun bound => loop (fun _ => untilBrace (rule bound)) bound ()) analyzer
      fun _ after => after.ahead.kind? = some .rightBrace :=
  ends_loop (fun _ after => after.ahead.kind? = some .rightBrace) (fun _ hbrace => hbrace)
    (fun _ _ hless => ends_untilBrace h hless) () analyzer hleft

theorem moves_members : Moves limit members :=
  fun _ hleft => (ends_loop_untilBrace advances_member hleft).mono fun _ _ _ _ => trivial

theorem advances_classRule : Advances limit classRule := by
  refine advances_access.bind fun _ => (advances_expect _).moves.bind fun _ => ?_
  refine (advances_expect _).moves.bind fun _ => (advances_expect _).moves.bind fun _ => ?_
  exact moves_members.bind fun _ => (advances_expect _).moves

theorem moves_classes : Moves limit classes :=
  fun _ hleft => (ends_loop_untilBrace advances_classRule hleft).mono fun _ _ _ _ => trivial

theorem advances_namespaceRule : Advances limit namespaceRule := by
  refine (advances_expect _).bind fun _ => (advances_expect _).moves.bind fun _ => ?_
  refine (advances_expect _).moves.bind fun _ => moves_classes.bind fun _ => ?_
  exact (advances_expect _).moves

theorem advances_usingRule : Advances limit fun _ => usingRule := by
  refine (advances_expect _).bind fun _ => (advances_expect _).moves.bind fun _ => ?_
  exact (advances_expect _).moves

theorem rounds_declaration : Rounds limit declaration := by
  have husing : Rounds limit fun _ => do
      usingRule
      return some () :=
    (advances_usingRule.bind fun _ => moves_pure (some ())).rounds
  refine moves_ahead?.rounds fun kind? => ?_
  cases kind? with
  | none => exact rounds_last
  | some kind =>
      cases kind with
      | word reserved =>
          cases reserved with
          | namespaceWord =>
              exact (advances_namespaceRule.bind fun _ => moves_pure (some ())).rounds
          | _ => exact husing
      | _ => exact husing

theorem moves_program : Moves limit program := by
  refine (moves_loop (fun _ => rounds_declaration) ()).bind fun _ analyzer _ => ?_
  exact ⟨.ok analyzer.scopes.global, { analyzer with scopes := .empty }, fun _ _ => rfl,
    ⟨List.suffix_rfl, Nat.zero_le _⟩, fun _ _ => trivial⟩

end Programs

end Descent

end Classlet
