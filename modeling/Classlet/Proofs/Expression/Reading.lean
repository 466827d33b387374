import Classlet.Expression.State
import Classlet.Proofs.Grammar.Reassociation

/-!
# Reading phrases

Reading the tokens of a canonical phrase leaves operations waiting, but
completing them gives the same as completing what waited before with the type of
the phrase in hand: `delivers_phrase`.  So reading an expression gives its type,
or the first fault of a check of the tree from left to right.
-/

namespace Classlet

/-- The place of the last token read, after some more tokens have been read. -/
def lastPlace (last : Position) (tokens : List Token) : Position :=
  tokens.foldl (fun _ token => token.position) last

@[simp] theorem lastPlace_nil (last : Position) : lastPlace last [] = last := rfl

@[simp] theorem lastPlace_cons (last : Position) (token : Token) (tokens : List Token) :
    lastPlace last (token :: tokens) = lastPlace token.position tokens := rfl

@[simp] theorem lastPlace_append (last : Position) (front back : List Token) :
    lastPlace last (front ++ back) = lastPlace (lastPlace last front) back :=
  List.foldl_append

namespace Expression

open Grammar

/-! ## Completing operations -/

/-- No operation of the level waits for its right operand. -/
def Barred (level : Nat) : List Frame → Prop
  | .operation _ operator _ :: _ => operator.level < level
  | _ => True

theorem level_le_tightest (operator : Operator) : operator.level ≤ Operator.tightest := by
  cases operator <;> simp [Operator.level, Operator.tightest]

theorem Barred.mono {low high : Nat} (hle : low ≤ high) {frames : List Frame}
    (h : Barred low frames) : Barred high frames := by
  unfold Barred at h ⊢
  split at h
  · exact Nat.lt_of_lt_of_le h hle
  · trivial

theorem reduce_eq_self {level : Nat} {frames : List Frame} (h : Barred level frames)
    (ty : Ty) :
    reduce level frames ty = .ok (frames, ty) := by
  match frames with
  | [] => rfl
  | .group :: frames => rfl
  | .operation left operator sign :: frames =>
      have hlt : operator.level < level := h
      rw [reduce, if_neg (Nat.not_le.mpr hlt)]

theorem reduce_operation {level : Nat} {operator : Operator} (h : level ≤ operator.level)
    (left right : Ty) (sign : Token) (frames : List Frame) :
    reduce level (.operation left operator sign :: frames) right =
      (operator.typing sign left right).bind (reduce level frames) := by
  rw [reduce, if_pos h]
  cases operator.typing sign left right <;> rfl

/-- What has been completed down to one level need not be completed again. -/
theorem reduce_reduce {low high : Nat} (hle : low ≤ high) (frames : List Frame) (ty : Ty) :
    ((reduce high frames ty).bind fun reached => reduce low reached.1 reached.2) =
      reduce low frames ty := by
  induction frames generalizing ty with
  | nil => rfl
  | cons frame frames ih =>
      cases frame with
      | group => rfl
      | operation left operator sign =>
          by_cases hhigh : high ≤ operator.level
          · rw [reduce_operation hhigh, reduce_operation (Nat.le_trans hle hhigh)]
            cases operator.typing sign left ty with
            | error fault => rfl
            | ok result => exact ih result
          · have hbarred : Barred high (.operation left operator sign :: frames) :=
              Nat.not_le.mp hhigh
            rw [reduce_eq_self hbarred]
            rfl

/-! ## Reading some tokens -/

/-- Reading `tokens` leads from one state to another, whatever follows. -/
def Passes (scopes : Scope.Stack) (before : State) (tokens : List Token)
    (after : State) : Prop :=
  ∀ last rest, read scopes before last (tokens ++ rest) =
    read scopes after (lastPlace last tokens) rest

/-- Reading `tokens` ends with a fault, whatever follows. -/
def Breaks (scopes : Scope.Stack) (before : State) (tokens : List Token)
    (fault : Fault) : Prop :=
  ∀ last rest, (read scopes before last (tokens ++ rest)).verdict = .error fault

section Reading

variable {scopes : Scope.Stack} {before middle after : State} {token : Token}
variable {front back : List Token} {fault : Fault}

theorem Passes.nil (state : State) : Passes scopes state [] state :=
  fun _ _ => rfl

theorem Passes.append (hfront : Passes scopes before front middle)
    (hback : Passes scopes middle back after) : Passes scopes before (front ++ back) after := by
  intro last rest
  rw [List.append_assoc, hfront, hback, lastPlace_append]

theorem Passes.breaks (hfront : Passes scopes before front middle)
    (hback : Breaks scopes middle back fault) : Breaks scopes before (front ++ back) fault := by
  intro last rest
  rw [List.append_assoc, hfront, hback]

theorem Breaks.append (hfront : Breaks scopes before front fault) (back : List Token) :
    Breaks scopes before (front ++ back) fault := by
  intro last rest
  rw [List.append_assoc, hfront]

theorem passes_of_take? (h : before.take? scopes token = .ok (some after)) :
    Passes scopes before [token] after := by
  intro last rest
  simp [read, h]

theorem breaks_of_take? (h : before.take? scopes token = .error fault) :
    Breaks scopes before [token] fault := by
  intro last rest
  simp [read, h]

end Reading

end Expression

namespace Grammar

open Expression

/-! ## Checking a phrase -/

/-- Check a phrase from left to right, operands before operators. -/
def Phrase.check (known : List (String × Ty)) {layer : Nat} : Phrase layer → Except Fault Ty
  | name leaf _ =>
      match known.lookup leaf.token.lexeme with
      | some ty => .ok ty
      | none => .error (.undeclared leaf.token)
  | number leaf _ =>
      .ok (if leaf.token.lexeme.toList.getLast? = some 'f' then .float else .int)
  | text _ _ => .ok .string
  | group _ inner _ _ => inner.check known
  | lift phrase => phrase.check known
  | operation left sign _ right =>
      (left.check known).bind fun leftType =>
        (right.check known).bind fun rightType =>
          sign.value.typing sign.token leftType rightType

theorem typing_eq (operator : Operator) (sign : Token) (left right : Ty) :
    (operator.typing sign left right).toOption = result? operator left right := by
  cases operator <;> simp only [Operator.typing, result?] <;> split <;> rfl

theorem typing_error_kind {operator : Operator} {sign : Token} {left right : Ty}
    {fault : Fault} (h : operator.typing sign left right = .error fault) :
    fault.kind = .mismatch := by
  cases operator <;> simp only [Operator.typing] at h <;> split at h <;> cases h <;> rfl

theorem Phrase.toOption_check (known : List (String × Ty)) {layer : Nat}
    (phrase : Phrase layer) : (phrase.check known).toOption = phrase.type? known := by
  induction phrase with
  | name leaf after =>
      simp only [check, type?]
      cases known.lookup leaf.token.lexeme <;> rfl
  | number leaf after =>
      simp only [check, type?, Except.toOption]
      split <;> rfl
  | text leaf after => rfl
  | group opening inner closing after ih => exact ih
  | lift phrase ih => exact ih
  | operation left sign fits right ihLeft ihRight =>
      simp only [check, type?, ← ihLeft, ← ihRight]
      cases left.check known with
      | error fault => rfl
      | ok leftType =>
          cases right.check known with
          | error fault => rfl
          | ok rightType => exact typing_eq sign.value sign.token leftType rightType

theorem Phrase.check_error_kind {known : List (String × Ty)} {layer : Nat}
    {phrase : Phrase layer} {fault : Fault} (h : phrase.check known = .error fault) :
    fault.kind ≠ .syntactic := by
  induction phrase with
  | name leaf after =>
      simp only [check] at h
      split at h <;> cases h
      simp [Fault.kind]
  | number leaf after => cases h
  | text leaf after => cases h
  | group opening inner closing after ih => exact ih h
  | lift phrase ih => exact ih h
  | operation left sign fits right ihLeft ihRight =>
      simp only [check] at h
      cases hleft : left.check known with
      | error first =>
          simp only [hleft, Except.bind, Except.error.injEq] at h
          exact ihLeft (h ▸ hleft)
      | ok leftType =>
          cases hright : right.check known with
          | error second =>
              simp only [hleft, hright, Except.bind, Except.error.injEq] at h
              exact ihRight (h ▸ hright)
          | ok rightType =>
              simp only [hleft, hright, Except.bind] at h
              simp [typing_error_kind h]

end Grammar

namespace Expression

open Grammar

/-! ## Reading a phrase -/

/--
Reading `tokens` where an operand has to follow leaves a state that is worth as
much as one with the checked type in hand: completing it down to any level up to
`level` gives the same.  If reading breaks, completing gives that fault.
-/
def Delivers (scopes : Scope.Stack) (frames : List Frame) (tokens : List Token)
    (level : Nat) (checked : Except Fault Ty) : Prop :=
  (∃ fault, Breaks scopes (.operand frames) tokens fault ∧
    ∀ low ≤ level, low ≤ Operator.tightest → checked.bind (reduce low frames) = .error fault) ∨
  ∃ waiting ty, Passes scopes (.operand frames) tokens (.operator waiting ty) ∧
    ∀ low ≤ level, low ≤ Operator.tightest →
      reduce low waiting ty = checked.bind (reduce low frames)

/-- The comments after an operand complete the tightest operation. -/
theorem comments_pass_or_break (scopes : Scope.Stack) (comments : Comments)
    (frames : List Frame) (ty : Ty) :
    (∃ fault, Breaks scopes (.operator frames ty) comments.tokens fault ∧
      ∀ low ≤ Operator.tightest, reduce low frames ty = .error fault) ∨
    ∃ waiting result,
      Passes scopes (.operator frames ty) comments.tokens (.operator waiting result) ∧
      ∀ low ≤ Operator.tightest, reduce low waiting result = reduce low frames ty := by
  induction comments generalizing frames ty with
  | nil => exact .inr ⟨frames, ty, .nil _, fun _ _ => rfl⟩
  | cons comment comments ih =>
      cases hreduce : reduce Operator.tightest frames ty with
      | error fault =>
          have htake : (State.operator frames ty).take? scopes comment.token =
              .error fault := by
            simp [State.take?, comment.kind_eq, hreduce]
          refine .inl ⟨fault, (breaks_of_take? htake).append _, ?_⟩
          intro low hlow
          rw [← reduce_reduce hlow, hreduce]
          rfl
      | ok reached =>
          obtain ⟨waiting, result⟩ := reached
          have htake : (State.operator frames ty).take? scopes comment.token =
              .ok (some (.operator waiting result)) := by
            simp [State.take?, comment.kind_eq, hreduce]
          have hpass := passes_of_take? htake
          have hsame : ∀ low ≤ Operator.tightest,
              reduce low waiting result = reduce low frames ty := by
            intro low hlow
            rw [← reduce_reduce hlow frames, hreduce]
            rfl
          rcases ih waiting result with ⟨fault, hbreaks, herror⟩ | ⟨later, final, hpass', heq⟩
          · refine .inl ⟨fault, hpass.breaks hbreaks, fun low hlow => ?_⟩
            rw [← hsame low hlow, herror low hlow]
          · refine .inr ⟨later, final, hpass.append hpass', fun low hlow => ?_⟩
            rw [heq low hlow, hsame low hlow]

/-- An operand that has been read delivers its type, with the comments after it. -/
theorem delivers_operand {scopes : Scope.Stack} {frames : List Frame} {tokens : List Token}
    {ty : Ty} (h : Passes scopes (.operand frames) tokens (.operator frames ty))
    (level : Nat) (comments : Comments) :
    Delivers scopes frames (tokens ++ comments.tokens) level (.ok ty) := by
  rcases comments_pass_or_break scopes comments frames ty with
    ⟨fault, hbreaks, herror⟩ | ⟨waiting, result, hpass, heq⟩
  · exact .inl ⟨fault, h.breaks hbreaks, fun low _ hlow => herror low hlow⟩
  · exact .inr ⟨waiting, result, h.append hpass, fun low _ hlow => heq low hlow⟩

/-- A token that is an operand by itself, or a name that is not bound. -/
theorem delivers_leaf {scopes : Scope.Stack} {token : Token} {checked : Except Fault Ty}
    (hkind : token.kind ≠ .leftParen)
    (h : operandType? scopes token = checked.map some) (frames : List Frame)
    (level : Nat) (comments : Comments) :
    Delivers scopes frames (token :: comments.tokens) level checked := by
  cases checked with
  | error fault =>
      have htake : (State.operand frames).take? scopes token = .error fault := by
        simp [State.take?, hkind, h, Except.map]
      exact .inl ⟨fault, (breaks_of_take? htake).append comments.tokens, fun _ _ _ => rfl⟩
  | ok ty =>
      have htake : (State.operand frames).take? scopes token =
          .ok (some (.operator frames ty)) := by
        simp [State.take?, hkind, h, Except.map]
      exact delivers_operand (passes_of_take? htake) level comments

theorem delivers_group {scopes : Scope.Stack} {opening closing : Token}
    {inner : List Token} {checked : Except Fault Ty} (hopening : opening.kind = .leftParen)
    (hclosing : closing.kind = .rightParen) {frames : List Frame}
    (h : Delivers scopes (.group :: frames) inner 0 checked) (level : Nat)
    (comments : Comments) :
    Delivers scopes frames (opening :: (inner ++ closing :: comments.tokens)) level checked := by
  have hopen : Passes scopes (.operand frames) [opening] (.operand (.group :: frames)) :=
    passes_of_take? (by simp [State.take?, hopening])
  have hzero := Nat.zero_le Operator.tightest
  rcases h with ⟨fault, hbreaks, herror⟩ | ⟨waiting, ty, hpass, hreduce⟩
  · have hchecked : checked = .error fault := by
      have := herror 0 (Nat.le_refl 0) hzero
      cases checked with
      | error first => simpa [Except.bind] using this
      | ok ty => cases this
    refine .inl ⟨fault, ?_, fun _ _ _ => by rw [hchecked]; rfl⟩
    simpa using (hopen.breaks hbreaks).append (closing :: comments.tokens)
  have hinner := hopen.append hpass
  have hcompleted := hreduce 0 (Nat.le_refl 0) hzero
  cases checked with
  | error fault =>
      have htake : (State.operator waiting ty).take? scopes closing = .error fault := by
        simp [State.take?, hclosing, hcompleted, Except.bind]
      refine .inl ⟨fault, ?_, fun _ _ _ => rfl⟩
      simpa using (hinner.breaks (breaks_of_take? htake)).append comments.tokens
  | ok innerType =>
      have htake : (State.operator waiting ty).take? scopes closing =
          .ok (some (.operator frames innerType)) := by
        simp [State.take?, hclosing, hcompleted, Except.bind, reduce]
      simpa using
        delivers_operand (hinner.append (passes_of_take? htake)) level comments

theorem delivers_operation {scopes : Scope.Stack} {frames : List Frame}
    {left right : List Token} {leftCheck rightCheck : Except Fault Ty}
    (sign : Mark Kind.binary) (hbarred : Barred sign.value.level frames)
    (hleft : Delivers scopes frames left sign.value.level leftCheck)
    (hright : ∀ ty, Delivers scopes (.operation ty sign.value sign.token :: frames) right
      (sign.value.level + 1) rightCheck) :
    Delivers scopes frames (left ++ sign.token :: right) sign.value.level
      (leftCheck.bind fun leftType => rightCheck.bind fun rightType =>
        sign.value.typing sign.token leftType rightType) := by
  have htight : sign.value.level ≤ Operator.tightest := level_le_tightest sign.value
  rcases hleft with ⟨fault, hbreaks, herror⟩ | ⟨waiting, ty, hpass, hreduce⟩
  · have hcheck : leftCheck = .error fault := by
      have := herror _ (Nat.le_refl _) htight
      cases leftCheck with
      | error first => simpa [Except.bind] using this
      | ok leftType => simp [Except.bind, reduce_eq_self hbarred] at this
    exact .inl ⟨fault, hbreaks.append _, fun _ _ _ => by rw [hcheck]; rfl⟩
  have hcompleted := hreduce _ (Nat.le_refl _) htight
  cases leftCheck with
  | error fault =>
      have htake : (State.operator waiting ty).take? scopes sign.token = .error fault := by
        simp [State.take?, sign.kind_eq, hcompleted, Except.bind]
      refine .inl ⟨fault, ?_, fun _ _ _ => rfl⟩
      simpa using (hpass.breaks (breaks_of_take? htake)).append right
  | ok leftType =>
      have htake : (State.operator waiting ty).take? scopes sign.token =
          .ok (some (.operand (.operation leftType sign.value sign.token :: frames))) := by
        simp [State.take?, sign.kind_eq, hcompleted, Except.bind, reduce_eq_self hbarred]
      have hsign := hpass.append (passes_of_take? htake)
      -- The operation is completed with the right operand, since it binds less tightly.
      have hcomplete : ∀ low ≤ sign.value.level,
          ((rightCheck.bind fun rightType =>
            sign.value.typing sign.token leftType rightType).bind (reduce low frames)) =
          rightCheck.bind
            (reduce low (.operation leftType sign.value sign.token :: frames)) := by
        intro low hlow
        cases rightCheck with
        | error fault => rfl
        | ok rightType => exact (reduce_operation hlow _ _ _ _).symm
      rcases hright leftType with ⟨fault, hbreaks, herror⟩ | ⟨later, final, hpass', heq⟩
      · refine .inl ⟨fault, by simpa using hsign.breaks hbreaks, ?_⟩
        intro low hlow hlow'
        exact (hcomplete low hlow).trans (herror low (Nat.le_succ_of_le hlow) hlow')
      · refine .inr ⟨later, final, by simpa using hsign.append hpass', ?_⟩
        intro low hlow hlow'
        exact (heq low (Nat.le_succ_of_le hlow) hlow').trans (hcomplete low hlow).symm

theorem Delivers.mono {scopes : Scope.Stack} {frames : List Frame} {tokens : List Token}
    {low high : Nat} {checked : Except Fault Ty} (hle : low ≤ high)
    (h : Delivers scopes frames tokens high checked) :
    Delivers scopes frames tokens low checked := by
  rcases h with ⟨fault, hbreaks, herror⟩ | ⟨waiting, ty, hpass, hreduce⟩
  · exact .inl ⟨fault, hbreaks, fun level hlevel => herror level (Nat.le_trans hlevel hle)⟩
  · exact .inr ⟨waiting, ty, hpass, fun level hlevel => hreduce level (Nat.le_trans hlevel hle)⟩

theorem delivers_phrase (scopes : Scope.Stack) {layer : Nat} (phrase : Phrase layer)
    (hcanonical : phrase.Canonical) (frames : List Frame)
    (hbarred : Barred (layer - 1) frames) :
    Delivers scopes frames phrase.tokens (layer - 1)
      (phrase.check scopes.current.entries) := by
  induction phrase generalizing frames with
  | name leaf after =>
      refine delivers_leaf (by simp [leaf.kind_eq]) ?_ frames _ after
      simp only [operandType?, leaf.kind_eq, Phrase.check, Scope.Stack.lookup,
        Scope.Table.get?]
      cases scopes.current.entries.lookup leaf.token.lexeme <;> rfl
  | number leaf after =>
      refine delivers_leaf (by simp [leaf.kind_eq]) ?_ frames _ after
      simp only [operandType?, leaf.kind_eq, Phrase.check]
      split <;> rfl
  | text leaf after =>
      refine delivers_leaf (by simp [leaf.kind_eq]) ?_ frames _ after
      simp only [operandType?, leaf.kind_eq, Phrase.check]
      rfl
  | group opening inner closing after ih =>
      exact delivers_group opening.kind_eq closing.kind_eq (ih hcanonical _ trivial) _ after
  | @lift layer phrase ih =>
      have hle : layer - 1 ≤ layer + 1 - 1 := by omega
      exact (ih hcanonical frames (hbarred.mono hle)).mono hle
  | @operation layer left sign fits right ihLeft ihRight =>
      obtain ⟨hlayer, hleft, hright⟩ := hcanonical
      obtain ⟨level, rfl⟩ := Nat.exists_eq_succ_of_ne_zero hlayer
      obtain rfl := level_of_mem_operatorsAt_succ fits
      refine delivers_operation sign hbarred (ihLeft hleft frames hbarred) fun ty => ?_
      exact ihRight hright _ (Nat.lt_succ_self _)

/-! ## Reading an expression -/

/-- After an operand the token neither goes on with an expression nor stands inside it. -/
def EndsExpression (token : Token) : Prop :=
  token.kind.isComment = false ∧ ∀ operator, token.kind ≠ .binary operator

/-- No token comes next that goes on with an expression. -/
def EndsBefore (rest : List Token) : Prop :=
  ∀ token ∈ rest.head?, EndsExpression token

theorem endsBefore_nil : EndsBefore [] := by
  simp [EndsBefore]

theorem endsBefore_cons {token : Token} {rest : List Token} :
    EndsBefore (token :: rest) ↔ EndsExpression token := by
  simp [EndsBefore]

section Ending

variable {scopes : Scope.Stack} {rest : List Token} {waiting : List Frame} {ty : Ty}

theorem read_of_reduce_ok (hends : EndsBefore rest) {whole : Ty}
    (h : reduce 0 waiting ty = .ok ([], whole)) (last : Position) :
    read scopes (.operator waiting ty) last rest = ⟨.ok whole, last, rest⟩ := by
  cases rest with
  | nil => simp [read, State.finish, h]
  | cons token rest =>
      obtain ⟨hcomment, hbinary⟩ := endsBefore_cons.mp hends
      have htake : (State.operator waiting ty).take? scopes token = .ok none := by
        cases hkind : token.kind <;> simp_all [State.take?, Kind.isComment]
      simp [read, htake, State.finish, h]

theorem read_of_reduce_error (hends : EndsBefore rest) {fault : Fault}
    (h : reduce 0 waiting ty = .error fault) (last : Position) :
    (read scopes (.operator waiting ty) last rest).verdict = .error fault := by
  cases rest with
  | nil => simp [read, State.finish, h]
  | cons token rest =>
      obtain ⟨hcomment, hbinary⟩ := endsBefore_cons.mp hends
      by_cases hclosing : token.kind = .rightParen
      · simp [read, State.take?, hclosing, h]
      have htake : (State.operator waiting ty).take? scopes token = .ok none := by
        cases hkind : token.kind <;> simp_all [State.take?, Kind.isComment]
      simp [read, htake, State.finish, h]

/-- What tokens deliver to an expression that begins with them is its verdict. -/
theorem read_of_delivers {tokens : List Token} {level : Nat} {checked : Except Fault Ty}
    (h : Delivers scopes [] tokens level checked) (hends : EndsBefore rest) (last : Position) :
    (∀ whole, checked = .ok whole →
      read scopes .start last (tokens ++ rest) = ⟨.ok whole, lastPlace last tokens, rest⟩) ∧
    ∀ fault, checked = .error fault →
      (read scopes .start last (tokens ++ rest)).verdict = .error fault := by
  have hzero := Nat.zero_le Operator.tightest
  rcases h with ⟨first, hbreaks, herror⟩ | ⟨waiting, ty, hpass, hreduce⟩
  · have hcompleted := herror 0 (Nat.zero_le level) hzero
    constructor
    · rintro whole rfl
      cases hcompleted
    · rintro fault rfl
      cases hcompleted
      exact hbreaks last rest
  · have hcompleted := hreduce 0 (Nat.zero_le level) hzero
    rw [State.start, hpass last]
    constructor
    · rintro whole rfl
      exact read_of_reduce_ok hends hcompleted _
    · rintro fault rfl
      exact read_of_reduce_error hends hcompleted _

end Ending

/--
In front of a token that ends it, an expression is read as a whole and gives its
type, if it has one; if it has none, reading ends with a fault that is not one of
syntax.
-/
theorem read_expression (scopes : Scope.Stack) (expression : Expression) (last : Position)
    {token : Token} (hends : EndsExpression token) (rest : List Token) :
    (∃ ty, expression.type? scopes.current.entries = some ty ∧
      read scopes .start last (expression.tokens ++ token :: rest) =
        ⟨.ok ty, lastPlace last expression.tokens, token :: rest⟩) ∨
    ∃ fault, expression.type? scopes.current.entries = none ∧ fault.kind ≠ .syntactic ∧
      (read scopes .start last (expression.tokens ++ token :: rest)).verdict =
        .error fault := by
  obtain ⟨canonical, hcanonical, htokens, htype⟩ := exists_canonical expression
  rw [← htokens, ← htype, ← canonical.toOption_check]
  have hdelivers := delivers_phrase scopes canonical hcanonical [] trivial
  obtain ⟨haccepted, hrejected⟩ :=
    read_of_delivers hdelivers (endsBefore_cons.mpr hends : EndsBefore (token :: rest)) last
  cases hcheck : canonical.check scopes.current.entries with
  | error fault =>
      exact .inr ⟨fault, rfl, Phrase.check_error_kind hcheck, hrejected fault hcheck⟩
  | ok whole => exact .inl ⟨whole, rfl, haccepted whole hcheck⟩

end Expression

end Classlet
