import Classlet.Analysis.Analyzer
import Classlet.Proofs.Expression.Reading

/-!
# Recursive descent

The analysis as rules that call each other, one for each part of the grammar.  Where an
analysis by goals does one thing for each token and then is done, here loops make rounds
and rules call themselves in turn, and nothing in their text says that they end.  So a
rule is run with a bound: its loops make at most so many rounds, and the blocks and
groups that it meets are nested at most so deep.  A rule for which the bound is too
small has no outcome at all, as one that goes on for ever would have none.
-/

namespace Classlet

/-- What comes next where the analyzer stands. -/
def Analysis.Analyzer.ahead (analyzer : Analyzer) : Lookahead :=
  match analyzer.rest with
  | [] => .ending analyzer.last
  | token :: _ => .token token

namespace Descent

open Analysis (Analyzer Use bindName)
open Grammar (operatorsAt)

/-- What a rule does where an analyzer stands; `none` if its bound is too small. -/
abbrev Rule : Type → Type := ExceptT Fault (StateT Analyzer Option)

def exhausted {α : Type} : Rule α := fun _ => none

section Bind

variable {α β : Type} {rule : Rule α} {next : α → Rule β} {analyzer after : Analyzer}

theorem bind_ok {result : α} (h : rule analyzer = some (.ok result, after)) :
    (rule >>= next) analyzer = next result after := by
  change Option.bind (rule analyzer) _ = _
  rw [h]
  rfl

theorem bind_error {fault : Fault} (h : rule analyzer = some (.error fault, after)) :
    (rule >>= next) analyzer = some (.error fault, after) := by
  change Option.bind (rule analyzer) _ = _
  rw [h]
  rfl

theorem bind_none (h : rule analyzer = none) : (rule >>= next) analyzer = none := by
  change Option.bind (rule analyzer) _ = _
  rw [h]
  rfl

end Bind

/-! ## Single tokens -/

def fail {α : Type} (wanted : Wanted) : Rule α := fun analyzer =>
  some (.error (.unexpected wanted analyzer.ahead), analyzer)

/-- Go on with what has been found out about tokens already taken. -/
def judge {α : Type} (verdict : Except Fault α) : Rule α := fun analyzer =>
  some (verdict, analyzer)

def ahead? : Rule (Option Kind) := fun analyzer => some (.ok analyzer.ahead.kind?, analyzer)

/-- Take the next token if `pick` makes something of it. -/
def take? {α : Type} (pick : Token → Option α) : Rule (Option α) := fun analyzer =>
  match analyzer.rest with
  | [] => some (.ok none, analyzer)
  | token :: rest =>
      match pick token with
      | none => some (.ok none, analyzer)
      | some found => some (.ok (some found), ⟨token.position, rest, analyzer.scopes⟩)

section Take

variable {α : Type} {pick : Token → Option α} {last : Position} {token : Token}
variable {rest : List Token} {scopes : Scope.Stack}

theorem take?_nil :
    take? pick ⟨last, [], scopes⟩ = some (.ok none, ⟨last, [], scopes⟩) := rfl

theorem take?_none (h : pick token = none) :
    take? pick ⟨last, token :: rest, scopes⟩ = some (.ok none, ⟨last, token :: rest, scopes⟩) := by
  simp only [take?, h]

theorem take?_some {found : α} (h : pick token = some found) :
    take? pick ⟨last, token :: rest, scopes⟩ =
      some (.ok (some found), ⟨token.position, rest, scopes⟩) := by
  simp only [take?, h]

end Take

def take {α : Type} (wanted : Wanted) (pick : Token → Option α) : Rule α := do
  match ← take? pick with
  | some found => pure found
  | none => fail wanted

theorem take_some {α : Type} {wanted : Wanted} {pick : Token → Option α} {last : Position}
    {token : Token} {rest : List Token} {scopes : Scope.Stack} {found : α}
    (h : pick token = some found) :
    take wanted pick ⟨last, token :: rest, scopes⟩ =
      some (.ok found, ⟨token.position, rest, scopes⟩) :=
  bind_ok (take?_some h)

theorem take_none {α : Type} {wanted : Wanted} {pick : Token → Option α}
    {analyzer : Analyzer}
    (h : ∀ token ∈ analyzer.rest.head?, pick token = none) :
    take wanted pick analyzer = some (.error (.unexpected wanted analyzer.ahead), analyzer) := by
  obtain ⟨last, rest, scopes⟩ := analyzer
  cases rest with
  | nil => exact bind_ok take?_nil
  | cons token rest => exact bind_ok (take?_none (h token rfl))

def ofKind? (kind : Kind) : Token → Option Token :=
  Option.guard fun token => token.kind = kind

theorem ofKind?_eq_some {kind : Kind} {token found : Token} :
    ofKind? kind token = some found ↔ token.kind = kind ∧ token = found := by
  simp only [ofKind?, Option.guard_eq_some_iff, decide_eq_true_eq, and_comm]

theorem ofKind?_of_eq {kind : Kind} {token : Token} (h : token.kind = kind) :
    ofKind? kind token = some token :=
  ofKind?_eq_some.mpr ⟨h, rfl⟩

theorem ofKind?_of_ne {kind : Kind} {token : Token} (h : token.kind ≠ kind) :
    ofKind? kind token = none := by
  simp [ofKind?, h]

def read (kind : Kind) : Rule Token := take (.kind kind) (ofKind? kind)

def expect (kind : Kind) : Rule Unit := do
  let _ ← read kind

theorem expect_of_eq {kind : Kind} {last : Position} {token : Token} {rest : List Token}
    {scopes : Scope.Stack} (h : token.kind = kind) :
    expect kind ⟨last, token :: rest, scopes⟩ = some (.ok (), ⟨token.position, rest, scopes⟩) :=
  bind_ok (take_some (ofKind?_of_eq h))

def type : Rule Ty := take .type fun token => token.kind.type?

def skipComments : Rule Unit := fun analyzer =>
  let comments := analyzer.rest.takeWhile fun token => token.kind.isComment
  let behind := analyzer.rest.dropWhile fun token => token.kind.isComment
  some (.ok (), ⟨lastPlace analyzer.last comments, behind, analyzer.scopes⟩)

section Comments

variable {last : Position} {token : Token} {rest : List Token} {scopes : Scope.Stack}

theorem skipComments_nil :
    skipComments ⟨last, [], scopes⟩ = some (.ok (), ⟨last, [], scopes⟩) := rfl

theorem skipComments_comment (h : token.kind.isComment = true) :
    skipComments ⟨last, token :: rest, scopes⟩ = skipComments ⟨token.position, rest, scopes⟩ := by
  simp [skipComments, h]

theorem skipComments_other (h : token.kind.isComment = false) :
    skipComments ⟨last, token :: rest, scopes⟩ =
      some (.ok (), ⟨last, token :: rest, scopes⟩) := by
  simp [skipComments, h]

end Comments

def access : Rule Unit := do
  skipComments
  let _ ← take .access (Option.guard fun token => token.kind.isAccess)

/-! ## Names -/

def declare (ty : Ty) (name : Token) : Rule Unit := fun analyzer =>
  match bindName analyzer.scopes ty name with
  | .ok scopes => some (.ok (), { analyzer with scopes })
  | .error fault => some (.error fault, analyzer)

def resolve (name : Token) : Rule Ty := fun analyzer =>
  match analyzer.scopes.lookup name.lexeme with
  | some ty => some (.ok ty, analyzer)
  | none => some (.error (.undeclared name), analyzer)

section Names

variable {analyzer : Analyzer} {ty : Ty} {name : Token}

theorem declare_ok {scopes : Scope.Stack}
    (h : bindName analyzer.scopes ty name = .ok scopes) :
    declare ty name analyzer = some (.ok (), { analyzer with scopes }) := by
  simp only [declare, h]

theorem declare_error {fault : Fault}
    (h : bindName analyzer.scopes ty name = .error fault) :
    declare ty name analyzer = some (.error fault, analyzer) := by
  simp only [declare, h]

theorem resolve_some (h : analyzer.scopes.lookup name.lexeme = some ty) :
    resolve name analyzer = some (.ok ty, analyzer) := by
  simp only [resolve, h]

theorem resolve_none (h : analyzer.scopes.lookup name.lexeme = none) :
    resolve name analyzer = some (.error (.undeclared name), analyzer) := by
  simp only [resolve, h]

end Names

/-- Run a rule in a method scope of its own, which is closed also after a fault. -/
def inScope {α : Type} (rule : Rule α) : Rule α := fun analyzer =>
  match rule { analyzer with scopes := analyzer.scopes.push } with
  | some (verdict, after) => some (verdict, { after with scopes := after.scopes.pop.2 })
  | none => none

/-! ## Loops -/

/-- Make rounds, each from where the one before it ended, up to one that is the last. -/
def loop {σ : Type} (round : σ → Rule (Option σ)) : Nat → σ → Rule σ
  | 0, _ => exhausted
  | bound + 1, state => do
      match ← round state with
      | some next => loop round bound next
      | none => pure state

/-- A round of a list that goes on behind each comma. -/
def comma? : Rule (Option Unit) := do
  return (← take? (ofKind? .comma)).map fun _ => ()

/--
A round of a list that goes on up to a closing brace, without a look at the end of the text.
-/
def untilBrace (rule : Rule Unit) : Rule (Option Unit) := do
  if (← ahead?) = some .rightBrace then
    return none
  else
    rule
    return some ()

/-! ## Expressions -/

/-- A name, a number or a text. -/
def operand : Rule Ty := fun analyzer =>
  match analyzer.rest with
  | [] => fail .expression analyzer
  | token :: rest =>
      match Expression.operandType? analyzer.scopes token with
      | .ok (some ty) => some (.ok ty, ⟨token.position, rest, analyzer.scopes⟩)
      | .ok none => fail .expression analyzer
      | .error fault => some (.error fault, analyzer)

section Operand

variable {last : Position} {token : Token} {rest : List Token} {scopes : Scope.Stack}

theorem operand_some {ty : Ty} (h : Expression.operandType? scopes token = .ok (some ty)) :
    operand ⟨last, token :: rest, scopes⟩ = some (.ok ty, ⟨token.position, rest, scopes⟩) := by
  simp only [operand, h]

theorem operand_none (h : Expression.operandType? scopes token = .ok none) :
    operand ⟨last, token :: rest, scopes⟩ =
      fail .expression ⟨last, token :: rest, scopes⟩ := by
  simp only [operand, h]

theorem operand_error {fault : Fault}
    (h : Expression.operandType? scopes token = .error fault) :
    operand ⟨last, token :: rest, scopes⟩ = some (.error fault, ⟨last, token :: rest, scopes⟩) := by
  simp only [operand, h]

end Operand

/-- A factor, given the rule for what stands in parentheses. -/
def factorOf (nested : Rule Ty) : Rule Ty := do
  match ← take? (ofKind? .leftParen) with
  | some _ =>
      let inner ← nested
      expect .rightParen
      return inner
  | none => operand

def ofOperators? (operators : List Operator) (token : Token) : Option (Operator × Token) :=
  match token.kind with
  | .binary operator => if operator ∈ operators then some (operator, token) else none
  | _ => none

theorem of_ofOperators? {operators : List Operator} {token sign : Token}
    {operator : Operator}
    (h : ofOperators? operators token = some (operator, sign)) :
    token.kind = .binary operator ∧ operator ∈ operators ∧ token = sign := by
  unfold ofOperators? at h
  split at h
  · rename_i found hkind
    obtain ⟨hmem, hfound⟩ := Option.ite_none_right_eq_some.mp h
    cases hfound
    exact ⟨hkind, hmem, rfl⟩
  · cases h

theorem not_mem_of_ofOperators? {operators : List Operator} {token : Token}
    {operator : Operator}
    (h : ofOperators? operators token = none) (hkind : token.kind = .binary operator) :
    operator ∉ operators := by
  intro hmem
  simp [ofOperators?, hkind, hmem] at h

/-- One operator and its right operand, if an operator comes next. -/
def operation (operators : List Operator) (right : Rule Ty) (left : Ty) :
    Rule (Option Ty) := do
  skipComments
  match ← take? (ofOperators? operators) with
  | some (operator, sign) =>
      let other ← right
      return some (← judge (operator.typing sign left other))
  | none => return none

/-- The phrases of a layer, given how many layers are tighter. -/
def phrase (bound : Nat) (factor : Rule Ty) : Nat → Rule Ty
  | 0 => factor
  | tighter + 1 => do
      let left ← phrase bound factor tighter
      loop (operation (operatorsAt (6 - tighter)) (phrase bound factor tighter)) bound left

def factor : Nat → Rule Ty
  | 0 => exhausted
  | bound + 1 => factorOf (phrase bound (factor bound) 7)

def expression (bound : Nat) : Rule Ty := phrase bound (factor bound) 7

/-! ## Statements -/

def condition (bound : Nat) : Rule Unit := do
  expect .leftParen
  let _ ← expression bound
  expect .rightParen

/-- A value that goes to a name of the type. -/
def value (bound : Nat) (name : Token) (ty : Ty) (sign : Token) : Rule Unit := do
  let found ← expression bound
  judge ((Use.assign name ty sign).check found)

def initializer (bound : Nat) (name : Token) (ty : Ty) : Rule Unit := do
  match ← take? (ofKind? .assign) with
  | some sign => value bound name ty sign
  | none => pure ()

def declarator (bound : Nat) (ty : Ty) : Rule (Option Unit) := do
  let name ← read .identifier
  declare ty name
  initializer bound name ty
  comma?

def localVariables (bound : Nat) : Rule Unit := do
  let ty ← type
  loop (fun _ => declarator bound ty) bound ()
  expect .semicolon

def assignment (bound : Nat) : Rule (Option Unit) := do
  let name ← read .identifier
  let ty ← resolve name
  let sign ← read .assign
  value bound name ty sign
  comma?

def assignments (bound : Nat) : Rule Unit := do
  loop (fun _ => assignment bound) bound ()
  expect .semicolon

def ifStatement (bound : Nat) (block : Rule Unit) : Rule Unit := do
  expect (.word .ifWord)
  condition bound
  block
  match ← take? (ofKind? (.word .elseWord)) with
  | some _ => block
  | none => pure ()

def whileStatement (bound : Nat) (block : Rule Unit) : Rule Unit := do
  expect (.word .whileWord)
  condition bound
  block

def forHeader (bound : Nat) : Rule Unit := do
  expect .leftParen
  let ty ← type
  let name ← read .identifier
  declare ty name
  let sign ← read .assign
  value bound name ty sign
  expect .semicolon
  let _ ← expression bound
  expect .semicolon
  let counter ← read .identifier
  let _ ← resolve counter
  let _ ← take .stepOperator (Option.guard fun token => token.kind.isStep)
  expect .number
  expect .rightParen

def forStatement (bound : Nat) (block : Rule Unit) : Rule Unit := do
  expect (.word .forWord)
  forHeader bound
  block

def doStatement (bound : Nat) (block : Rule Unit) : Rule Unit := do
  expect (.word .doWord)
  block
  expect (.word .whileWord)
  condition bound
  expect .semicolon

def foreachHeader (bound : Nat) : Rule Unit := do
  expect .leftParen
  let _ ← type
  expect .identifier
  expect (.word .inWord)
  let _ ← expression bound
  expect .rightParen

def foreachStatement (bound : Nat) (block : Rule Unit) : Rule Unit := do
  expect (.word .foreachWord)
  foreachHeader bound
  block

/-- A statement, given the rule for the blocks in it. -/
def statementOf (bound : Nat) (block : Rule Unit) : Rule Unit := do
  match ← ahead? with
  | some .identifier => assignments bound
  | some (.word .ifWord) => ifStatement bound block
  | some (.word .whileWord) => whileStatement bound block
  | some (.word .forWord) => forStatement bound block
  | some (.word .doWord) => doStatement bound block
  | some (.word .foreachWord) => foreachStatement bound block
  | some (.type _) => localVariables bound
  | _ => fail .statement

/-- A round of a block, which goes on up to a closing brace or the end of the text. -/
def nextStatement (statement : Rule Unit) : Rule (Option Unit) := do
  skipComments
  match ← ahead? with
  | none => return none
  | some _ => untilBrace statement

def block : Nat → Rule Unit
  | 0 => exhausted
  | bound + 1 => do
      expect .leftBrace
      loop (fun _ => nextStatement (statementOf bound (block bound))) bound ()
      expect .rightBrace

def statement (bound : Nat) : Rule Unit := statementOf bound (block bound)

/-! ## Members and classes -/

def parameter : Rule (Option Unit) := do
  let ty ← type
  let name ← read .identifier
  declare ty name
  comma?

def parameters (bound : Nat) : Rule Unit := do
  if (← ahead?) = some .rightParen then
    pure ()
  else
    loop (fun _ => parameter) bound ()

def methodRest (bound : Nat) : Rule Unit := do
  parameters bound
  expect .rightParen
  block bound

def method (bound : Nat) : Rule Unit := do
  expect .leftParen
  inScope (methodRest bound)

def member (bound : Nat) : Rule Unit := do
  access
  let ty ← type
  let name ← read .identifier
  if (← ahead?) = some .leftParen then
    method bound
  else
    declare ty name
    expect .semicolon

def members (bound : Nat) : Rule Unit := loop (fun _ => untilBrace (member bound)) bound ()

def classRule (bound : Nat) : Rule Unit := do
  access
  expect (.word .classWord)
  expect .identifier
  expect .leftBrace
  members bound
  expect .rightBrace

def classes (bound : Nat) :
    Rule Unit := loop (fun _ => untilBrace (classRule bound)) bound ()

/-! ## Programs -/

def namespaceRule (bound : Nat) : Rule Unit := do
  expect (.word .namespaceWord)
  expect .identifier
  expect .leftBrace
  classes bound
  expect .rightBrace

def usingRule : Rule Unit := do
  expect (.word .usingWord)
  expect .identifier
  expect .semicolon

def declaration (bound : Nat) : Rule (Option Unit) := do
  match ← ahead? with
  | none => return none
  | some (.word .namespaceWord) =>
      namespaceRule bound
      return some ()
  | some _ =>
      usingRule
      return some ()

def program (bound : Nat) : Rule Scope.Table := do
  loop (fun _ => declaration bound) bound ()
  fun analyzer => some (.ok analyzer.scopes.global, { analyzer with scopes := .empty })

end Descent

end Classlet
