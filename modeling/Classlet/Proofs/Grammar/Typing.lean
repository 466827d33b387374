import Classlet.Proofs.Grammar.Program

/-!
# Typing

When a program is well typed.  Inside a method a name may be used if it is a
parameter or a local declared before, at whatever depth of blocks; a variable is
known in its own initial value already, and a `foreach` header declares nothing.
-/

namespace Classlet.Grammar

/-- Names and their types in the order of their declaration. -/
abbrev Bindings := List (String × Ty)

def Bindings.Distinct (bindings : Bindings) : Prop :=
  (bindings.map Prod.fst).Nodup

def HasSomeType (known : Bindings) (expression : Expression) : Prop :=
  ∃ ty, expression.type? known = some ty

/-! ## Declared names -/

def Declarator.binding (ty : Ty) (declarator : Declarator) : String × Ty :=
  (declarator.name.token.lexeme, ty)

def ForHeader.binding (header : ForHeader) : String × Ty :=
  (header.name.token.lexeme, header.type.value)

def Parameter.binding (parameter : Parameter) : String × Ty :=
  (parameter.name.token.lexeme, parameter.type.value)

mutual

def Statement.locals : Statement → Bindings
  | .variables type parts _ => parts.toList.map (Declarator.binding type.value)
  | .assignments _ _ => []
  | .conditional _ _ _ body => body.locals
  | .alternative _ _ _ body _ _ other => body.locals ++ other.locals
  | .whileLoop _ _ _ body => body.locals
  | .forLoop header _ body => header.binding :: body.locals
  | .doLoop _ _ body _ _ _ => body.locals
  | .foreachLoop _ _ body => body.locals

def Block.locals : Block → Bindings
  | .done _ _ => []
  | .next _ statement rest => statement.locals ++ rest.locals

end

def Method.bindings : Option (Separated Parameter) → Bindings
  | none => []
  | some parameters => parameters.toList.map Parameter.binding

def Method.parameters (method : Method) : Bindings :=
  Method.bindings method.parameters?

/-! ## Statements -/

/-- The variables after the name of a type, each known from its own initial value on. -/
def DeclaratorsWellTyped (ty : Ty) (known : Bindings) : List Declarator → Prop
  | [] => True
  | declarator :: more =>
      (∀ initial ∈ declarator.initial?,
        initial.2.type? (known ++ [declarator.binding ty]) = some ty) ∧
      DeclaratorsWellTyped ty (known ++ [declarator.binding ty]) more

def Assignment.WellTyped (known : Bindings) (assignment : Assignment) : Prop :=
  ∃ ty, known.lookup assignment.target.token.lexeme = some ty ∧
    assignment.value.type? known = some ty

def ForHeader.WellTyped (known : Bindings) (header : ForHeader) : Prop :=
  header.initial.type? (known ++ [header.binding]) = some header.type.value ∧
  HasSomeType (known ++ [header.binding]) header.condition ∧
  ((known ++ [header.binding]).lookup header.counter.token.lexeme).isSome

mutual

def Statement.WellTyped (known : Bindings) : Statement → Prop
  | .variables type parts _ => DeclaratorsWellTyped type.value known parts.toList
  | .assignments parts _ => ∀ assignment ∈ parts.toList, assignment.WellTyped known
  | .conditional _ condition _ body =>
      HasSomeType known condition.value ∧ body.WellTyped known
  | .alternative _ condition _ body _ _ other =>
      HasSomeType known condition.value ∧ body.WellTyped known ∧
      other.WellTyped (known ++ body.locals)
  | .whileLoop _ condition _ body =>
      HasSomeType known condition.value ∧ body.WellTyped known
  | .forLoop header _ body =>
      header.WellTyped known ∧ body.WellTyped (known ++ [header.binding])
  | .doLoop _ _ body _ condition _ =>
      body.WellTyped known ∧ HasSomeType (known ++ body.locals) condition.value
  | .foreachLoop header _ body =>
      HasSomeType known header.collection ∧ body.WellTyped known

def Block.WellTyped (known : Bindings) : Block → Prop
  | .done _ _ => True
  | .next _ statement rest =>
      statement.WellTyped known ∧ rest.WellTyped (known ++ statement.locals)

end

/-! ## Programs -/

def Method.WellTyped (method : Method) : Prop :=
  Bindings.Distinct (method.parameters ++ method.body.locals) ∧
  method.body.WellTyped method.parameters

def Member.fields (member : Member) : Bindings :=
  match member.rest with
  | .field _ => [(member.name.token.lexeme, member.type.value)]
  | .method _ => []

def Member.methods (member : Member) : List Method :=
  match member.rest with
  | .field _ => []
  | .method method => [method]

def Declaration.members : Declaration → List Member
  | ofUsing _ _ _ => []
  | ofNamespace _ _ _ classes _ => classes.flatMap ClassDeclaration.members

def Program.members (program : Program) : List Member :=
  program.declarations.flatMap Declaration.members

def Program.fields (program : Program) : Bindings :=
  program.members.flatMap Member.fields

def Program.methods (program : Program) : List Method :=
  program.members.flatMap Member.methods

def Program.WellTyped (program : Program) : Prop :=
  program.fields.Distinct ∧ ∀ method ∈ program.methods, method.WellTyped

end Classlet.Grammar
