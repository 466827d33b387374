import Classlet.Proofs.Analysis.Layers

/-!
# Fields of trees

The tokens of a program spell the fields of its tree, whether it is well typed or not:
inside of a method there is no access modifier, and outside of methods each one begins
a class or a member.
-/

namespace Classlet

namespace Grammar

/-! ## Tokens without access modifiers -/

/-- No access modifier is among the tokens. -/
def Quiet (tokens : List Token) : Prop :=
  ∀ token ∈ tokens, token.kind.isAccess = false

section Quiet

variable {token : Token} {tokens front back : List Token}

@[simp] theorem quiet_nil : Quiet [] := by
  simp [Quiet]

@[simp] theorem quiet_cons :
    Quiet (token :: tokens) ↔ token.kind.isAccess = false ∧ Quiet tokens :=
  List.forall_mem_cons

@[simp] theorem quiet_append : Quiet (front ++ back) ↔ Quiet front ∧ Quiet back :=
  List.forall_mem_append

end Quiet

theorem Comments.quiet (comments : Comments) : Quiet comments.tokens := by
  intro token htoken
  obtain ⟨comment, _, rfl⟩ := List.mem_map.mp htoken
  rw [comment.kind_eq]
  rfl

theorem Phrase.quiet {layer : Nat} (phrase : Phrase layer) : Quiet phrase.tokens := by
  induction phrase with
  | name leaf after | number leaf after | text leaf after =>
      simp [Phrase.tokens, Leaf.kind_eq, Kind.isAccess, after.quiet]
  | group opening inner closing after ih =>
      simp [Phrase.tokens, Leaf.kind_eq, Kind.isAccess, ih, after.quiet]
  | lift phrase ih => exact ih
  | operation left sign fits right ihLeft ihRight =>
      simp [Phrase.tokens, Mark.kind_eq, Kind.isAccess, ihLeft, ihRight]

theorem Condition.quiet (condition : Condition) : Quiet condition.tokens := by
  simp [Condition.tokens, Leaf.kind_eq, Kind.isAccess, condition.value.quiet]

theorem Separated.quiet {Part : Type} {tokensOf : Part → List Token}
    (h : ∀ part, Quiet (tokensOf part)) (parts : Separated Part) :
    Quiet (parts.tokens tokensOf) := by
  refine quiet_append.mpr ⟨h parts.first, fun token htoken => ?_⟩
  obtain ⟨⟨comma, part⟩, _, htoken⟩ := List.mem_flatMap.mp htoken
  rcases List.mem_cons.mp htoken with rfl | htoken
  · simp [Leaf.kind_eq, Kind.isAccess]
  · exact h part token htoken

theorem Declarator.quiet (declarator : Declarator) : Quiet declarator.tokens := by
  obtain ⟨name, initial?⟩ := declarator
  cases initial? with
  | none => simp [Declarator.tokens, tokensOfInitial, Leaf.kind_eq, Kind.isAccess]
  | some initial =>
      simp [Declarator.tokens, tokensOfInitial, Leaf.kind_eq, Kind.isAccess, initial.2.quiet]

theorem Assignment.quiet (assignment : Assignment) : Quiet assignment.tokens := by
  simp [Assignment.tokens, Leaf.kind_eq, Kind.isAccess, assignment.value.quiet]

theorem ForHeader.quiet (header : ForHeader) : Quiet header.tokens := by
  simp [ForHeader.tokens, Leaf.kind_eq, Mark.kind_eq, Kind.isAccess, header.initial.quiet,
    header.condition.quiet]

theorem ForeachHeader.quiet (header : ForeachHeader) : Quiet header.tokens := by
  simp [ForeachHeader.tokens, Leaf.kind_eq, Mark.kind_eq, Kind.isAccess, header.collection.quiet]

mutual

theorem Statement.quiet (statement : Statement) : Quiet statement.tokens := by
  match statement with
  | .variables type parts closing =>
      simp [Statement.tokens, Leaf.kind_eq, Mark.kind_eq, Kind.isAccess,
        Separated.quiet Declarator.quiet parts]
  | .assignments parts closing =>
      simp [Statement.tokens, Leaf.kind_eq, Kind.isAccess, Separated.quiet Assignment.quiet parts]
  | .conditional word condition opening body =>
      simp [Statement.tokens, Leaf.kind_eq, Kind.isAccess, condition.quiet, Block.quiet body]
  | .alternative word condition opening body otherwise opening' other =>
      simp [Statement.tokens, Leaf.kind_eq, Kind.isAccess, condition.quiet, Block.quiet body,
        Block.quiet other]
  | .whileLoop word condition opening body =>
      simp [Statement.tokens, Leaf.kind_eq, Kind.isAccess, condition.quiet, Block.quiet body]
  | .forLoop header opening body =>
      simp [Statement.tokens, Leaf.kind_eq, Kind.isAccess, header.quiet, Block.quiet body]
  | .doLoop word opening body word' condition closing =>
      simp [Statement.tokens, Leaf.kind_eq, Kind.isAccess, condition.quiet, Block.quiet body]
  | .foreachLoop header opening body =>
      simp [Statement.tokens, Leaf.kind_eq, Kind.isAccess, header.quiet, Block.quiet body]

theorem Block.quiet (block : Block) : Quiet block.tokens := by
  match block with
  | .done comments closing => simp [Block.tokens, Leaf.kind_eq, Kind.isAccess, comments.quiet]
  | .next comments statement rest =>
      simp [Block.tokens, comments.quiet, Statement.quiet statement, Block.quiet rest]

end

theorem Method.quiet (method : Method) : Quiet method.tokens := by
  have hparameter (parameter : Parameter) : Quiet parameter.tokens := by
    simp [Parameter.tokens, Leaf.kind_eq, Mark.kind_eq, Kind.isAccess]
  have hparameters : Quiet (Method.tokensOfParameters method.parameters?) := by
    cases method.parameters? with
    | none => simp [Method.tokensOfParameters]
    | some parameters => exact Separated.quiet hparameter parameters
  simp [Method.tokens, Leaf.kind_eq, Kind.isAccess, hparameters, method.body.quiet]

end Grammar

namespace Analysis

open Grammar

/-! ## The fields of a program -/

theorem fieldsIn_quiet (rest : List Token) {front : List Token} (h : Quiet front)
    (back : List Token) : fieldsIn rest (front ++ back) = fieldsIn rest back := by
  induction front with
  | nil => rfl
  | cons token front ih =>
      obtain ⟨htoken, hfront⟩ := quiet_cons.mp h
      rw [List.cons_append, fieldsIn_of_not_access htoken, ih hfront]

theorem fieldsIn_member (rest : List Token) (member : Member) (back : List Token) :
    fieldsIn rest (member.tokens ++ back) = member.fields ++ fieldsIn rest back := by
  obtain ⟨comments, access, type, name, ending⟩ := member
  have haccess : access.token.kind.isAccess := by simp [Mark.kind_eq, Kind.isAccess]
  have htype : type.token.kind.type? = some type.value := by
    rw [type.kind_eq]
    rfl
  simp only [Member.tokens, List.append_assoc, List.cons_append]
  rw [fieldsIn_quiet rest comments.quiet]
  cases ending with
  | field closing =>
      rw [fieldsIn_field haccess htype name.kind_eq (by simp [MemberRest.tokens, closing.kind_eq])]
      have hclosing : Quiet [closing.token] := by simp [Leaf.kind_eq, Kind.isAccess]
      rw [MemberRest.tokens, fieldsIn_quiet rest hclosing]
      rfl
  | method definition =>
      have hopening : (definition.tokens ++ back ++ rest).head?.map Token.kind =
          some .leftParen := by
        simp [Method.tokens, definition.opening.kind_eq]
      rw [MemberRest.tokens, fieldsIn_method htype name.kind_eq hopening,
        fieldsIn_quiet rest definition.quiet]
      rfl

/-- What holds of each part of a list holds of the list. -/
theorem fieldsIn_flatMap {Part : Type} {tokensOf : Part → List Token}
    {fieldsOf : Part → Bindings} {rest : List Token}
    (h : ∀ part back, fieldsIn rest (tokensOf part ++ back) = fieldsOf part ++ fieldsIn rest back)
    (parts : List Part) (back : List Token) :
    fieldsIn rest (parts.flatMap tokensOf ++ back) =
      parts.flatMap fieldsOf ++ fieldsIn rest back := by
  induction parts with
  | nil => rfl
  | cons part parts ih => simp [h, ih]

theorem fieldsIn_class (rest : List Token) (declaration : ClassDeclaration)
    (back : List Token) :
    fieldsIn rest (declaration.tokens ++ back) =
      declaration.members.flatMap Member.fields ++ fieldsIn rest back := by
  have hword : declaration.word.token.kind.type? = none := by
    rw [declaration.word.kind_eq]
    rfl
  have hheader : Quiet [declaration.word.token, declaration.name.token,
      declaration.opening.token] := by
    simp [Leaf.kind_eq, Kind.isAccess]
  have hclosing : Quiet [declaration.closing.token] := by simp [Leaf.kind_eq, Kind.isAccess]
  simp only [ClassDeclaration.tokens, List.append_assoc, List.cons_append]
  rw [fieldsIn_quiet rest declaration.before.quiet, fieldsIn_of_not_type hword]
  have hmembers := fieldsIn_flatMap (fieldsIn_member rest) declaration.members
    ([declaration.closing.token] ++ back)
  rw [fieldsIn_quiet rest hclosing] at hmembers
  exact (fieldsIn_quiet rest hheader _).trans hmembers

theorem fieldsIn_declaration (rest : List Token) (declaration : Declaration)
    (back : List Token) :
    fieldsIn rest (declaration.tokens ++ back) =
      declaration.members.flatMap Member.fields ++ fieldsIn rest back := by
  cases declaration with
  | ofUsing word name closing =>
      exact fieldsIn_quiet rest (by simp [Declaration.tokens, Leaf.kind_eq, Kind.isAccess]) back
  | ofNamespace word name opening classes closing =>
      have hheader : Quiet [word.token, name.token, opening.token] := by
        simp [Leaf.kind_eq, Kind.isAccess]
      have hclosing : Quiet [closing.token] := by simp [Leaf.kind_eq, Kind.isAccess]
      simp only [Declaration.tokens, Declaration.members, List.append_assoc, List.cons_append]
      have hclasses :=
        fieldsIn_flatMap (fieldsIn_class rest) classes ([closing.token] ++ back)
      rw [fieldsIn_quiet rest hclosing, ← List.flatMap_assoc] at hclasses
      exact (fieldsIn_quiet rest hheader _).trans hclasses

/-- The fields that the tokens of a program spell are those of its tree. -/
theorem fieldsIn_program (program : Program) :
    fieldsIn [] program.tokens = program.fields := by
  have hall := fieldsIn_flatMap (fieldsIn_declaration []) program.declarations []
  rw [List.append_nil] at hall
  simpa [Program.tokens, Program.fields, Program.members, List.flatMap_assoc, fieldsIn] using hall

end Analysis

end Classlet
