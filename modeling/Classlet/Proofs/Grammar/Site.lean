import Classlet.Proofs.Grammar.Typing

/-!
# Members in their places

A class in a program, apart from its members: what comes before and behind them.
Every member of a program stands in such a place.  A method declares no field, so
two neighbouring members of which one is a method can change places: the program
keeps its fields in their order, and its methods.
-/

namespace Classlet.Grammar

/-! ## Lists that fall into parts -/

/-- An element of a list that falls into parts lies in one of them. -/
theorem flatMap_eq_append_cons {Part Item : Type} {itemsOf : Part → List Item}
    {parts : List Part} {front back : List Item} {item : Item}
    (h : parts.flatMap itemsOf = front ++ item :: back) :
    ∃ (before after : List Part) (part : Part) (inner outer : List Item),
      parts = before ++ part :: after ∧ itemsOf part = inner ++ item :: outer ∧
      front = before.flatMap itemsOf ++ inner ∧ back = outer ++ after.flatMap itemsOf := by
  induction parts generalizing front with
  | nil => simp at h
  | cons part parts ih =>
      rw [List.flatMap_cons, List.append_eq_append_iff] at h
      rcases h with ⟨later, rfl, hlater⟩ | ⟨outer, hpart, hback⟩
      · obtain ⟨before, after, chosen, inner, outer, rfl, hchosen, rfl, rfl⟩ := ih hlater
        exact ⟨part :: before, after, chosen, inner, outer, rfl, hchosen, by simp, rfl⟩
      · cases outer with
        | nil =>
            have hlater : parts.flatMap itemsOf = [] ++ item :: back := hback.symm
            obtain ⟨before, after, chosen, inner, outer, rfl, hchosen, hinner, rfl⟩ :=
              ih hlater
            rw [List.append_nil] at hpart
            refine ⟨part :: before, after, chosen, inner, outer, rfl, hchosen, ?_, rfl⟩
            rw [List.flatMap_cons, List.append_assoc, ← hinner, hpart, List.append_nil]
        | cons first outer =>
            obtain ⟨rfl, rfl⟩ := List.cons.inj hback
            exact ⟨[], parts, part, front, outer, rfl, hpart, rfl, rfl⟩

/-! ## Classes in a program -/

/-- What is around the members of one class of a program. -/
structure ClassSite where
  before : List Declaration
  namespaceWord : Leaf (.word .namespaceWord)
  namespaceName : Leaf .identifier
  namespaceOpening : Leaf .leftBrace
  classesBefore : List ClassDeclaration
  comments : Comments
  access : Mark Kind.access
  word : Leaf (.word .classWord)
  name : Leaf .identifier
  opening : Leaf .leftBrace
  closing : Leaf .rightBrace
  classesAfter : List ClassDeclaration
  namespaceClosing : Leaf .rightBrace
  after : List Declaration

namespace ClassSite

variable (site : ClassSite)

def declaration (members : List Member) : ClassDeclaration :=
  ⟨site.comments, site.access, site.word, site.name, site.opening, members, site.closing⟩

def program (members : List Member) : Program :=
  ⟨site.before ++
    .ofNamespace site.namespaceWord site.namespaceName site.namespaceOpening
      (site.classesBefore ++ site.declaration members :: site.classesAfter)
      site.namespaceClosing :: site.after⟩

/-- The tokens up to and including the opening brace of the class. -/
def front : List Token :=
  site.before.flatMap Declaration.tokens ++
    site.namespaceWord.token :: site.namespaceName.token :: site.namespaceOpening.token ::
      (site.classesBefore.flatMap ClassDeclaration.tokens ++ (site.comments.tokens ++
        [site.access.token, site.word.token, site.name.token, site.opening.token]))

/-- The tokens from the closing brace of the class on. -/
def back : List Token :=
  site.closing.token :: (site.classesAfter.flatMap ClassDeclaration.tokens ++
    site.namespaceClosing.token :: site.after.flatMap Declaration.tokens)

theorem tokens_program (members : List Member) :
    (site.program members).tokens =
      site.front ++ (members.flatMap Member.tokens ++ site.back) := by
  simp [program, declaration, front, back, Program.tokens, Declaration.tokens,
    ClassDeclaration.tokens]

def membersBefore : List Member :=
  site.before.flatMap Declaration.members ++
    site.classesBefore.flatMap ClassDeclaration.members

def membersAfter : List Member :=
  site.classesAfter.flatMap ClassDeclaration.members ++
    site.after.flatMap Declaration.members

theorem members_program (members : List Member) :
    (site.program members).members = site.membersBefore ++ (members ++ site.membersAfter) := by
  simp [program, declaration, membersBefore, membersAfter, Program.members,
    Declaration.members]

/-- Every member of a program is a member of one of its classes. -/
theorem exists_program {program : Program} {front back : List Member} {member : Member}
    (h : program.members = front ++ member :: back) :
    ∃ (site : ClassSite) (inner outer : List Member),
      program = site.program (inner ++ member :: outer) ∧
      front = site.membersBefore ++ inner := by
  obtain ⟨declarations⟩ := program
  obtain ⟨before, after, declaration, inner, outer, rfl, hdeclaration, rfl, rfl⟩ :=
    flatMap_eq_append_cons h
  cases declaration with
  | ofUsing word name closing => simp [Declaration.members] at hdeclaration
  | ofNamespace word name opening classes closing =>
      obtain ⟨classesBefore, classesAfter, owner, inner, outer, rfl, howner, rfl, rfl⟩ :=
        flatMap_eq_append_cons hdeclaration
      obtain ⟨comments, access, classWord, className, classOpening, members, classClosing⟩ :=
        owner
      cases howner
      refine ⟨⟨before, word, name, opening, classesBefore, comments, access, classWord,
        className, classOpening, classClosing, classesAfter, closing, after⟩, inner, outer,
        rfl, ?_⟩
      simp [membersBefore]

end ClassSite

/-! ## Exchanging members -/

def Member.IsMethod (member : Member) : Prop :=
  ∃ method, member.rest = .method method

theorem Member.fields_of_isMethod {member : Member} (h : member.IsMethod) :
    member.fields = [] := by
  obtain ⟨method, hrest⟩ := h
  simp [fields, hrest]

section Exchange

variable {first second : Member} (hmethod : first.IsMethod ∨ second.IsMethod)
variable (site : ClassSite) (front back : List Member)

include hmethod

theorem fields_exchange :
    (site.program (front ++ second :: first :: back)).fields =
      (site.program (front ++ first :: second :: back)).fields := by
  have hpair : ∀ rest, second.fields ++ (first.fields ++ rest) =
      first.fields ++ (second.fields ++ rest) := by
    intro rest
    rcases hmethod with h | h <;> simp [Member.fields_of_isMethod h]
  simp only [Program.fields, ClassSite.members_program, List.flatMap_append,
    List.flatMap_cons, List.append_assoc, hpair]

omit hmethod in
theorem mem_methods_exchange (method : Method) :
    method ∈ (site.program (front ++ second :: first :: back)).methods ↔
      method ∈ (site.program (front ++ first :: second :: back)).methods := by
  simp only [Program.methods, ClassSite.members_program, List.flatMap_append,
    List.flatMap_cons, List.mem_append]
  grind

theorem wellTyped_exchange :
    (site.program (front ++ second :: first :: back)).WellTyped ↔
      (site.program (front ++ first :: second :: back)).WellTyped := by
  simp only [Program.WellTyped, fields_exchange hmethod, mem_methods_exchange]

end Exchange

end Classlet.Grammar
