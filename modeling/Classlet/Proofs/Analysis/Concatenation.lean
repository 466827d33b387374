import Classlet.Proofs.Analysis.Acceptance
import Classlet.Proofs.Grammar.Site

/-!
# Programs in a row

Behind a program that has been accepted, an analysis goes on with the fields of that
program bound.  A second program is accepted there if it would be accepted by itself
and shares no field with the first; otherwise its first shared field is reported.
-/

namespace Classlet

/-! ## Shared names -/

namespace Scope.Table

/-- No name is bound in both tables. -/
def Apart (first second : Table) : Prop :=
  ∀ name, first.contains name → ¬ second.contains name

theorem contains_iff (table : Table) (name : String) :
    table.contains name ↔ ∃ binding ∈ table.entries, binding.1 = name := by
  rw [contains, Option.isSome_iff_ne_none, get?, Ne, List.lookup_eq_none_iff]
  simp only [Classical.not_forall, bne_iff_ne, ne_eq, Classical.not_not, exists_prop]
  exact exists_congr fun _ => and_congr_right fun _ => eq_comm

end Scope.Table

namespace Grammar

theorem fresh_iff (known : Scope.Table) (bindings : Bindings) :
    Fresh known.entries bindings ↔ bindings.Distinct ∧ known.Apart ⟨bindings⟩ := by
  unfold Fresh Scope.Table.Apart
  simp only [Scope.Table.contains_iff]
  grind

/--
The name of the first field of a program, in the order of the text, that is bound already.
-/
def FirstShared (known : Scope.Table) (program : Program) (name : Token) : Prop :=
  ∃ (earlier later : List Member) (member : Member) (closing : Leaf .semicolon),
    program.members = earlier ++ member :: later ∧ member.rest = .field closing ∧
    member.name.token = name ∧ known.contains name.lexeme ∧
    known.Apart ⟨earlier.flatMap Member.fields⟩

theorem exists_firstShared {known : Scope.Table} {program : Program}
    (h : ¬ known.Apart ⟨program.fields⟩) : ∃ name, FirstShared known program name := by
  let shares (member : Member) : Bool :=
    member.fields.any fun binding => known.contains binding.1
  have hsome : (program.members.find? shares).isSome := by
    rw [List.find?_isSome]
    simp only [Scope.Table.Apart, Scope.Table.contains_iff ⟨program.fields⟩,
      Classical.not_forall, Classical.not_not] at h
    obtain ⟨name, hknown, binding, hbinding, rfl⟩ := h
    obtain ⟨member, hmember, hfield⟩ := List.mem_flatMap.mp hbinding
    exact ⟨member, hmember, List.any_eq_true.mpr ⟨binding, hfield, hknown⟩⟩
  obtain ⟨member, hmember⟩ := Option.isSome_iff_exists.mp hsome
  obtain ⟨hshares, earlier, later, hmembers, hearlier⟩ :=
    List.find?_eq_some_iff_append.mp hmember
  refine ⟨member.name.token, earlier, later, member, ?_⟩
  cases hrest : member.rest with
  | method definition => simp [shares, Member.fields, hrest] at hshares
  | field closing =>
      refine ⟨closing, hmembers, rfl, rfl, ?_, ?_⟩
      · simpa [shares, Member.fields, hrest] using hshares
      · intro name hknown hname
        obtain ⟨binding, hbinding, rfl⟩ := (Scope.Table.contains_iff _ name).mp hname
        obtain ⟨other, hother, hfield⟩ := List.mem_flatMap.mp hbinding
        have hnot := hearlier other hother
        simp only [shares, Bool.not_eq_true', List.any_eq_false] at hnot
        exact hnot binding hfield hknown

end Grammar

namespace Analysis

open Grammar

section Runs

variable (goals : List Goal) (scopes : Scope.Stack) (last : Position) (rest : List Token)

/-! ## Up to one member -/

theorem run_site (site : ClassSite) :
    (run (.program :: goals) scopes last (site.front ++ rest)).Answers
      (MembersValid scopes.current.entries site.membersBefore)
      (run (.members true :: .classes true :: .program :: goals)
        (scopes.extend (site.membersBefore.flatMap Member.fields))
        site.opening.token.position rest) := by
  have htake : ∀ scopes : Scope.Stack, Goal.program.take? scopes site.namespaceWord.token =
      .ok (some [.namespaceName, .expect .leftBrace, .classes true, .program]) := by
    simp [Goal.take?, site.namespaceWord.kind_eq]
  have hbefore := run_declarations goals scopes last
    (site.namespaceWord.token :: site.namespaceName.token :: site.namespaceOpening.token ::
      (site.classesBefore.flatMap ClassDeclaration.tokens ++ (site.comments.tokens ++
        site.access.token :: site.word.token :: site.name.token :: site.opening.token ::
          rest))) site.before
  rw [run_take _ (htake _)] at hbefore
  have hclasses := run_classes (.program :: goals)
    (scopes.extend ((site.before.flatMap Declaration.members).flatMap Member.fields))
    site.namespaceOpening.token.position
    (site.comments.tokens ++ site.access.token :: site.word.token :: site.name.token ::
      site.opening.token :: rest) site.classesBefore
  simp only [List.cons_append, List.nil_append, run_namespaceName, run_expect] at hbefore
  rw [Scope.Stack.entries_extend, Scope.Stack.extend_extend] at hclasses
  have hboth := (hbefore.trans fun _ => hclasses).congr (membersValid_append _ _ _).symm
  simpa [ClassSite.front, ClassSite.membersBefore, run_classes_access, Goal.word] using hboth

/-- The name of a field that is bound already is reported before anything behind it. -/
theorem run_member_duplicate {member : Member} {closing : Leaf .semicolon}
    (hfield : member.rest = .field closing) {previous : Ty}
    (hlookup : scopes.current.entries.lookup member.name.token.lexeme = some previous) :
    (run (.members true :: goals) scopes last (member.tokens ++ rest)).fault? =
      some (.duplicate member.name.token previous) := by
  obtain ⟨before, access, type, name, memberRest⟩ := member
  cases hfield
  have hfinish : (Goal.field type.value name.token).finish scopes (.token closing.token) =
      .error (.duplicate name.token previous) := by
    simp only [Goal.finish, Lookahead.kind?, closing.kind_eq, bindName_eq, hlookup]
    simp
  simp only [Member.tokens, MemberRest.tokens, List.append_assoc, List.cons_append,
    List.nil_append, run_members_access, run_memberType, run_memberName]
  exact run_skip_error rfl hfinish

end Runs

/-! ## The first shared field -/

theorem fault?_of_shared_field {program : Program} {earlier later : List Member}
    {member : Member} {closing : Leaf .semicolon}
    (hmembers : program.members = earlier ++ member :: later)
    (hfield : member.rest = .field closing) {globals : Scope.Table}
    (hearlier : MembersValid globals.entries earlier) {previous : Ty}
    (hlookup : globals.get? member.name.token.lexeme = some previous) (last : Position) :
    (run [.program] ⟨globals, []⟩ last program.tokens).fault? =
      some (.duplicate member.name.token previous) := by
  obtain ⟨site, inner, outer, rfl, rfl⟩ := ClassSite.exists_program hmembers
  have hrest : (site.program (inner ++ member :: outer)).tokens =
      site.front ++ (inner.flatMap Member.tokens ++
        (member.tokens ++ (outer.flatMap Member.tokens ++ site.back))) := by
    simp [ClassSite.tokens_program]
  have hsite := run_site [] ⟨globals, []⟩ last
    (inner.flatMap Member.tokens ++
      (member.tokens ++ (outer.flatMap Member.tokens ++ site.back))) site
  have hinner := run_members [.classes true, .program]
    ((⟨globals, []⟩ : Scope.Stack).extend (site.membersBefore.flatMap Member.fields))
    site.opening.token.position
    (member.tokens ++ (outer.flatMap Member.tokens ++ site.back)) inner
  rw [Scope.Stack.entries_extend, Scope.Stack.extend_extend] at hinner
  have hrun := (hsite.trans fun _ => hinner).1 ((membersValid_append _ _ _).mp hearlier)
  rw [hrest, hrun]
  apply run_member_duplicate _ _ _ _ hfield
  have hknown : (⟨globals, []⟩ : Scope.Stack).current.entries.lookup
      member.name.token.lexeme = some previous := hlookup
  rw [Scope.Stack.entries_extend, List.lookup_append, hknown, Option.some_or]

/-! ## Behind an accepted program -/

theorem analyze_behind {front : List Token} {globals : Scope.Table}
    (h : analyze front = .ok globals) (back : List Token) :
    analyze (front ++ back) =
      (Analyzer.program ⟨lastPlace .start front, back, ⟨globals, []⟩⟩).1 := by
  obtain ⟨program, rfl⟩ := sentence_of_verdict h
  obtain ⟨htyped, hfields⟩ := (analyze_program program globals).mp h
  have hrun := (run_declarations [] .empty .start back program.declarations).1
    ((membersValid_nil_left program).mpr htyped)
  have hscopes : Scope.Stack.empty.extend program.fields = ⟨globals, []⟩ := by
    obtain ⟨entries⟩ := globals
    simp [Scope.Stack.extend, Scope.Stack.withCurrent, Scope.Stack.current,
      Scope.Stack.empty, Scope.Table.empty, hfields]
  have hsame : run [.program] .empty .start (program.tokens ++ back) =
      run [.program] ⟨globals, []⟩ (lastPlace .start program.tokens) back := by
    rw [← hscopes]
    exact hrun
  simp only [analyze, Analyzer.program, Analyzer.ofTokens, hsame]

theorem membersValid_iff (known : Scope.Table) (program : Program) :
    MembersValid known.entries program.members ↔
      program.WellTyped ∧ known.Apart ⟨program.fields⟩ := by
  have hfresh := fresh_iff known program.fields
  unfold Program.fields at hfresh
  rw [MembersValid, hfresh, and_right_comm]
  rfl

theorem verdict_of_firstShared {known : Scope.Table} {program : Program} {name : Token}
    (htyped : program.WellTyped) (hshared : FirstShared known program name)
    (last : Position) :
    ∃ previous : Ty, known.get? name.lexeme = some previous ∧
      (Analyzer.program ⟨last, program.tokens, ⟨known, []⟩⟩).1 =
        .error (.duplicate name previous) := by
  obtain ⟨earlier, later, member, closing, hmembers, hfield, rfl, hknown, hapart⟩ := hshared
  obtain ⟨previous, hprevious⟩ := Option.isSome_iff_exists.mp hknown
  refine ⟨previous, hprevious, verdict_of_fault?_some ?_⟩
  apply fault?_of_shared_field hmembers hfield ?_ hprevious
  -- The members before are valid over the known names, since the whole program is by itself.
  have hvalid := (membersValid_nil_left program).mpr htyped
  rw [hmembers, membersValid_append, MembersValid, fresh_nil_left] at hvalid
  obtain ⟨⟨hdistinct, hmethods⟩, _⟩ := hvalid
  exact ⟨(fresh_iff known _).mpr ⟨hdistinct, hapart⟩, hmethods⟩

/--
Behind an accepted program a second text is accepted if and only if it is a program
by itself that shares no field with the first, and the fields are then joined.  If it
is a program with shared fields, the analysis ends at the name of the first of them,
with the type that it has in the first program.
-/
theorem analyze_append {front : List Token} {globals : Scope.Table}
    (h : analyze front = .ok globals) (back : List Token) :
    (∀ joined : Scope.Table, analyze (front ++ back) = .ok joined ↔
      ∃ added : Scope.Table, analyze back = .ok added ∧ globals.Apart added ∧
        joined.entries = globals.entries ++ added.entries) ∧
    ∀ added : Scope.Table, analyze back = .ok added → ¬ globals.Apart added →
      ∃ (name : Token) (previous : Ty), globals.get? name.lexeme = some previous ∧
        (∀ program : Program, program.tokens = back → FirstShared globals program name) ∧
        analyze (front ++ back) = .error (.duplicate name previous) := by
  rw [analyze_behind h back]
  constructor
  · intro joined
    constructor
    · intro hjoined
      obtain ⟨program, rfl⟩ := sentence_of_verdict hjoined
      obtain ⟨hvalid, hentries⟩ := (verdict_program program globals joined _).mp hjoined
      obtain ⟨htyped, hapart⟩ := (membersValid_iff globals program).mp hvalid
      exact ⟨⟨program.fields⟩, (analyze_program program _).mpr ⟨htyped, rfl⟩, hapart,
        hentries.symm⟩
    · rintro ⟨⟨fields⟩, hadded, hapart, hentries⟩
      obtain ⟨program, rfl⟩ := sentence_of_verdict hadded
      obtain ⟨htyped, rfl⟩ := (analyze_program program _).mp hadded
      rw [verdict_program, membersValid_iff]
      exact ⟨⟨htyped, hapart⟩, hentries.symm⟩
  · rintro ⟨fields⟩ hadded hshared
    obtain ⟨program, rfl⟩ := sentence_of_verdict hadded
    have hreported : ∀ other : Program, other.tokens = program.tokens →
        ∃ (name : Token) (previous : Ty), FirstShared globals other name ∧
          globals.get? name.lexeme = some previous ∧
          (Analyzer.program ⟨lastPlace .start front, program.tokens, ⟨globals, []⟩⟩).1 =
            .error (.duplicate name previous) := by
      intro other htokens
      rw [← htokens] at hadded ⊢
      obtain ⟨htyped, rfl⟩ := (analyze_program other _).mp hadded
      obtain ⟨name, hname⟩ := exists_firstShared hshared
      obtain ⟨previous, hprevious, hverdict⟩ :=
        verdict_of_firstShared htyped hname (lastPlace .start front)
      exact ⟨name, previous, hname, hprevious, hverdict⟩
    obtain ⟨name, previous, _, hprevious, hverdict⟩ := hreported program rfl
    refine ⟨name, previous, hprevious, fun other htokens => ?_, hverdict⟩
    -- Every tree of the same tokens has the same first shared field.
    obtain ⟨name', previous', hname', _, hverdict'⟩ := hreported other htokens
    rw [hverdict] at hverdict'
    cases hverdict'
    exact hname'

/--
A field `y` and a field `x` behind a program with a field `x`: the second `x` is reported.
-/
theorem analyze_append_behind_x :
    let access : Mark Kind.access := .blank Kind.access .privateAccess
    let site : ClassSite := ⟨[], .blank _, .blank _, .blank _, [], [], access, .blank _,
      .blank _, .blank _, .blank _, [], .blank _, []⟩
    let field (name : String) (ty : Ty) (column : Nat) : Member :=
      ⟨[], access, .blank Kind.type ty, ⟨⟨.identifier, name, ⟨1, column⟩⟩, rfl⟩,
        .field (.blank _)⟩
    let front := (site.program [field "x" .int 1]).tokens
    let back := (site.program [field "y" .bool 1, field "x" .float 9]).tokens
    let globals : Scope.Table := ⟨[("x", .int)]⟩
    let added : Scope.Table := ⟨[("y", .bool), ("x", .float)]⟩
    analyze front = .ok globals ∧ analyze back = .ok added ∧ ¬ globals.Apart added ∧
      ∃ (name : Token) (previous : Ty), globals.get? name.lexeme = some previous ∧
        (∀ program : Program, program.tokens = back → FirstShared globals program name) ∧
        analyze (front ++ back) = .error (.duplicate name previous) := by
  intro access site field front back globals added
  have hfront : analyze front = .ok globals := by rfl
  have hback : analyze back = .ok added := by rfl
  have hshared : ¬ globals.Apart added := fun h => h "x" (by decide) (by decide)
  exact ⟨hfront, hback, hshared, (analyze_append hfront back).2 added hback hshared⟩

end Analysis

end Classlet
