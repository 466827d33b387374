import Classlet.Analysis.Analyzer
import Classlet.Proofs.Expression.Operands

/-!
# How far an expression reaches

A request for an expression takes the longest phrase that stands in front of the
analyzer, and succeeds exactly if that phrase has a type.  That no phrase is longer is
a fact of the grammar alone: how many groups are open and whether an operand has just
ended decides which tokens may come next, and no type plays a part in it.
-/

namespace Classlet

namespace Grammar

open Expression (EndsBefore EndsExpression endsBefore_cons)

/-! ## Standings -/

/-- Where the tokens of an expression lead, types apart. -/
structure Standing where
  /-- The number of open groups. -/
  groups : Nat
  /-- An operand has just ended. -/
  ended : Bool

def Standing.take? (standing : Standing) (token : Token) : Option Standing :=
  match standing.ended, token.kind with
  | false, .identifier | false, .number | false, .stringLiteral =>
      some ⟨standing.groups, true⟩
  | false, .leftParen => some ⟨standing.groups + 1, false⟩
  | true, .comment _ => some ⟨standing.groups, true⟩
  | true, .binary _ => some ⟨standing.groups, false⟩
  | true, .rightParen => if standing.groups = 0 then none else some ⟨standing.groups - 1, true⟩
  | _, _ => none

def Leads (before : Standing) (tokens : List Token) (after : Standing) : Prop :=
  tokens.foldlM Standing.take? before = some after

section Leads

variable {before after middle : Standing} {token : Token} {tokens front back : List Token}

@[simp] theorem leads_nil : Leads before [] after ↔ before = after := by
  simp [Leads]

@[simp] theorem leads_cons :
    Leads before (token :: tokens) after ↔
      ∃ middle, before.take? token = some middle ∧ Leads middle tokens after := by
  simp [Leads, Option.bind_eq_some_iff]

theorem leads_append :
    Leads before (front ++ back) after ↔
      ∃ middle, Leads before front middle ∧ Leads middle back after := by
  simp [Leads, Option.bind_eq_some_iff]

theorem Leads.unique (h : Leads before tokens after)
    (hmiddle : Leads before tokens middle) :
    after = middle := by
  rw [Leads, h] at hmiddle
  exact Option.some.inj hmiddle

theorem Comments.leads (comments : Comments) (groups : Nat) :
    Leads ⟨groups, true⟩ comments.tokens ⟨groups, true⟩ := by
  induction comments with
  | nil => simp
  | cons comment comments ih => simp [Standing.take?, comment.kind_eq, ih]

/-- A phrase leads from where an operand is wanted to where one has ended. -/
theorem Phrase.leads {layer : Nat} (phrase : Phrase layer) (groups : Nat) :
    Leads ⟨groups, false⟩ phrase.tokens ⟨groups, true⟩ := by
  induction phrase generalizing groups with
  | name leaf after | number leaf after | text leaf after =>
      simp [Phrase.tokens, Standing.take?, leaf.kind_eq, after.leads groups]
  | group opening inner closing after ih =>
      have hopening : Standing.take? ⟨groups, false⟩ opening.token = some ⟨groups + 1, false⟩ := by
        simp [Standing.take?, opening.kind_eq]
      have hclosing : Standing.take? ⟨groups + 1, true⟩ closing.token = some ⟨groups, true⟩ := by
        simp [Standing.take?, closing.kind_eq]
      have hbehind : Leads ⟨groups + 1, true⟩ (closing.token :: after.tokens) ⟨groups, true⟩ :=
        leads_cons.mpr ⟨_, hclosing, after.leads groups⟩
      exact leads_cons.mpr ⟨_, hopening, leads_append.mpr ⟨_, ih (groups + 1), hbehind⟩⟩
  | lift phrase ih => exact ih groups
  | operation left sign fits right ihLeft ihRight =>
      have hsign : Standing.take? ⟨groups, true⟩ sign.token = some ⟨groups, false⟩ := by
        simp [Standing.take?, sign.kind_eq]
      have hbehind : Leads ⟨groups, true⟩ (sign.token :: right.tokens) ⟨groups, true⟩ :=
        leads_cons.mpr ⟨_, hsign, ihRight groups⟩
      exact leads_append.mpr ⟨_, ihLeft groups, hbehind⟩

end Leads

theorem not_endsExpression_of_take? {token : Token} {after : Standing}
    (h : Standing.take? ⟨0, true⟩ token = some after) : ¬ EndsExpression token := by
  rintro ⟨hcomment, hbinary⟩
  cases hkind : token.kind <;> simp_all [Standing.take?, Kind.isComment]

/-! ## The longest phrase -/

section Longest

variable {low high : Nat} {rest more : List Token}

/-- Behind the end of a phrase no other phrase goes on. -/
theorem Phrase.prefix_of_ends (phrase : Phrase low) (other : Phrase high)
    (hends : EndsBefore rest) (h : other.tokens <+: phrase.tokens ++ rest) :
    other.tokens <+: phrase.tokens := by
  rcases List.prefix_or_prefix_of_prefix h (List.prefix_append phrase.tokens rest) with
    hwithin | ⟨more, hmore⟩
  · exact hwithin
  cases more with
  | nil =>
      rw [List.append_nil] at hmore
      exact hmore ▸ List.prefix_rfl
  | cons token more =>
      exfalso
      obtain ⟨behind, rfl⟩ : token :: more <+: rest := by
        rwa [← hmore, List.prefix_append_right_inj] at h
      have hboth : Leads ⟨0, false⟩ (phrase.tokens ++ token :: more) ⟨0, true⟩ :=
        hmore ▸ other.leads 0
      obtain ⟨middle, hphrase, hmore⟩ := leads_append.mp hboth
      obtain rfl := hphrase.unique (phrase.leads 0)
      obtain ⟨after, htake, _⟩ := leads_cons.mp hmore
      exact not_endsExpression_of_take? htake (endsBefore_cons.mp hends)

theorem Phrase.rest_unique (phrase : Phrase low) (other : Phrase high)
    (hends : EndsBefore rest) (hother : EndsBefore more)
    (h : phrase.tokens ++ rest = other.tokens ++ more) : rest = more := by
  have hfront : other.tokens <+: phrase.tokens :=
    phrase.prefix_of_ends other hends (h ▸ List.prefix_append other.tokens more)
  have hback : phrase.tokens <+: other.tokens :=
    other.prefix_of_ends phrase hother (h ▸ List.prefix_append phrase.tokens rest)
  have hsame : phrase.tokens = other.tokens :=
    hback.eq_of_length (Nat.le_antisymm hback.length_le hfront.length_le)
  rw [hsame] at h
  exact List.append_cancel_left h

end Longest

end Grammar

namespace Expression

open Grammar

/-! ## What has been read -/

section Reading

variable {scopes : Scope.Stack} {state : State} {seen tokens : List Token} {ty : Ty}

theorem endsExpression_of_finish {token : Token} {ahead : Lookahead}
    (htake : state.take? scopes token = .ok none) (hfinish : state.finish ahead = .ok ty) :
    EndsExpression token := by
  cases state with
  | operand frames => cases hfinish
  | operator frames left => exact endsExpression_of_take? htake

/-- Tokens over which reading succeeds complete what was read before to a phrase. -/
theorem exists_phrase_of_read {last : Position}
    (hspells : Spells scopes.current.entries state seen)
    (h : (read scopes state last tokens).verdict = .ok ty) :
    ∃ (phrase : Expression) (used : List Token), phrase.tokens = seen ++ used ∧
      phrase.type? scopes.current.entries = some ty ∧
      tokens = used ++ (read scopes state last tokens).rest ∧
      (read scopes state last tokens).last = lastPlace last used ∧
      EndsBefore (read scopes state last tokens).rest := by
  induction tokens generalizing state seen last with
  | nil =>
      obtain ⟨phrase, htokens, htype⟩ := hspells.finish h
      exact ⟨phrase, [], by simp [htokens], htype, rfl, rfl, endsBefore_nil⟩
  | cons token rest ih =>
      cases htake : state.take? scopes token with
      | error fault =>
          simp only [read, htake] at h
          cases h
      | ok next? =>
          cases next? with
          | none =>
              simp only [read, htake] at h ⊢
              obtain ⟨phrase, htokens, htype⟩ := hspells.finish h
              have hends : EndsBefore (token :: rest) :=
                endsBefore_cons.mpr (endsExpression_of_finish htake h)
              exact ⟨phrase, [], by simp [htokens], htype, rfl, rfl, hends⟩
          | some next =>
              simp only [read, htake] at h ⊢
              obtain ⟨phrase, used, htokens, htype, hused, hlast, hends⟩ :=
                ih (hspells.take htake) h
              refine ⟨phrase, token :: used, ?_, htype, ?_, hlast, hends⟩
              · rw [htokens, List.append_assoc, List.singleton_append]
              · rw [List.cons_append, ← hused]

end Reading

end Expression

namespace Analysis

open Expression Grammar

/-! ## Requests for expressions -/

/--
In front of the analyzer stands a phrase of type `ty`, and `stopped` stands behind it,
where no token goes on with the phrase.
-/
structure Analyzer.Spans (analyzer : Analyzer) (phrase : Grammar.Expression) (ty : Ty)
    (stopped : Analyzer) : Prop where
  tokens : analyzer.rest = phrase.tokens ++ stopped.rest
  type : phrase.type? analyzer.scopes.current.entries = some ty
  ends : EndsBefore stopped.rest
  last : stopped.last = lastPlace analyzer.last phrase.tokens
  scopes : stopped.scopes = analyzer.scopes

section Spans

variable {analyzer stopped : Analyzer} {ty : Ty}

theorem Analyzer.exists_spans (h : analyzer.expression = (.ok ty, stopped)) :
    ∃ phrase, phrase.Canonical ∧ analyzer.Spans phrase ty stopped := by
  simp only [expression, Prod.mk.injEq] at h
  obtain ⟨hverdict, rfl⟩ := h
  have hstart : Spells analyzer.scopes.current.entries .start [] := .operand .nil
  obtain ⟨phrase, used, htokens, htype, hused, hlast, hends⟩ :=
    exists_phrase_of_read hstart hverdict
  obtain ⟨canonical, hcanonical, hspelled, hsame⟩ := exists_canonical phrase
  obtain rfl : canonical.tokens = used := hspelled.trans htokens
  exact ⟨canonical, hcanonical, hused, (hsame _).trans htype, hends, hlast, rfl⟩

theorem Analyzer.Spans.expression_eq {phrase : Grammar.Expression}
    (h : analyzer.Spans phrase ty stopped) : analyzer.expression = (.ok ty, stopped) := by
  obtain ⟨htokens, htype, hends, hlast, hscopes⟩ := h
  obtain ⟨canonical, hcanonical, hspelled, hsame⟩ := exists_canonical phrase
  have hdelivers := delivers_phrase analyzer.scopes canonical hcanonical [] trivial
  have hcheck : canonical.check analyzer.scopes.current.entries = .ok ty := by
    have hoption := canonical.toOption_check analyzer.scopes.current.entries
    rw [hsame, htype] at hoption
    cases hresult : canonical.check analyzer.scopes.current.entries with
    | error fault => simp [hresult, Except.toOption] at hoption
    | ok whole => simpa [hresult, Except.toOption] using hoption
  have hread := (read_of_delivers hdelivers hends analyzer.last).1 ty hcheck
  rw [hspelled, ← htokens, ← hlast] at hread
  rw [expression, hread, ← hscopes]

end Spans

/--
A request for an expression succeeds exactly in front of a well-typed phrase behind
which nothing goes on with it, and stops there.  No phrase that begins at the same place
is longer, typed or not, and none ends elsewhere in front of such a token; nothing is
left to be joined in the outermost layer of the grammar.
-/
theorem expression_spans_longest :
    (∀ (analyzer stopped : Analyzer) (ty : Ty), analyzer.expression = (.ok ty, stopped) ↔
      ∃ phrase, analyzer.Spans phrase ty stopped) ∧
    ∀ {analyzer stopped : Analyzer} {ty : Ty}, analyzer.expression = (.ok ty, stopped) →
      ∃ phrase, phrase.Canonical ∧ analyzer.Spans phrase ty stopped ∧
        ∀ other : Grammar.Expression,
          (other.tokens <+: analyzer.rest → other.tokens <+: phrase.tokens) ∧
          ∀ rest, analyzer.rest = other.tokens ++ rest → EndsBefore rest →
            rest = stopped.rest := by
  refine ⟨fun analyzer stopped ty => ⟨fun h => ?_, ?_⟩, fun h => ?_⟩
  · obtain ⟨phrase, _, hspans⟩ := Analyzer.exists_spans h
    exact ⟨phrase, hspans⟩
  · rintro ⟨phrase, hspans⟩
    exact hspans.expression_eq
  · obtain ⟨phrase, hcanonical, hspans⟩ := Analyzer.exists_spans h
    refine ⟨phrase, hcanonical, hspans, fun other => ⟨fun hother => ?_, fun rest hrest hends => ?_⟩⟩
    · exact phrase.prefix_of_ends other hspans.ends (hspans.tokens ▸ hother)
    · exact other.rest_unique phrase hends hspans.ends (hrest ▸ hspans.tokens)

/-- In `a && a || a /**/;` the comment belongs to the phrase, and no operator is left. -/
theorem expression_spans_longest_logical :
    let name : Token := ⟨.identifier, "a", ⟨1, 1⟩⟩
    let both : Token := ⟨.binary .and, "&&", ⟨1, 3⟩⟩
    let either : Token := ⟨.binary .or, "||", ⟨1, 8⟩⟩
    let comment : Token := ⟨.comment .block, "/**/", ⟨1, 13⟩⟩
    let semicolon : Token := ⟨.semicolon, ";", ⟨1, 17⟩⟩
    let scopes : Scope.Stack := ⟨.empty, [⟨[("a", .bool)]⟩]⟩
    let before : Analyzer :=
      ⟨.start, [name, both, name, either, name, comment, semicolon], scopes⟩
    let after : Analyzer := ⟨⟨1, 13⟩, [semicolon], scopes⟩
    before.expression = (.ok .bool, after) ∧
      ∃ phrase, phrase.Canonical ∧ before.Spans phrase .bool after ∧
        ∀ other : Grammar.Expression,
          (other.tokens <+: before.rest → other.tokens <+: phrase.tokens) ∧
          ∀ rest, before.rest = other.tokens ++ rest → EndsBefore rest → rest = after.rest := by
  intro name both either comment semicolon scopes before after
  have hexpression : before.expression = (.ok .bool, after) := by rfl
  exact ⟨hexpression, expression_spans_longest.2 hexpression⟩

end Analysis

end Classlet
