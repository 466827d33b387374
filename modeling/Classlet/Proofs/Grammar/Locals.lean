import Classlet.Proofs.Grammar.Typing

/-!
# Declared names among tokens

Which names the tokens of a method declare, told from the tokens alone, without a
tree.  A name is declared where a type stands before it, but not in the header of a
`foreach` loop, and behind a comma in a list that a type began.  All lists of tokens
here are read backwards: the token read last comes first.
-/

namespace Classlet

/-- The kinds that begin, continue or end a declaration, and stand in no expression. -/
def Kind.separates : Kind → Bool
  | type _ | comma | semicolon | leftBrace | rightBrace => true
  | _ => false

namespace Grammar

/-! ## Declarations -/

/-- The type that began the list of variables, if the tokens end inside of one. -/
def listType? : List Token → Option Ty
  | [] => none
  | token :: before =>
      match token.kind with
      | .type ty => some ty
      | .semicolon | .leftBrace | .rightBrace => none
      | _ => listType? before

def beginsForeach : List Token → Bool
  | opening :: word :: _ => opening.kind = .leftParen && word.kind = .word .foreachWord
  | _ => false

/--
The type with which a name would be declared next; `none` where no declaration goes on.
-/
def declared? : List Token → Option Ty
  | [] => none
  | token :: before =>
      match token.kind with
      | .type ty => if beginsForeach before then none else some ty
      | .comma => listType? before
      | _ => none

/-- What a token declares behind the tokens `before` it. -/
def binding? (token : Token) (before : List Token) : Option (String × Ty) :=
  if token.kind = .identifier then (declared? before).map fun ty => (token.lexeme, ty) else none

/-- The parameters, variables and counters that the tokens of a method declare, in order. -/
def localsOf : List Token → Bindings
  | [] => []
  | token :: before => localsOf before ++ (binding? token before).toList

section Tokens

variable {token : Token} {before inner : List Token} {ty : Ty}

theorem listType?_of_inner (h : token.kind.separates = false) :
    listType? (token :: before) = listType? before := by
  cases hkind : token.kind <;> simp_all [listType?, Kind.separates]

theorem declared?_of_inner (h : token.kind.separates = false) :
    declared? (token :: before) = none := by
  cases hkind : token.kind <;> simp_all [declared?, Kind.separates]

theorem localsOf_cons_of_not_declared (h : declared? before = none) :
    localsOf (token :: before) = localsOf before := by
  simp [localsOf, binding?, h]

theorem localsOf_cons_of_not_name (h : token.kind ≠ .identifier) :
    localsOf (token :: before) = localsOf before := by
  simp [localsOf, binding?, h]

theorem localsOf_name (name : Leaf .identifier) (h : declared? before = some ty) :
    localsOf (name.token :: before) = localsOf before ++ [(name.token.lexeme, ty)] := by
  simp [localsOf, binding?, h, name.kind_eq]

theorem beginsForeach_of_ne (h : token.kind ≠ .leftParen) :
    beginsForeach (token :: before) = false := by
  cases before <;> simp [beginsForeach, h]

theorem declared?_type (type : Mark Kind.type) (h : beginsForeach before = false) :
    declared? (type.token :: before) = some type.value := by
  simp [declared?, type.kind_eq, h]

@[simp] theorem listType?_type (type : Mark Kind.type) (before : List Token) :
    listType? (type.token :: before) = some type.value := by
  simp [listType?, type.kind_eq]

@[simp] theorem declared?_comma (comma : Leaf .comma) (before : List Token) :
    declared? (comma.token :: before) = listType? before := by
  simp [declared?, comma.kind_eq]

@[simp] theorem listType?_comma (comma : Leaf .comma) (before : List Token) :
    listType? (comma.token :: before) = listType? before := by
  simp [listType?, comma.kind_eq]

/-- Tokens of an expression declare nothing and leave the list that they stand in open. -/
structure Inert (before after : List Token) : Prop where
  locals : localsOf after = localsOf before
  list : listType? after = listType? before
  declared : declared? after = none

theorem Inert.refl (h : declared? before = none) : Inert before before :=
  ⟨rfl, rfl, h⟩

theorem Inert.trans {middle after : List Token} (hfirst : Inert before middle)
    (hsecond : Inert middle after) : Inert before after :=
  ⟨hsecond.locals.trans hfirst.locals, hsecond.list.trans hfirst.list, hsecond.declared⟩

/-- Outside of a list of variables, commas are inert as well. -/
theorem inert_append (hinner : ∀ token ∈ inner, token.kind.separates = false ∨
      token.kind = .comma ∧ listType? before = none)
    (hbefore : declared? before = none) : Inert before (inner ++ before) := by
  induction inner with
  | nil => exact .refl hbefore
  | cons token inner ih =>
      obtain ⟨htoken, hinner⟩ := List.forall_mem_cons.mp hinner
      obtain ⟨hlocals, hlist, hdeclared⟩ := ih hinner
      have hsame : localsOf (token :: (inner ++ before)) = localsOf before := by
        rw [localsOf_cons_of_not_declared hdeclared, hlocals]
      rcases htoken with htoken | ⟨hcomma, hnone⟩
      · refine ⟨hsame, ?_, declared?_of_inner htoken⟩
        rw [List.cons_append, listType?_of_inner htoken, hlist]
      · let comma : Leaf .comma := ⟨token, hcomma⟩
        refine ⟨hsame, (listType?_comma comma _).trans hlist, ?_⟩
        exact (declared?_comma comma _).trans (hlist.trans hnone)

end Tokens

/-! ## Expressions -/

theorem Comments.inner (comments : Comments) :
    ∀ token ∈ comments.tokens, token.kind.separates = false := by
  intro token htoken
  obtain ⟨comment, _, rfl⟩ := List.mem_map.mp htoken
  rw [comment.kind_eq]
  rfl

theorem Leaf.inner {kind : Kind} (leaf : Leaf kind) (h : kind.separates = false) :
    leaf.token.kind.separates = false := by
  rw [leaf.kind_eq, h]

theorem Phrase.inner {layer : Nat} (phrase : Phrase layer) :
    ∀ token ∈ phrase.tokens, token.kind.separates = false := by
  induction phrase with
  | name leaf after | number leaf after | text leaf after =>
      exact List.forall_mem_cons.mpr ⟨leaf.inner rfl, after.inner⟩
  | group opening inner closing after ih =>
      refine List.forall_mem_cons.mpr ⟨opening.inner rfl, ?_⟩
      refine List.forall_mem_append.mpr ⟨ih, ?_⟩
      exact List.forall_mem_cons.mpr ⟨closing.inner rfl, after.inner⟩
  | lift phrase ih => exact ih
  | operation left sign fits right ihLeft ihRight =>
      refine List.forall_mem_append.mpr ⟨ihLeft, List.forall_mem_cons.mpr ⟨?_, ihRight⟩⟩
      rw [sign.kind_eq]
      rfl

theorem Condition.inner (condition : Condition) :
    ∀ token ∈ condition.tokens, token.kind.separates = false := by
  refine List.forall_mem_cons.mpr ⟨condition.opening.inner rfl, ?_⟩
  refine List.forall_mem_append.mpr ⟨condition.value.inner, ?_⟩
  exact List.forall_mem_singleton.mpr (condition.closing.inner rfl)

theorem Declarator.inner_initial (initial? : Option (Leaf .assign × Expression)) :
    ∀ token ∈ tokensOfInitial initial?, token.kind.separates = false := by
  cases initial? with
  | none => simp [tokensOfInitial]
  | some initial =>
      exact List.forall_mem_cons.mpr ⟨initial.1.inner rfl, initial.2.inner⟩

theorem Assignment.inner (assignment : Assignment) :
    ∀ token ∈ assignment.tokens, token.kind.separates = false := by
  refine List.forall_mem_cons.mpr ⟨assignment.target.inner rfl, ?_⟩
  exact List.forall_mem_cons.mpr ⟨assignment.sign.inner rfl, assignment.value.inner⟩

section Inert

variable {before inner : List Token}

/-- What is read behind `before`, in the order of the text, is inert. -/
theorem inert_read (hinner : ∀ token ∈ inner, token.kind.separates = false)
    (hbefore : declared? before = none) : Inert before (inner.reverse ++ before) :=
  inert_append (fun token htoken => .inl (hinner token (List.mem_reverse.mp htoken))) hbefore

/-! ## Places of statements -/

/-- A statement may begin here. -/
structure Starts (before : List Token) : Prop where
  list : listType? before = none
  declared : declared? before = none
  foreach : beginsForeach before = false

theorem starts_of_stop {token : Token}
    (h : token.kind = .semicolon ∨ token.kind = .leftBrace ∨ token.kind = .rightBrace) :
    Starts (token :: before) := by
  rcases h with h | h | h <;>
    exact ⟨by simp [listType?, h], by simp [declared?, h], beginsForeach_of_ne (by simp [h])⟩

theorem Starts.comments (h : Starts before) (comments : Comments) :
    Inert before (comments.tokens.reverse ++ before) ∧
      Starts (comments.tokens.reverse ++ before) := by
  have hinert := inert_read comments.inner h.declared
  refine ⟨hinert, hinert.list.trans h.list, hinert.declared, ?_⟩
  cases hread : comments.tokens.reverse with
  | nil => exact h.foreach
  | cons token tokens =>
      have hmem : token ∈ comments.tokens := by
        rw [← List.mem_reverse, hread]
        simp
      obtain ⟨comment, _, rfl⟩ := List.mem_map.mp hmem
      exact beginsForeach_of_ne (by rw [comment.kind_eq]; simp)

end Inert

/-! ## Trees -/

/-- From one place for a statement to the next, the tokens declare the names. -/
structure Adds (before after : List Token) (bindings : Bindings) : Prop where
  locals : localsOf after = localsOf before ++ bindings
  starts : Starts after

section Trees

variable {before middle after : List Token} {ty : Ty}

theorem Adds.trans {front back : Bindings} (hfirst : Adds before middle front)
    (hsecond : Adds middle after back) : Adds before after (front ++ back) :=
  ⟨by rw [hsecond.locals, hfirst.locals, List.append_assoc], hsecond.starts⟩

/-- Tokens that declare nothing, and one that ends what they began. -/
theorem Inert.stop (h : Inert before middle) {token : Token}
    (hstop : token.kind = .semicolon ∨ token.kind = .leftBrace ∨ token.kind = .rightBrace) :
    Adds before (token :: middle) [] :=
  ⟨by rw [localsOf_cons_of_not_declared h.declared, h.locals, List.append_nil],
    starts_of_stop hstop⟩

theorem localsOf_declarator (declarator : Declarator)
    (hdeclared : declared? before = some ty)
    (hlist : listType? before = some ty) :
    localsOf (declarator.tokens.reverse ++ before) =
        localsOf before ++ [declarator.binding ty] ∧
      listType? (declarator.tokens.reverse ++ before) = some ty ∧
      declared? (declarator.tokens.reverse ++ before) = none := by
  have hname : declarator.name.token.kind.separates = false := declarator.name.inner rfl
  have hinitial := inert_read (Declarator.inner_initial declarator.initial?)
    (declared?_of_inner hname : declared? (declarator.name.token :: before) = none)
  have htokens : declarator.tokens.reverse ++ before =
      (Declarator.tokensOfInitial declarator.initial?).reverse ++
        declarator.name.token :: before := by
    simp [Declarator.tokens]
  rw [htokens]
  refine ⟨?_, ?_, hinitial.declared⟩
  · rw [hinitial.locals, localsOf_name declarator.name hdeclared]
    rfl
  · rw [hinitial.list, listType?_of_inner hname, hlist]

theorem localsOf_declarators (first : Declarator) (more : List (Leaf .comma × Declarator))
    (hdeclared : declared? before = some ty) (hlist : listType? before = some ty) :
    localsOf (((Separated.mk first more).tokens Declarator.tokens).reverse ++ before) =
      localsOf before ++ (Separated.mk first more).toList.map (Declarator.binding ty) ∧
    declared? (((Separated.mk first more).tokens Declarator.tokens).reverse ++ before) = none := by
  induction more generalizing first before with
  | nil =>
      have hfirst := localsOf_declarator first hdeclared hlist
      simpa [Separated.tokens, Separated.tokensOfMore, Separated.toList] using
        ⟨hfirst.1, hfirst.2.2⟩
  | cons next more ih =>
      obtain ⟨comma, second⟩ := next
      obtain ⟨hlocals, hopen, hended⟩ := localsOf_declarator first hdeclared hlist
      have hcomma : declared? (comma.token :: (first.tokens.reverse ++ before)) = some ty := by
        rw [declared?_comma, hopen]
      have hmore := ih second hcomma (by rw [listType?_comma, hopen])
      rw [localsOf_cons_of_not_declared hended, hlocals] at hmore
      simpa [Separated.tokens, Separated.tokensOfMore, Separated.toList] using hmore

theorem inert_assignments (parts : Separated Assignment) (h : Starts before) :
    Inert before ((parts.tokens Assignment.tokens).reverse ++ before) := by
  refine inert_append (fun token htoken => ?_) h.declared
  rw [List.mem_reverse] at htoken
  rcases List.mem_append.mp htoken with hfirst | hmore
  · exact .inl (parts.first.inner token hfirst)
  · obtain ⟨⟨comma, assignment⟩, _, hpart⟩ := List.mem_flatMap.mp hmore
    rcases List.mem_cons.mp hpart with rfl | hpart
    · exact .inr ⟨comma.kind_eq, h.list⟩
    · exact .inl (assignment.inner token hpart)

/-- A name that the tokens in front of it declare. -/
theorem localsOf_typed (type : Mark Kind.type) (name : Leaf .identifier)
    (h : beginsForeach before = false) :
    localsOf (name.token :: type.token :: before) =
      localsOf before ++ [(name.token.lexeme, type.value)] := by
  have htype : type.token.kind ≠ .identifier := by
    rw [type.kind_eq]
    simp
  rw [localsOf_name name (declared?_type type h), localsOf_cons_of_not_name htype]

/-- Tokens in which names are used and, behind a semicolon, still not declared. -/
theorem localsOf_used {inner : List Token}
    (hinner : ∀ token ∈ inner, token.kind.separates = false ∨ token.kind = .semicolon)
    (hbefore : declared? before = none) :
    localsOf (inner.reverse ++ before) = localsOf before ∧
      declared? (inner.reverse ++ before) = none := by
  induction inner generalizing before with
  | nil => exact ⟨rfl, hbefore⟩
  | cons token inner ih =>
      obtain ⟨htoken, hinner⟩ := List.forall_mem_cons.mp hinner
      have hnone : declared? (token :: before) = none := by
        rcases htoken with htoken | hstop
        · exact declared?_of_inner htoken
        · exact (starts_of_stop (.inl hstop)).declared
      obtain ⟨hlocals, hdeclared⟩ := ih hinner hnone
      rw [localsOf_cons_of_not_declared hbefore] at hlocals
      simpa using ⟨hlocals, hdeclared⟩

theorem adds_inner {inner : List Token} (h : Starts before)
    (hinner : ∀ token ∈ inner, token.kind.separates = false) {token : Token}
    (hstop : token.kind = .semicolon ∨ token.kind = .leftBrace ∨ token.kind = .rightBrace) :
    Adds before (token :: (inner.reverse ++ before)) [] :=
  (inert_read hinner h.declared).stop hstop

theorem adds_forHeader (header : ForHeader) (h : Starts before)
    (opening : Leaf .leftBrace) :
    Adds before (opening.token :: (header.tokens.reverse ++ before)) [header.binding] := by
  let front : List Token := header.opening.token :: header.word.token :: before
  let used : List Token := header.sign.token :: (header.initial.tokens ++
    header.afterInitial.token :: (header.condition.tokens ++ [header.afterCondition.token,
      header.counter.token, header.step.token, header.amount.token, header.closing.token]))
  have hused : ∀ token ∈ used, token.kind.separates = false ∨ token.kind = .semicolon := by
    simp only [used, List.forall_mem_cons, List.forall_mem_append]
    refine ⟨.inl (header.sign.inner rfl), fun token h => .inl (header.initial.inner token h),
      .inr header.afterInitial.kind_eq, fun token h => .inl (header.condition.inner token h),
      .inr header.afterCondition.kind_eq, .inl (header.counter.inner rfl), .inl ?_,
      .inl (header.amount.inner rfl), .inl (header.closing.inner rfl), by simp⟩
    rw [header.step.kind_eq]
    rfl
  have hfor : beginsForeach front = false := by
    simp [front, beginsForeach, header.word.kind_eq]
  have hfront : localsOf front = localsOf before := by
    have hopening : header.opening.token.kind ≠ .identifier := by
      simp [header.opening.kind_eq]
    rw [localsOf_cons_of_not_name hopening, localsOf_cons_of_not_declared h.declared]
  obtain ⟨hlocals, hdeclared⟩ := localsOf_used hused
    (declared?_of_inner (header.name.inner rfl) :
      declared? (header.name.token :: header.type.token :: front) = none)
  rw [localsOf_typed header.type header.name hfor, hfront] at hlocals
  have htokens : header.tokens.reverse ++ before =
      used.reverse ++ header.name.token :: header.type.token :: front := by
    simp [ForHeader.tokens, used, front]
  rw [htokens]
  refine ⟨?_, starts_of_stop (.inr (.inl opening.kind_eq))⟩
  rw [localsOf_cons_of_not_declared hdeclared, hlocals]
  rfl

theorem adds_foreachHeader (header : ForeachHeader) (h : Starts before)
    (opening : Leaf .leftBrace) :
    Adds before (opening.token :: (header.tokens.reverse ++ before)) [] := by
  let front : List Token :=
    header.type.token :: header.opening.token :: header.word.token :: before
  let used : List Token := header.name.token :: header.inside.token ::
    (header.collection.tokens ++ [header.closing.token])
  have hused : ∀ token ∈ used, token.kind.separates = false := by
    simp only [used, List.forall_mem_cons, List.forall_mem_append]
    exact ⟨header.name.inner rfl, header.inside.inner rfl, header.collection.inner,
      header.closing.inner rfl, by simp⟩
  -- The type stands in a `foreach` header, so the name behind it is not declared.
  have hdeclared : declared? front = none := by
    simp [front, declared?, header.type.kind_eq, beginsForeach, header.opening.kind_eq,
      header.word.kind_eq]
  have hfront : localsOf front = localsOf before := by
    have htype : header.type.token.kind ≠ .identifier := by simp [header.type.kind_eq]
    have hopening : header.opening.token.kind ≠ .identifier := by
      simp [header.opening.kind_eq]
    rw [localsOf_cons_of_not_name htype, localsOf_cons_of_not_name hopening,
      localsOf_cons_of_not_declared h.declared]
  have hinert := inert_read hused hdeclared
  have htokens : header.tokens.reverse ++ before = used.reverse ++ front := by
    simp [ForeachHeader.tokens, used, front]
  rw [htokens]
  refine ⟨?_, starts_of_stop (.inr (.inl opening.kind_eq))⟩
  rw [localsOf_cons_of_not_declared hinert.declared, hinert.locals, hfront, List.append_nil]

/-- A condition behind a word, up to the brace of a body or to a semicolon. -/
theorem adds_condition {word : Word} (leaf : Leaf (.word word)) (condition : Condition)
    (h : Starts before) {token : Token}
    (hstop : token.kind = .semicolon ∨ token.kind = .leftBrace ∨ token.kind = .rightBrace) :
    Adds before (token :: ((leaf.token :: condition.tokens).reverse ++ before)) [] :=
  adds_inner h (List.forall_mem_cons.mpr ⟨leaf.inner rfl, condition.inner⟩) hstop

/-- A single word, and the brace of a body behind it. -/
theorem adds_word {word : Word} (leaf : Leaf (.word word)) (opening : Leaf .leftBrace)
    (h : Starts before) : Adds before (opening.token :: leaf.token :: before) [] :=
  adds_inner h (List.forall_mem_singleton.mpr (leaf.inner rfl)) (.inr (.inl opening.kind_eq))

mutual

theorem adds_statement (statement : Statement) {before : List Token} (h : Starts before) :
    Adds before (statement.tokens.reverse ++ before) statement.locals := by
  match statement with
  | .variables type parts closing =>
      obtain ⟨hlocals, hended⟩ := localsOf_declarators parts.first parts.more
        (declared?_type type h.foreach) (listType?_type type before)
      have htype : type.token.kind ≠ .identifier := by
        rw [type.kind_eq]
        simp
      rw [localsOf_cons_of_not_name htype] at hlocals
      have htokens : (Statement.variables type parts closing).tokens.reverse ++ before =
          closing.token :: ((parts.tokens Declarator.tokens).reverse ++ type.token :: before) := by
        simp [Statement.tokens]
      rw [htokens]
      refine ⟨?_, starts_of_stop (.inl closing.kind_eq)⟩
      rw [localsOf_cons_of_not_declared hended, hlocals, Statement.locals]
  | .assignments parts closing =>
      have hadds := (inert_assignments parts h).stop (.inl closing.kind_eq)
      simpa [Statement.tokens, Statement.locals] using hadds
  | .conditional word condition opening body =>
      have hheader := adds_condition word condition h (.inr (.inl opening.kind_eq))
      have hboth := hheader.trans (adds_block body hheader.starts)
      simpa [Statement.tokens, Statement.locals] using hboth
  | .alternative word condition opening body otherwise opening' other =>
      have hheader := adds_condition word condition h (.inr (.inl opening.kind_eq))
      have hbody := hheader.trans (adds_block body hheader.starts)
      have hword := hbody.trans (adds_word otherwise opening' hbody.starts)
      have hall := hword.trans (adds_block other hword.starts)
      simpa [Statement.tokens, Statement.locals] using hall
  | .whileLoop word condition opening body =>
      have hheader := adds_condition word condition h (.inr (.inl opening.kind_eq))
      have hboth := hheader.trans (adds_block body hheader.starts)
      simpa [Statement.tokens, Statement.locals] using hboth
  | .forLoop header opening body =>
      have hheader := adds_forHeader header h opening
      have hboth := hheader.trans (adds_block body hheader.starts)
      simpa [Statement.tokens, Statement.locals] using hboth
  | .doLoop word opening body word' condition closing =>
      have hword := adds_word word opening h
      have hbody := hword.trans (adds_block body hword.starts)
      have hall :=
        hbody.trans (adds_condition word' condition hbody.starts (.inl closing.kind_eq))
      simpa [Statement.tokens, Statement.locals] using hall
  | .foreachLoop header opening body =>
      have hheader := adds_foreachHeader header h opening
      have hboth := hheader.trans (adds_block body hheader.starts)
      simpa [Statement.tokens, Statement.locals] using hboth

theorem adds_block (block : Block) {before : List Token} (h : Starts before) :
    Adds before (block.tokens.reverse ++ before) block.locals := by
  match block with
  | .done comments closing =>
      have hadds := (h.comments comments).1.stop (.inr (.inr closing.kind_eq))
      simpa [Block.tokens, Block.locals] using hadds
  | .next comments statement rest =>
      obtain ⟨hinert, hstarts⟩ := h.comments comments
      have hstatement := adds_statement statement hstarts
      have hrest := adds_block rest hstatement.starts
      have hboth := hstatement.trans hrest
      refine ⟨?_, ?_⟩
      · simpa [Block.tokens, Block.locals, hinert.locals] using hboth.locals
      · simpa [Block.tokens] using hboth.starts

end

theorem localsOf_moreParameters (more : List (Leaf .comma × Parameter))
    (before : List Token) :
    localsOf ((Separated.tokensOfMore Parameter.tokens more).reverse ++ before) =
      localsOf before ++ (more.map Prod.snd).map Parameter.binding := by
  induction more generalizing before with
  | nil => simp [Separated.tokensOfMore]
  | cons next more ih =>
      obtain ⟨comma, parameter⟩ := next
      have hcomma : comma.token.kind ≠ .identifier := by simp [comma.kind_eq]
      have hforeach : beginsForeach (comma.token :: before) = false :=
        beginsForeach_of_ne (by simp [comma.kind_eq])
      have htyped := localsOf_typed parameter.type parameter.name hforeach
      rw [localsOf_cons_of_not_name hcomma] at htyped
      have hmore :=
        ih (parameter.name.token :: parameter.type.token :: comma.token :: before)
      rw [htyped] at hmore
      simpa [Separated.tokensOfMore, Parameter.tokens, Parameter.binding] using hmore

theorem localsOf_parameters (parameters? : Option (Separated Parameter)) :
    localsOf (Method.tokensOfParameters parameters?).reverse = Method.bindings parameters? := by
  cases parameters? with
  | none => rfl
  | some parameters =>
      obtain ⟨first, more⟩ := parameters
      have hfirst := localsOf_typed first.type first.name (rfl : beginsForeach [] = false)
      have hmore := localsOf_moreParameters more [first.name.token, first.type.token]
      rw [hfirst] at hmore
      simpa [Method.tokensOfParameters, Separated.tokens, Parameter.tokens, Method.bindings,
        Separated.toList, Parameter.binding, localsOf] using hmore

/-- What the tokens of a method declare are the parameters and the locals of its tree. -/
theorem localsOf_method (method : Method) :
    localsOf method.tokens.tail.reverse = method.parameters ++ method.body.locals := by
  obtain ⟨opening, parameters?, closing, brace, body⟩ := method
  have hclosing : closing.token.kind ≠ .identifier := by simp [closing.kind_eq]
  have hbrace : brace.token.kind ≠ .identifier := by simp [brace.kind_eq]
  have hbody := adds_block body (starts_of_stop (.inr (.inl brace.kind_eq)) :
    Starts (brace.token :: closing.token :: (Method.tokensOfParameters parameters?).reverse))
  have hlocals := hbody.locals
  rw [localsOf_cons_of_not_name hbrace, localsOf_cons_of_not_name hclosing,
    localsOf_parameters] at hlocals
  simpa [Method.tokens, Method.parameters] using hlocals

end Trees

end Grammar

end Classlet
