import Classlet.Scope.Table
import Mathlib.Data.Finmap

/-!
# Tables in two parts

A table can be kept in two parts: an index, in which a name is found at once, and the
names in the order of their declaration.  Both parts say which names there are, so
they have to stay in step.  They do, however tables are added to and copied, and then
such tables answer as lists of bindings do.
-/

namespace Classlet.Scope

/-! ## Histories -/

section Histories

variable {Operation State Other Answer : Type}

/-- Perform operations in turn: what each of them answers, and the state they lead to. -/
def performAll (perform : Operation → State → Answer × State) :
    List Operation → State → List Answer × State
  | [], state => ([], state)
  | operation :: more, state =>
      let performed := perform operation state
      let others := performAll perform more performed.2
      (performed.1 :: others.1, others.2)

theorem performAll_append (perform : Operation → State → Answer × State)
    (operations more : List Operation) (state : State) :
    performAll perform (operations ++ more) state =
      let performed := performAll perform operations state
      let others := performAll perform more performed.2
      (performed.1 ++ others.1, others.2) := by
  induction operations generalizing state with
  | nil => rfl
  | cons operation operations ih => simp [performAll, ih]

/-- If single operations answer alike and keep states related, so do histories. -/
theorem performAll_related {related : State → Other → Prop}
    {perform : Operation → State → Answer × State} {imitate : Operation → Other → Answer × Other}
    (hstep : ∀ operation state other, related state other →
      (perform operation state).1 = (imitate operation other).1 ∧
        related (perform operation state).2 (imitate operation other).2)
    (operations : List Operation) {state : State} {other : Other} (h : related state other) :
    (performAll perform operations state).1 = (performAll imitate operations other).1 ∧
      related (performAll perform operations state).2 (performAll imitate operations other).2 := by
  induction operations generalizing state other with
  | nil => exact ⟨rfl, h⟩
  | cons operation more ih =>
      obtain ⟨hanswer, hafter⟩ := hstep operation state other h
      obtain ⟨hanswers, hfinal⟩ := ih hafter
      exact ⟨congrArg₂ List.cons hanswer hanswers, hfinal⟩

end Histories

/-- What is done to tables, which are told apart by numbers. -/
inductive Act where
  | add (place : Nat) (name : String) (ty : Ty)
  | copy (source target : Nat)
  deriving DecidableEq, Repr

/-- What an act answers, and the tables after it; `add` is how one table is added to. -/
def act {Kept : Type} (add : Kept → String → Ty → Except Ty Unit × Kept) :
    Act → (Nat → Kept) → Except Ty Unit × (Nat → Kept)
  | .add place name ty, tables =>
      let added := add (tables place) name ty
      (added.1, Function.update tables place added.2)
  | .copy source target, tables => (.ok (), Function.update tables target (tables source))

/-! ## Lists of bindings -/

namespace Table

variable {table : Table} {name : String} {ty : Ty}

/-- What adding a binding answers, and the table after it. -/
def put (table : Table) (name : String) (ty : Ty) : Except Ty Unit × Table :=
  match table.add name ty with
  | .ok extended => (.ok (), extended)
  | .error previous => (.error previous, table)

/-- The tables that some acts make of empty ones, and the answers on the way. -/
def history (acts : List Act) : List (Except Ty Unit) × (Nat → Table) :=
  performAll (act put) acts fun _ => empty

theorem get?_eq_none_iff : table.get? name = none ↔ name ∉ table.entries.map Prod.fst := by
  rw [get?, List.lookup_eq_none_iff, List.mem_map]
  constructor
  · rintro h ⟨binding, hbinding, rfl⟩
    simpa using h binding hbinding
  · intro h binding hbinding
    exact bne_iff_ne.mpr fun hname => h ⟨binding, hbinding, hname.symm⟩

theorem get?_append (hnew : table.get? name = none) (ty : Ty) (other : String) :
    (Table.mk (table.entries ++ [(name, ty)])).get? other =
      if other = name then some ty else table.get? other := by
  unfold get? at hnew ⊢
  rw [List.lookup_append]
  by_cases hsame : other = name
  · simp [hsame, hnew]
  · have hother : (other == name) = false := beq_false_of_ne hsame
    simp [List.lookup_cons, hother, hsame]

theorem get?_eq_some_iff (hdistinct : (table.entries.map Prod.fst).Nodup) :
    table.get? name = some ty ↔ (name, ty) ∈ table.entries := by
  constructor
  · intro h
    obtain ⟨front, back, hentries, _⟩ := List.lookup_eq_some_iff.mp h
    simp [hentries]
  · intro h
    obtain ⟨front, back, hentries⟩ := List.append_of_mem h
    refine List.lookup_eq_some_iff.mpr ⟨front, back, hentries, fun other hother => ?_⟩
    rw [hentries, List.map_append, List.nodup_append] at hdistinct
    have hne : other.1 ≠ name :=
      hdistinct.2.2 other.1 (List.mem_map_of_mem hother) name (by simp)
    exact bne_iff_ne.mpr hne.symm

end Table

/-! ## Two parts -/

/-- The types by name, and the names in the order of their declaration. -/
structure Indexed where
  types : Finmap fun _ : String => Ty
  order : List String
  deriving DecidableEq

namespace Indexed

def empty : Indexed := ⟨∅, []⟩

def get? (table : Indexed) (name : String) : Option Ty :=
  table.types.lookup name

def contains (table : Indexed) (name : String) : Bool :=
  name ∈ table.types

def size (table : Indexed) : Nat :=
  table.order.length

def isEmpty (table : Indexed) : Bool :=
  table.order.isEmpty

/-- The names in order, each with its type in the index; `none` if one is missing there. -/
def entries? (table : Indexed) : Option (List (String × Ty)) :=
  table.order.mapM fun name => (table.get? name).map (name, ·)

/-- What adding a binding answers, and the table after it. -/
def add (table : Indexed) (name : String) (ty : Ty) : Except Ty Unit × Indexed :=
  match table.get? name with
  | some previous => (.error previous, table)
  | none => (.ok (), ⟨table.types.insert name ty, table.order ++ [name]⟩)

/-- The tables that some acts make of empty ones, and the answers on the way. -/
def history (acts : List Act) : List (Except Ty Unit) × (Nat → Indexed) :=
  performAll (act add) acts fun _ => empty

/-- The invariant: no name is repeated, and the index has the bindings of `shown`. -/
structure Mirrors (table : Indexed) (shown : Table) : Prop where
  order : table.order = shown.entries.map Prod.fst
  nodup : table.order.Nodup
  get? : ∀ name, table.get? name = shown.get? name

variable {table other : Indexed} {shown listed : Table} {name : String} {ty : Ty}

theorem lookup_insert (types : Finmap fun _ : String => Ty) (name : String) (ty : Ty)
    (other : String) :
    (types.insert name ty).lookup other = if other = name then some ty else types.lookup other := by
  by_cases hsame : other = name
  · rw [if_pos hsame, hsame]
    exact Finmap.lookup_insert types
  · rw [if_neg hsame]
    exact Finmap.lookup_insert_of_ne types hsame

theorem mirrors_empty : Mirrors empty .empty :=
  ⟨rfl, List.nodup_nil, fun _ => Finmap.lookup_empty _⟩

/-- The step lemma: a binding is taken or refused by both, and they stay in step. -/
theorem Mirrors.add (h : Mirrors table shown) (name : String) (ty : Ty) :
    (table.add name ty).1 = (shown.put name ty).1 ∧
      Mirrors (table.add name ty).2 (shown.put name ty).2 := by
  unfold Indexed.add Table.put Table.add
  rw [h.get? name]
  cases hfound : shown.get? name with
  | some previous => exact ⟨rfl, h⟩
  | none =>
      have hnew : name ∉ table.order := by
        rw [h.order]
        exact Table.get?_eq_none_iff.mp hfound
      refine ⟨rfl, ?_, ?_, fun other => ?_⟩
      · simp [h.order]
      · rw [List.nodup_append]
        refine ⟨h.nodup, List.nodup_singleton name, fun other hother last hlast => ?_⟩
        rw [List.mem_singleton] at hlast
        exact fun hsame => hnew (hlast ▸ hsame ▸ hother)
      · rw [Indexed.get?, lookup_insert, Table.get?_append hfound]
        exact congrArg _ (h.get? other)

theorem act_related (operation : Act) (tables : Nat → Indexed) (lists : Nat → Table)
    (h : ∀ place, Mirrors (tables place) (lists place)) :
    (act add operation tables).1 = (act Table.put operation lists).1 ∧
      ∀ place, Mirrors ((act add operation tables).2 place)
        ((act Table.put operation lists).2 place) := by
  cases operation with
  | add changed name ty =>
      obtain ⟨hanswer, hafter⟩ := (h changed).add name ty
      refine ⟨hanswer, fun place => ?_⟩
      by_cases hsame : place = changed
      · subst hsame
        simpa [act] using hafter
      · simpa [act, hsame] using h place
  | copy source target =>
      refine ⟨rfl, fun place => ?_⟩
      by_cases hsame : place = target
      · subst hsame
        simpa [act] using h source
      · simpa [act, hsame] using h place

/-- The run lemma: after any acts each table is in step with its list. -/
theorem mirrors_history (acts : List Act) :
    (history acts).1 = (Table.history acts).1 ∧
      ∀ place, Mirrors ((history acts).2 place) ((Table.history acts).2 place) :=
  performAll_related act_related acts fun _ => mirrors_empty

/-! ## What tables tell -/

/-- Asked in any way the table tells the bindings `entries`, and its parts agree. -/
structure Tells (table : Indexed) (entries : List (String × Ty)) : Prop where
  nodup : table.order.Nodup
  mem_order : ∀ name, name ∈ table.order ↔ name ∈ table.types
  entries? : table.entries? = some entries
  get? : ∀ name ty, table.get? name = some ty ↔ (name, ty) ∈ entries
  contains : ∀ name, table.contains name = true ↔ ∃ ty, (name, ty) ∈ entries
  size : table.size = entries.length
  isEmpty : table.isEmpty = true ↔ entries = []
  add_new : ∀ name ty, (∀ first, (name, first) ∉ entries) →
    (table.add name ty).1 = .ok () ∧
      (table.add name ty).2.entries? = some (entries ++ [(name, ty)])
  add_known : ∀ name ty first, (name, first) ∈ entries →
    table.add name ty = (.error first, table)

/-- The list answers each question as the table in two parts does. -/
structure Agrees (table : Indexed) (shown : Table) : Prop where
  get? : ∀ name, shown.get? name = table.get? name
  contains : ∀ name, shown.contains name = table.contains name
  size : shown.size = table.size
  isEmpty : shown.isEmpty = table.isEmpty
  put : ∀ name ty, (shown.put name ty).1 = (table.add name ty).1 ∧
    (table.add name ty).2.entries? = some (shown.put name ty).2.entries

theorem mem_types_iff : name ∈ table.types ↔ (table.get? name).isSome :=
  Finmap.lookup_isSome.symm

theorem mapM_get? {bindings : List (String × Ty)}
    (h : ∀ binding ∈ bindings, table.get? binding.1 = some binding.2) :
    (bindings.map Prod.fst).mapM (fun name => (table.get? name).map (name, ·)) =
      some bindings := by
  induction bindings with
  | nil => rfl
  | cons binding bindings ih =>
      have hfirst : table.get? binding.1 = some binding.2 := h binding List.mem_cons_self
      have hmore := ih fun other hother => h other (List.mem_cons_of_mem _ hother)
      simp [hfirst, hmore]

namespace Mirrors

variable (h : Mirrors table shown)

include h

theorem get?_eq_some_iff : table.get? name = some ty ↔ (name, ty) ∈ shown.entries := by
  rw [h.get?, Table.get?_eq_some_iff (h.order ▸ h.nodup)]

theorem get?_eq_none_iff : table.get? name = none ↔ name ∉ table.order := by
  rw [h.get?, h.order, Table.get?_eq_none_iff]

theorem entries?_eq : table.entries? = some shown.entries := by
  rw [entries?, h.order]
  exact mapM_get? fun _ hbinding => h.get?_eq_some_iff.mpr hbinding

theorem isSome_get?_iff : (table.get? name).isSome ↔ ∃ ty, (name, ty) ∈ shown.entries := by
  simp only [Option.isSome_iff_exists, h.get?_eq_some_iff]

theorem tells : table.Tells shown.entries where
  nodup := h.nodup
  mem_order name := by
    rw [mem_types_iff, ← not_iff_not, ← h.get?_eq_none_iff, Option.not_isSome_iff_eq_none]
  entries? := h.entries?_eq
  get? _ _ := h.get?_eq_some_iff
  contains name := by
    rw [contains, decide_eq_true_iff, mem_types_iff, h.isSome_get?_iff]
  size := by rw [size, h.order, List.length_map]
  isEmpty := by rw [isEmpty, h.order, List.isEmpty_iff, List.map_eq_nil_iff]
  add_new name ty hnew := by
    have hfound : shown.get? name = none := by
      rw [← h.get?, Option.eq_none_iff_forall_ne_some]
      exact fun first hfirst => hnew first (h.get?_eq_some_iff.mp hfirst)
    obtain ⟨hanswer, hafter⟩ := h.add name ty
    have hput : shown.put name ty = (.ok (), ⟨shown.entries ++ [(name, ty)]⟩) := by
      simp [Table.put, Table.add, hfound]
    rw [hput] at hanswer hafter
    exact ⟨hanswer, hafter.entries?_eq⟩
  add_known name ty first hfirst := by
    rw [Indexed.add, h.get?_eq_some_iff.mpr hfirst]

theorem agrees : table.Agrees shown where
  get? name := (h.get? name).symm
  contains name := by
    rw [Table.contains, ← h.get?, contains, Bool.eq_iff_iff, decide_eq_true_iff, mem_types_iff]
  size := by rw [size, h.order, List.length_map, Table.size]
  isEmpty := by rw [isEmpty, h.order, List.isEmpty_map, Table.isEmpty]
  put name ty :=
    have hadded := h.add name ty
    ⟨hadded.1.symm, hadded.2.entries?_eq⟩

/-- A table has nothing to it but the bindings it tells. -/
theorem eq_iff (hother : Mirrors other listed) : table = other ↔ shown = listed := by
  constructor
  · rintro rfl
    have hentries : some shown.entries = some listed.entries :=
      h.entries?_eq.symm.trans hother.entries?_eq
    cases shown
    cases listed
    simpa using hentries
  · rintro rfl
    have htypes : table.types = other.types :=
      Finmap.ext_lookup fun name => (h.get? name).trans (hother.get? name).symm
    have horder : table.order = other.order := h.order.trans hother.order.symm
    cases table
    cases other
    simp_all

end Mirrors

end Indexed

/--
After any acts the two parts of each table are in step: they tell the bindings of the
list that the same acts make, and the list answers as they do.  Two such tables are
equal exactly if they list the same bindings in the same order.
-/
theorem indexed_tables_tell (acts others : List Act) (place elsewhere : Nat) :
    let table := (Indexed.history acts).2 place
    let shown := (Table.history acts).2 place
    let other := (Indexed.history others).2 elsewhere
    let listed := (Table.history others).2 elsewhere
    (Indexed.history acts).1 = (Table.history acts).1 ∧
      table.Tells shown.entries ∧ table.Agrees shown ∧
      (table = other ↔ table.entries? = other.entries?) ∧ (table = other ↔ shown = listed) := by
  intro table shown other listed
  obtain ⟨hanswers, htables⟩ := Indexed.mirrors_history acts
  have htable : table.Mirrors shown := htables place
  have hother : other.Mirrors listed := (Indexed.mirrors_history others).2 elsewhere
  refine ⟨hanswers, htable.tells, htable.agrees, ?_, htable.eq_iff hother⟩
  rw [htable.entries?_eq, hother.entries?_eq, htable.eq_iff hother, Option.some_inj]
  cases shown
  cases listed
  simp

/-- Parts that are out of step tell nothing. -/
example : (Indexed.mk ∅ ["x"]).entries? = none := by
  decide

end Classlet.Scope
