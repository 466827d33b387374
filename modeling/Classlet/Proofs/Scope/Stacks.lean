import Classlet.Proofs.Scope.Tables
import Classlet.Scope.Stack

/-!
# Stacks of scopes

A stack of scopes behaves as one list of bindings with other lists stacked on it, of
which only the topmost is in view.  So whatever is done behind the opening of a scope
is done as on an empty stack, until that scope is closed; then all is as it was before.
-/

namespace Classlet.Scope

/-! ## Operations -/

inductive Operation where
  | push
  | pop
  | depth
  | declare (name : String) (ty : Ty)
  | lookup (name : String)
  /-- Hand out the current table, to be changed in any way. -/
  | current (change : List (String × Ty) → List (String × Ty))
  | global
  /-- Give the global table away and go on with an empty stack. -/
  | restart

inductive Answer where
  | done
  | refused (previous : Ty)
  | found (ty? : Option Ty)
  | depth (count : Nat)
  | closed (bindings? : Option (List (String × Ty)))
  | current (bindings : List (String × Ty))
  | global (bindings : List (String × Ty))
  deriving DecidableEq, Repr

/-- What a stack answers to an operation, and the stack after it. -/
def Stack.perform : Operation → Stack → Answer × Stack
  | .push, stack => (.done, stack.push)
  | .pop, stack => (.closed (stack.pop.1.map Table.entries), stack.pop.2)
  | .depth, stack => (.depth stack.depth, stack)
  | .declare name ty, stack =>
      match stack.declare name ty with
      | .ok extended => (.done, extended)
      | .error previous => (.refused previous, stack)
  | .lookup name, stack => (.found (stack.lookup name), stack)
  | .current change, stack =>
      (.current stack.current.entries, stack.withCurrent ⟨change stack.current.entries⟩)
  | .global, stack => (.global stack.global.entries, stack)
  | .restart, stack => (.global stack.global.entries, .empty)

/-! ## Lists stacked on a list -/

/-- One list of bindings and those stacked on it, the last on top. -/
structure Layers where
  global : List (String × Ty)
  scopes : List (List (String × Ty))
  deriving DecidableEq, Repr

namespace Layers

def empty : Layers := ⟨[], []⟩

/-- The list on top: the global one if no other is open. -/
def top (layers : Layers) : List (String × Ty) :=
  layers.scopes.getLast?.getD layers.global

def withTop (layers : Layers) (bindings : List (String × Ty)) : Layers :=
  if layers.scopes = [] then { layers with global := bindings }
  else { layers with scopes := layers.scopes.dropLast ++ [bindings] }

/-- The first binding of a name in the list on top. -/
def find? (layers : Layers) (name : String) : Option (String × Ty) :=
  layers.top.find? fun binding => binding.1 = name

def perform : Operation → Layers → Answer × Layers
  | .push, layers => (.done, { layers with scopes := layers.scopes ++ [[]] })
  | .pop, layers =>
      (.closed layers.scopes.getLast?, { layers with scopes := layers.scopes.dropLast })
  | .depth, layers => (.depth layers.scopes.length, layers)
  | .declare name ty, layers =>
      match layers.find? name with
      | some previous => (.refused previous.2, layers)
      | none => (.done, layers.withTop (layers.top ++ [(name, ty)]))
  | .lookup name, layers => (.found ((layers.find? name).map Prod.snd), layers)
  | .current change, layers => (.current layers.top, layers.withTop (change layers.top))
  | .global, layers => (.global layers.global, layers)
  | .restart, layers => (.global layers.global, empty)

end Layers

theorem map_find?_eq_lookup (bindings : List (String × Ty)) (name : String) :
    (bindings.find? fun binding => binding.1 = name).map Prod.snd = bindings.lookup name := by
  induction bindings with
  | nil => rfl
  | cons binding bindings ih =>
      obtain ⟨first, ty⟩ := binding
      by_cases hsame : first = name
      · simp [hsame]
      · have hother : (name == first) = false := beq_false_of_ne (Ne.symm hsame)
        simpa [List.lookup_cons, hsame, hother] using ih

namespace Stack

/-- The bindings of a stack. -/
def layers (stack : Stack) : Layers :=
  ⟨stack.global.entries, (stack.locals.map Table.entries).reverse⟩

@[simp] theorem top_layers (stack : Stack) : stack.layers.top = stack.current.entries := by
  obtain ⟨global, locals⟩ := stack
  cases locals <;> simp [layers, Layers.top, current]

@[simp] theorem layers_withCurrent (stack : Stack) (table : Table) :
    (stack.withCurrent table).layers = stack.layers.withTop table.entries := by
  obtain ⟨global, locals⟩ := stack
  cases locals <;> simp [layers, Layers.withTop, withCurrent]

theorem map_find?_layers (stack : Stack) (name : String) :
    (stack.layers.find? name).map Prod.snd = stack.lookup name := by
  rw [Layers.find?, top_layers, map_find?_eq_lookup]
  rfl

theorem layers_pop (stack : Stack) :
    stack.layers.scopes.getLast? = stack.pop.1.map Table.entries ∧
      stack.pop.2.layers = { stack.layers with scopes := stack.layers.scopes.dropLast } := by
  obtain ⟨global, locals⟩ := stack
  cases locals <;> simp [layers, pop]

/-- The step lemma: each operation is performed on the lists of the stack. -/
theorem perform_layers (operation : Operation) (stack : Stack) :
    (stack.perform operation).1 = (stack.layers.perform operation).1 ∧
      (stack.perform operation).2.layers = (stack.layers.perform operation).2 := by
  cases operation with
  | push => simp [perform, Layers.perform, push, layers, Table.empty]
  | pop =>
      obtain ⟨hclosed, hleft⟩ := stack.layers_pop
      exact ⟨congrArg Answer.closed hclosed.symm, hleft⟩
  | depth => simp [perform, Layers.perform, depth, layers]
  | declare name ty =>
      have hfound := stack.map_find?_layers name
      have hlookup : stack.current.get? name = stack.lookup name := rfl
      simp only [perform, Layers.perform, declare, Table.add]
      cases hfind : stack.layers.find? name with
      | some previous =>
          rw [hfind, Option.map_some, ← hlookup] at hfound
          simp [← hfound]
      | none =>
          rw [hfind, Option.map_none, ← hlookup] at hfound
          simp [← hfound]
  | lookup name => exact ⟨congrArg Answer.found (stack.map_find?_layers name).symm, rfl⟩
  | current change => simp [perform, Layers.perform]
  | global => exact ⟨rfl, rfl⟩
  | restart => exact ⟨rfl, rfl⟩

end Stack

/-! ## Behind an opened scope -/

/-- How many scopes are open after an operation within a scope that it leaves open. -/
def Operation.openAfter? : Operation → Nat → Option Nat
  | .push, count => some (count + 1)
  | .pop, 0 => none
  | .pop, count + 1 => some count
  | .restart, _ => none
  | .depth, count | .declare _ _, count | .lookup _, count | .current _, count
  | .global, count => some count

/-- How many more scopes are open after operations that never close the one they are in. -/
def openAfter? : List Operation → Nat → Option Nat
  | [], count => some count
  | operation :: more, count => (operation.openAfter? count).bind (openAfter? more)

/-- What is answered on top of `base`, where the same is answered on an empty stack. -/
def Answer.seenAbove (base : Stack) : Answer → Answer
  | .depth count => .depth (count + base.depth)
  | .global _ => .global base.global.entries
  | answer => answer

namespace Stack

variable {operation : Operation} {inner : List Operation} {own base : Stack}
  {count after : Nat}

/-- The scopes of `own` opened on top of `base`. -/
def above (own base : Stack) : Stack :=
  ⟨base.global, own.locals ++ base.locals⟩

theorem current_above (hopen : own.depth = count + 1) :
    (own.above base).current = own.current := by
  obtain ⟨global, table, outer⟩ := own
  · simp [depth] at hopen
  · rfl

theorem withCurrent_above (hopen : own.depth = count + 1) (table : Table) :
    (own.above base).withCurrent table = (own.withCurrent table).above base := by
  obtain ⟨global, top, outer⟩ := own
  · simp [depth] at hopen
  · rfl

@[simp] theorem depth_withCurrent (stack : Stack) (table : Table) :
    (stack.withCurrent table).depth = stack.depth := by
  obtain ⟨global, top, outer⟩ := stack <;> rfl

/-- The frame of one operation: behind an open scope it reaches nothing below. -/
theorem perform_above (base : Stack) (hopen : own.depth = count + 1)
    (hafter : operation.openAfter? count = some after) :
    perform operation (own.above base) =
        ((perform operation own).1.seenAbove base, (perform operation own).2.above base) ∧
      (perform operation own).2.depth = after + 1 := by
  have hcurrent : (own.above base).current = own.current := current_above hopen
  cases operation with
  | push =>
      obtain rfl : count + 1 = after := Option.some_inj.mp hafter
      exact ⟨rfl, congrArg (· + 1) hopen⟩
  | pop =>
      obtain ⟨global, top, outer⟩ := own
      · simp [depth] at hopen
      · cases count with
        | zero => simp [Operation.openAfter?] at hafter
        | succ count =>
            obtain rfl : count = after := Option.some_inj.mp hafter
            exact ⟨rfl, Nat.succ_inj.mp hopen⟩
  | depth =>
      obtain rfl : count = after := Option.some_inj.mp hafter
      refine ⟨?_, hopen⟩
      simp [perform, depth, above, Answer.seenAbove]
  | declare name ty =>
      obtain rfl : count = after := Option.some_inj.mp hafter
      simp only [perform, declare, hcurrent]
      cases own.current.add name ty with
      | error previous => exact ⟨rfl, hopen⟩
      | ok extended =>
          refine ⟨?_, (own.depth_withCurrent extended).trans hopen⟩
          simp only [withCurrent_above hopen, Answer.seenAbove]
  | lookup name =>
      obtain rfl : count = after := Option.some_inj.mp hafter
      refine ⟨?_, hopen⟩
      simp only [perform, lookup, hcurrent, Answer.seenAbove]
  | current change =>
      obtain rfl : count = after := Option.some_inj.mp hafter
      refine ⟨?_, (own.depth_withCurrent _).trans hopen⟩
      simp only [perform, hcurrent, withCurrent_above hopen, Answer.seenAbove]
  | global =>
      obtain rfl : count = after := Option.some_inj.mp hafter
      exact ⟨rfl, hopen⟩
  | restart => simp [Operation.openAfter?] at hafter

/-- The frame of a run: it is the run on `own` alone, with `base` unchanged below. -/
theorem performAll_above (base : Stack) (hopen : own.depth = count + 1)
    (hafter : openAfter? inner count = some after) :
    performAll perform inner (own.above base) =
        ((performAll perform inner own).1.map (Answer.seenAbove base),
          (performAll perform inner own).2.above base) ∧
      (performAll perform inner own).2.depth = after + 1 := by
  induction inner generalizing own count with
  | nil =>
      obtain rfl : count = after := Option.some_inj.mp hafter
      exact ⟨rfl, hopen⟩
  | cons operation more ih =>
      obtain ⟨between, hfirst, hmore⟩ := Option.bind_eq_some_iff.mp hafter
      obtain ⟨hstep, hbetween⟩ := perform_above base hopen hfirst
      obtain ⟨hrun, hfinal⟩ := ih hbetween hmore
      refine ⟨?_, hfinal⟩
      simp only [performAll, hstep, hrun, List.map_cons]

theorem pop_above (honly : own.depth = 1) :
    (own.above base).pop = (some own.current, base) := by
  obtain ⟨global, locals⟩ := own
  obtain ⟨table, rfl⟩ := List.length_eq_one_iff.mp honly
  rfl

/-- The run lemma: a history is performed on the lists of the stack. -/
theorem performAll_layers (history : List Operation) :
    (performAll perform history empty).1 = (performAll Layers.perform history .empty).1 ∧
      (performAll perform history empty).2.layers =
        (performAll Layers.perform history .empty).2 := by
  have hstep (operation : Operation) (stack : Stack) (layers : Layers)
      (h : stack.layers = layers) :
      (perform operation stack).1 = (layers.perform operation).1 ∧
        (perform operation stack).2.layers = (layers.perform operation).2 :=
    h ▸ stack.perform_layers operation
  exact performAll_related hstep history rfl

/-- What is done behind the opening of a scope is done as on an empty stack. -/
theorem performAll_push (base : Stack) (hafter : openAfter? inner 0 = some after) :
    performAll perform (.push :: inner) base =
        ((performAll perform (.push :: inner) empty).1.map (Answer.seenAbove base),
          (performAll perform (.push :: inner) empty).2.above base) ∧
      (performAll perform (.push :: inner) empty).2.depth = after + 1 := by
  have hpushed : base.push = empty.push.above base := rfl
  have honly : empty.push.depth = 0 + 1 := rfl
  obtain ⟨hrun, hopen⟩ := performAll_above base honly hafter
  refine ⟨?_, hopen⟩
  simp only [performAll, perform, hpushed, hrun, List.map_cons, Answer.seenAbove]

end Stack

/--
A stack answers each history as one list of bindings and the lists stacked on it do, of
which only the top one is declared in and looked up in.  From whatever stack a history
reaches, operations behind the opening of a scope answer as on an empty stack, what they
look up is what is found there, and closing the scope leads back to that very stack.
-/
theorem stack_histories (history inner : List Operation) :
    let reached := (performAll Stack.perform history .empty).2
    let opened := performAll Stack.perform (.push :: inner) reached
    let alone := performAll Stack.perform (.push :: inner) .empty
    ((performAll Stack.perform history .empty).1 = (performAll Layers.perform history .empty).1 ∧
        reached.layers = (performAll Layers.perform history .empty).2) ∧
      (∀ count, openAfter? inner 0 = some count →
        opened = (alone.1.map (Answer.seenAbove reached), alone.2.above reached) ∧
          opened.2.depth = reached.depth + count + 1 ∧
          ∀ name, opened.2.lookup name = alone.2.lookup name) ∧
      (openAfter? inner 0 = some 0 →
        performAll Stack.perform (.push :: inner ++ [.pop]) reached =
          (opened.1 ++ [.closed (some alone.2.current.entries)], reached)) := by
  intro reached opened alone
  refine ⟨Stack.performAll_layers history, fun count hcount => ?_, fun hclosed => ?_⟩
  · obtain ⟨hrun, hopen⟩ := Stack.performAll_push reached hcount
    have hopened : opened = (alone.1.map (Answer.seenAbove reached), alone.2.above reached) := hrun
    have hdepth : (alone.2.above reached).depth = alone.2.depth + reached.depth :=
      List.length_append
    have hcurrent : (alone.2.above reached).current = alone.2.current :=
      Stack.current_above hopen
    refine ⟨hopened, ?_, fun name => ?_⟩
    · rw [hopened, hdepth, hopen]
      omega
    · rw [hopened]
      exact congrArg (Table.get? · name) hcurrent
  · obtain ⟨hrun, honly⟩ := Stack.performAll_push reached hclosed
    have hopened : opened.2 = alone.2.above reached := congrArg Prod.snd hrun
    have hpop : opened.2.pop = (some alone.2.current, reached) :=
      hopened ▸ Stack.pop_above honly
    have hlast : Stack.perform .pop opened.2 =
        (.closed (some alone.2.current.entries), reached) := by
      simp only [Stack.perform, hpop, Option.map_some]
    calc performAll Stack.perform (.push :: inner ++ [.pop]) reached
      _ = (opened.1 ++ [(Stack.perform .pop opened.2).1], (Stack.perform .pop opened.2).2) :=
          performAll_append ..
      _ = (opened.1 ++ [.closed (some alone.2.current.entries)], reached) := by rw [hlast]

/--
A nested scope hides the names of the opened one, which hides those of the global table.
-/
theorem stack_histories_nested :
    let inner : List Operation :=
      [.declare "y" .bool, .push, .declare "x" .char, .lookup "y", .pop, .lookup "y", .lookup "x"]
    let reached : Stack := ⟨⟨[("x", .int)]⟩, []⟩
    openAfter? inner 0 = some 0 ∧
      performAll Stack.perform (.push :: inner ++ [.pop]) reached =
        ([.done, .done, .done, .done, .found none, .closed (some [("x", .char)]),
          .found (some .bool), .found none, .closed (some [("y", .bool)])], reached) := by
  intro inner reached
  have hclosed : openAfter? inner 0 = some 0 := rfl
  exact ⟨hclosed, ((stack_histories [.declare "x" .int] inner).2.2 hclosed).trans (by decide)⟩

end Classlet.Scope
