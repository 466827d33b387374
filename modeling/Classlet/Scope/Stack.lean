import Classlet.Scope.Table

/-!
# Scope stacks

Method scopes stacked over one global table.  Only the innermost table is
consulted: names of the global table and of outer scopes are invisible while a
method scope is open.
-/

namespace Classlet.Scope

/-- The global table, and the open method scopes from the innermost outwards. -/
structure Stack where
  global : Table
  locals : List Table
  deriving DecidableEq, Repr

namespace Stack

def empty : Stack := ⟨.empty, []⟩

def push (stack : Stack) : Stack :=
  { stack with locals := .empty :: stack.locals }

/-- Close the innermost method scope; with none open nothing changes. -/
def pop (stack : Stack) : Option Table × Stack :=
  match stack.locals with
  | [] => (none, stack)
  | table :: outer => (some table, { stack with locals := outer })

def depth (stack : Stack) : Nat :=
  stack.locals.length

/-- The table that declarations go into and lookups consult. -/
def current (stack : Stack) : Table :=
  match stack.locals with
  | [] => stack.global
  | table :: _ => table

def withCurrent (stack : Stack) (table : Table) : Stack :=
  match stack.locals with
  | [] => { stack with global := table }
  | _ :: outer => { stack with locals := table :: outer }

/-- Bind a name in the current table, or report the type it is bound to there. -/
def declare (stack : Stack) (name : String) (ty : Ty) : Except Ty Stack :=
  match stack.current.add name ty with
  | .error previous => .error previous
  | .ok table => .ok (stack.withCurrent table)

def lookup (stack : Stack) (name : String) : Option Ty :=
  stack.current.get? name

def closeAll (stack : Stack) : Stack :=
  { stack with locals := [] }

end Stack

end Classlet.Scope
