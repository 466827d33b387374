import Classlet.Ty

/-!
# Symbol tables

The bindings of one scope in declaration order.  A name is bound at most once:
declaring it again leaves the table as it is and reports the type it has.
-/

namespace Classlet.Scope

structure Table where
  entries : List (String × Ty)
  deriving DecidableEq, Repr

namespace Table

def empty : Table := ⟨[]⟩

def get? (table : Table) (name : String) : Option Ty :=
  table.entries.lookup name

def contains (table : Table) (name : String) : Bool :=
  (table.get? name).isSome

def size (table : Table) : Nat :=
  table.entries.length

def isEmpty (table : Table) : Bool :=
  table.entries.isEmpty

/-- Bind a name at the end of the table, or report the type it is bound to. -/
def add (table : Table) (name : String) (ty : Ty) : Except Ty Table :=
  match table.get? name with
  | some previous => .error previous
  | none => .ok ⟨table.entries ++ [(name, ty)]⟩

end Table

end Classlet.Scope
