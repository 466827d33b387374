/-!
# Types

The ten primitive types a field, parameter or variable can be declared with.
Expressions are typed with the same set: number literals are `int` or `float`,
comparisons and logical operators give `bool`.
-/

namespace Classlet

inductive Ty where
  | int
  | float
  | string
  | bool
  | char
  | byte
  | decimal
  | double
  | long
  | short
  deriving DecidableEq, Repr

namespace Ty

def name : Ty → String
  | int => "INT"
  | float => "FLOAT"
  | string => "STRING"
  | bool => "BOOL"
  | char => "CHAR"
  | byte => "BYTE"
  | decimal => "DECIMAL"
  | double => "DOUBLE"
  | long => "LONG"
  | short => "SHORT"

def all : List Ty :=
  [int, float, string, bool, char, byte, decimal, double, long, short]

def ofName? (text : String) : Option Ty :=
  all.find? fun ty => ty.name == text

theorem ofName?_name (ty : Ty) : ofName? ty.name = some ty := by
  cases ty <;> rfl

end Ty

end Classlet
