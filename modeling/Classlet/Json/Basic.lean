/-!
# JSON documents

The values a report is made of.  Numbers are natural; a record keeps its fields
in the order in which they are given.
-/

namespace Classlet

inductive Json where
  | text (value : String)
  | number (value : Nat)
  | list (items : List Json)
  | record (fields : List (String × Json))

end Classlet
