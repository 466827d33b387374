import Classlet.Proofs.Json.Written
import Classlet.Report.Document

/-!
# What a report says

Reading the value that a report denotes: members are found by their names, kinds and
types are known by their names too, and a member that is absent is told from an empty
one.  Reading the report of some items and an outcome gives these back.
-/

namespace Classlet

/-! ## Members of a value -/

namespace Json.Value

def member? (name : String) : Value → Option Value
  | record members => members.lookup name
  | _ => none

def text? : Value → Option String
  | text content => some content
  | _ => none

def nat? : Value → Option Nat
  | number value => if value = value.num.toNat then some value.num.toNat else none
  | _ => none

def list? : Value → Option (List Value)
  | list items => some items
  | _ => none

end Json.Value

namespace Json

@[simp] theorem text?_value_text (content : String) :
    (text content).value.text? = some content :=
  rfl

@[simp] theorem nat?_value_number (count : Nat) :
    (number count).value.nat? = some count := by
  simp [value, Value.nat?]

theorem lookup_members (fields : List (String × Json)) (name : String) :
    (members fields).lookup name = (fields.lookup name).map value := by
  induction fields with
  | nil => rfl
  | cons field fields ih =>
      obtain ⟨key, content⟩ := field
      rw [members, List.lookup_cons, List.lookup_cons]
      split <;> simp [ih]

@[simp] theorem member?_value_record (fields : List (String × Json)) (name : String) :
    (record fields).value.member? name = (fields.lookup name).map value :=
  lookup_members fields name

end Json

theorem Kind.ofName?_name (kind : Kind) : ofName? kind.name = some kind := by
  cases kind with
  | type ty => cases ty <;> rfl
  | word reserved => cases reserved <;> rfl
  | access modifier => cases modifier <;> rfl
  | binary operator => cases operator <;> rfl
  | step operator => cases operator <;> rfl
  | comment style => cases style <;> rfl
  | _ => rfl

namespace Report

open Json (Value)

/-! ## Reading -/

inductive Outcome where
  /-- The symbols are there if they are asked for, even if there are none. -/
  | success (symbols? : Option (List (String × Ty)))
  | failure (failure : Failure)
  deriving DecidableEq, Repr

structure Contents where
  tokens? : Option (List Token)
  strays : List (Char × Position)
  outcome : Outcome
  deriving DecidableEq, Repr

def readPosition? (value : Value) : Option Position := do
  let line ← (← value.member? "line").nat?
  let column ← (← value.member? "col").nat?
  return ⟨line, column⟩

def readToken? (value : Value) : Option Token := do
  let lexeme ← (← value.member? "lexeme").text?
  let kind ← Kind.ofName? (← (← value.member? "kind").text?)
  return ⟨kind, lexeme, ← readPosition? value⟩

def readStray? (value : Value) : Option (Char × Position) := do
  match (← (← value.member? "character").text?).toList with
  | [char] => return (char, ← readPosition? value)
  | _ => none

def readSymbol? (value : Value) : Option (String × Ty) := do
  let name ← (← value.member? "name").text?
  let ty ← Ty.ofName? (← (← value.member? "type").text?)
  return (name, ty)

def readFailure? (value : Value) : Option Failure := do
  let kind ← FailureKind.ofName? (← (← value.member? "kind").text?)
  let message ← (← value.member? "message").text?
  return ⟨kind, message, ← readPosition? value⟩

/-- The items of a list, each read by itself. -/
def readAll? {Item : Type} (read? : Value → Option Item) (value : Value) :
    Option (List Item) := do
  (← value.list?).mapM read?

/-- A member that may be absent. -/
def readOptional? {Item : Type} (read? : Value → Option Item) (member? : Option Value) :
    Option (Option Item) :=
  match member? with
  | none => some none
  | some value => (read? value).map some

def readOutcome? (value : Value) : Option Outcome := do
  match ← (← value.member? "status").text? with
  | "success" => return .success (← readOptional? (readAll? readSymbol?) (value.member? "symbols"))
  | "failure" => return .failure (← readFailure? value)
  | _ => none

def Contents.ofValue? (value : Value) : Option Contents := do
  let tokens? ← readOptional? (readAll? readToken?) (value.member? "tokens")
  let strays ← readAll? readStray? (← value.member? "diagnostics")
  let outcome ← readOutcome? (← value.member? "outcome")
  return ⟨tokens?, strays, outcome⟩

/-! ## Documents -/

def Outcome.ofResult (symbols : Bool) : Except Fault Scope.Table → Outcome
  | .ok globals => .success (if symbols then some globals.entries else none)
  | .error fault => .failure fault.failure

theorem readAll?_list {Item : Type} {read? : Value → Option Item} {written : Item → Json}
    (h : ∀ item, read? (written item).value = some item) (items : List Item) :
    readAll? read? (Json.list (items.map written)).value = some items := by
  have hitems : (items.map fun item => (written item).value).mapM read? = some items := by
    induction items with
    | nil => rfl
    | cons item items ih => simp [List.mapM_cons, h, ih]
  simpa [readAll?, Json.value, Json.values_eq_map, Value.list?, Function.comp_def] using hitems

theorem readToken?_document (token : Token) :
    readToken? (tokenDocument token).value = some token := by
  simp [readToken?, readPosition?, tokenDocument, List.lookup_cons, Kind.ofName?_name]

theorem readStray?_document (stray : Char × Position) :
    readStray? (strayDocument stray.1 stray.2).value = some stray := by
  simp [readStray?, readPosition?, strayDocument, List.lookup_cons]

theorem readSymbol?_document (symbol : String × Ty) :
    readSymbol? (symbolDocument symbol.1 symbol.2).value = some symbol := by
  simp [readSymbol?, symbolDocument, List.lookup_cons, Ty.ofName?_name]

theorem readOutcome?_document (symbols : Bool) (result : Except Fault Scope.Table) :
    readOutcome? (outcomeDocument symbols result).value = some (.ofResult symbols result) := by
  cases result with
  | error fault =>
      simp [readOutcome?, readFailure?, readPosition?, outcomeDocument, List.lookup_cons,
        FailureKind.ofName?_name, Outcome.ofResult, Fault.failure]
  | ok globals =>
      have hsymbols := readAll?_list readSymbol?_document globals.entries
      cases symbols with
      | false =>
          simp [readOutcome?, outcomeDocument, List.lookup_cons, readOptional?, Outcome.ofResult]
      | true =>
          simp [readOutcome?, outcomeDocument, List.lookup_cons, readOptional?, Outcome.ofResult,
            hsymbols]

/-- The report of some items and an outcome says just these. -/
theorem ofValue?_document (tokens symbols : Bool) (items : List Scan.Item)
    (result : Except Fault Scope.Table) :
    Contents.ofValue? (document tokens symbols items result).value =
      some ⟨if tokens then some (Scan.tokensOf items) else none, Scan.straysOf items,
        .ofResult symbols result⟩ := by
  have htokens := readAll?_list readToken?_document (Scan.tokensOf items)
  have hstrays := readAll?_list readStray?_document (Scan.straysOf items)
  have houtcome := readOutcome?_document symbols result
  cases tokens with
  | false =>
      simp [Contents.ofValue?, document, List.lookup_cons, readOptional?, hstrays, houtcome]
  | true =>
      simp [Contents.ofValue?, document, List.lookup_cons, readOptional?, htokens, hstrays,
        houtcome]

end Report

end Classlet
