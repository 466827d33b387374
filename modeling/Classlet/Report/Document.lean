import Classlet.Fault
import Classlet.Json.Basic
import Classlet.Scan.Scanner
import Classlet.Scope.Table

/-!
# Report documents

The machine-readable report: the tokens if they are asked for, the stray
characters, and the outcome.
-/

namespace Classlet.Report

def tokenDocument (token : Token) : Json :=
  .record [("lexeme", .text token.lexeme), ("kind", .text token.kind.name),
    ("line", .number token.position.line), ("col", .number token.position.column)]

def strayDocument (char : Char) (position : Position) : Json :=
  .record [("character", .text (String.singleton char)),
    ("line", .number position.line), ("col", .number position.column)]

def symbolDocument (name : String) (ty : Ty) : Json :=
  .record [("name", .text name), ("type", .text ty.name)]

def outcomeDocument (symbols : Bool) : Except Fault Scope.Table → Json
  | .ok globals =>
      .record (("status", .text "success") ::
        if symbols then
          [("symbols", .list (globals.entries.map fun (name, ty) => symbolDocument name ty))]
        else [])
  | .error fault =>
      .record [("status", .text "failure"), ("kind", .text fault.kind.name),
        ("message", .text fault.message), ("line", .number fault.position.line),
        ("col", .number fault.position.column)]

def document (tokens symbols : Bool) (items : List Scan.Item)
    (result : Except Fault Scope.Table) : Json :=
  .record ((if tokens then
      [("tokens", .list ((Scan.tokensOf items).map tokenDocument))]
    else []) ++
    [("diagnostics", .list ((Scan.straysOf items).map fun (char, position) =>
        strayDocument char position)),
      ("outcome", outcomeDocument symbols result)])

end Classlet.Report
