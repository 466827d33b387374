import Classlet.Analysis.Run

/-!
# Analyzers

An analyzer stands somewhere in a list of tokens and knows the bindings made so
far.  It can be asked for a whole program or for one expression, any number of
times; each request goes on where the one before stopped.
-/

namespace Classlet.Analysis

structure Analyzer where
  /-- The place of the last token read. -/
  last : Position
  rest : List Token
  scopes : Scope.Stack
  deriving DecidableEq, Repr

namespace Analyzer

def ofTokens (tokens : List Token) : Analyzer :=
  ⟨.start, tokens, .empty⟩

/--
Check all that is left as a program and hand over the global table.  After a
fault the global table stays with the fields bound so far, and no method scope
is left open.
-/
def program (analyzer : Analyzer) : Except Fault Scope.Table × Analyzer :=
  let outcome := run [.program] analyzer.scopes analyzer.last analyzer.rest
  match outcome.fault? with
  | none => (.ok outcome.scopes.global, ⟨outcome.last, outcome.rest, .empty⟩)
  | some fault => (.error fault, ⟨outcome.last, outcome.rest, outcome.scopes.closeAll⟩)

def expression (analyzer : Analyzer) : Except Fault Ty × Analyzer :=
  let reading := Expression.read analyzer.scopes .start analyzer.last analyzer.rest
  (reading.verdict, ⟨reading.last, reading.rest, analyzer.scopes⟩)

end Analyzer

/-- The global table of a program, or what is wrong with it. -/
def analyze (tokens : List Token) : Except Fault Scope.Table :=
  (Analyzer.ofTokens tokens).program.1

end Classlet.Analysis
