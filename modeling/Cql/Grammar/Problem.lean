/-
What can be wrong with the order of the tokens, and where.

A problem is a cause; its wording, its code and its help text are functions of it.  A place names
tokens by their number in the stream, so that what is found wrong does not depend on where the tokens
stand in the source.

* `Problem.message`, `Problem.code`, `Problem.labelText`, `Problem.help?` — the wording;
* `Place` — a token, or a stretch of tokens;
* `Report` — a problem in its place; `Report.diagnostic` is its diagnostic.
-/
import Cql.Diagnostic.Basic
import Cql.Syntax.Identifier
import Cql.Syntax.Operation
import Cql.Token.Stream

namespace Cql

inductive Problem
  /-- Something else was required here. -/
  | expected (what context : String) (found : TokenKind)
  /-- A token after the end of the statement. -/
  | trailing (found : TokenKind)
  /-- Nothing else explains why there is no statement. -/
  | unexplained
  | nestedTooDeeply
  /-- A limit that is not a number of 32 bits. -/
  | limitOutOfRange (text : String)
  /-- Something is counted that is neither `*` nor `1`. -/
  | countArgument (text : String)
  /-- Both sides of a relation are tokens, with different numbers of arguments. -/
  | tokenArity
  /-- An assignment `column = value + other`. -/
  | prependsToOther
  /-- An assignment `column = other + value` or the like. -/
  | startsFromOther
  /-- A value that cannot be added or subtracted. -/
  | delta (fault : DeltaFault)
  /-- An assignment `column = column amount` with a positive amount. -/
  | missingMinus (amount : String)
  /-- A key of a property map that is not a constant. -/
  | propertyKey (key : Value)
  /-- A value that no property, or no entry of a property map, can have. -/
  | propertyValue (value : Value) (name : String)

namespace Problem

/-- Remark on a bind marker where only a constant can stand. -/
def markerRemark (value : Value) : String :=
  if value.isMarker then " (bind variables are not supported in DDL queries)" else ""

def message : Problem → String
  | expected what context found =>
    "expected " ++ what ++ (if context = "" then "" else " " ++ context) ++ ", found " ++ found.render
  | trailing found => "unexpected " ++ found.render ++ " after statement"
  | unexplained => "could not parse statement"
  | nestedTooDeeply => "collection nesting too deep"
  | limitOutOfRange text => "Invalid LIMIT value: " ++ text
  | countArgument text => "Only COUNT(1) is supported, got COUNT(" ++ text ++ ")"
  | tokenArity => "The number of arguments to the token() function don't match"
  | prependsToOther => "Only expressions like X = <value> + X are supported"
  | startsFromOther => "Only expressions like X = X <op> <value> are supported"
  | delta .notAnInteger => "Counter updates take an integer or bind marker"
  | delta .mapSubtracted => "Map literals cannot be subtracted"
  | missingMinus amount => "missing '-' before " ++ amount ++ " in counter update"
  | propertyKey key => "Invalid property name: " ++ key.render ++ markerRemark key
  | propertyValue value name =>
    "Invalid property value: " ++ value.render ++ " for property: " ++ name ++ markerRemark value

def code : Problem → String
  | unexplained | nestedTooDeeply | limitOutOfRange _ => "P001"
  | expected _ _ _ => "P002"
  | trailing _ => "P003"
  | countArgument _ | tokenArity | prependsToOther | startsFromOther | delta _ => "P010"
  | propertyKey _ | propertyValue _ _ => "P011"
  | missingMinus _ => "P020"

/-- Text of the label at the place of the problem. -/
def labelText : Problem → String
  | expected _ _ found => "unexpected " ++ found.render
  | trailing _ => "unexpected token"
  | missingMinus _ => "expected '-' or '+' before this value"
  | _ => ""

def help? : Problem → Option String
  | missingMinus amount =>
    some ("write `X = X + " ++ amount ++ "` or `X = X - " ++ amount ++ "`")
  | _ => none

end Problem

/-- Where a problem is, by the numbers of tokens. -/
inductive Place
  | token (position : Nat)
  /-- From the start of one token to the end of a later one. -/
  | stretch (first last : Nat)
  deriving DecidableEq

namespace Place

def span (stream : TokenStream) : Place → Span
  | token position => stream.spanAt position
  | stretch first last => .cover (stream.spanAt first) (stream.spanAt last)

end Place

structure Report where
  problem : Problem
  place : Place

namespace Report

/-- The diagnostic of a report on a stream. -/
def diagnostic (stream : TokenStream) (report : Report) : Diagnostic where
  severity := .error
  message := report.problem.message
  labels := [⟨.primary, report.place.span stream, report.problem.labelText⟩]
  help := report.problem.help?
  code := some report.problem.code

end Report

end Cql
