/-
Parsing a statement, and the answer to whoever wants it parsed.

A parse finds out what it can: a statement, which is a best effort where anything was reported, and
diagnostics, those of the lexer first.  A statement is accepted if there is one and nothing was
reported; otherwise the answer is a rejection, which keeps the last diagnostics.

* `Parser` — tokens and diagnostics to start from; `Parser.outcome` parses them;
* `parseOutcome` — everything that a source gives;
* `parse`, `parseWith` — the accepted statement, or a rejection;
* `ReportOptions.retained` — how many diagnostics a rejection keeps.
-/
import Cql.Diagnostic.View
import Cql.Grammar.Statement
import Cql.Token.Lexing

namespace Cql

/-- What a parse found out. -/
structure Outcome where
  statement : Option ParsedStatement
  diagnostics : List Diagnostic
  /-- Was the parse ended by a fatal problem? -/
  aborted : Bool

/-- Was a statement found, and nothing wrong with it? -/
def Outcome.isSuccess (outcome : Outcome) : Bool :=
  outcome.statement.isSome && outcome.diagnostics.isEmpty

/-- Tokens to parse, and diagnostics that come before those of the parse. -/
structure Parser where
  stream : TokenStream
  earlier : List Diagnostic

namespace Parser

def ofTokens (tokens : List Token) : Parser := ⟨.ofTokens tokens, []⟩

/-- Puts diagnostics in front of all others. -/
def withDiagnostics (parser : Parser) (diagnostics : List Diagnostic) : Parser :=
  { parser with earlier := diagnostics ++ parser.earlier }

/-- What the grammar makes of the tokens. -/
def reply (parser : Parser) : Reply (Statement × Place) :=
  Grammar.query.run ⟨parser.stream, .none⟩

/-- The statement of a reply, with the number of bind markers and its place. -/
def statement? (parser : Parser) (reply : Reply (Statement × Place)) : Option ParsedStatement :=
  match reply.result with
  | .ok (statement, place) =>
    some ⟨statement, reply.state.markers.count, place.span parser.stream⟩
  | .error _ => none

/-- The earlier diagnostics and those of a reply.  If nothing else explains why there is no
statement, a diagnostic at the last token says that there is none. -/
def diagnostics (parser : Parser) (reply : Reply (Statement × Place)) : List Diagnostic :=
  let all := parser.earlier ++ reply.reports.map (·.diagnostic parser.stream)
  if (parser.statement? reply).isNone && all.isEmpty then
    [Report.diagnostic parser.stream ⟨.unexplained, .token reply.state.stream.position⟩]
  else
    all

/-- Parses one statement. -/
def outcome (parser : Parser) : Outcome :=
  let reply := parser.reply
  { statement := parser.statement? reply
    diagnostics := parser.diagnostics reply
    aborted := reply.halt? = some .fatal }

end Parser

/-- Everything that a source gives. -/
def parseOutcome (source : String) : Outcome :=
  let lexing := tokenize source
  ((Parser.ofTokens lexing.tokens).withDiagnostics lexing.diagnostics).outcome

/-- How a rejection is to be reported. -/
structure ReportOptions where
  /-- The name under which the source is shown. -/
  sourceName : Option String
  /-- Keep all diagnostics, and not just the last. -/
  keepAll : Bool
  /-- The most diagnostics to keep. -/
  limit : Option Nat

namespace ReportOptions

def default : ReportOptions := ⟨none, true, none⟩

/-- How many of `total` diagnostics are kept: at least one if there is any. -/
def retained (options : ReportOptions) (total : Nat) : Nat :=
  min (max (if options.keepAll then options.limit.getD total else 1) 1) total

end ReportOptions

/-- A statement that was not accepted.  The last diagnostic stands for all. -/
structure Rejection where
  diagnostics : List Diagnostic
  source : Source
  aborted : Bool

namespace Rejection

/-- The rejection of an outcome: as many of the last diagnostics as the options want. -/
def ofOutcome (outcome : Outcome) (source : Source) (options : ReportOptions) : Rejection :=
  let all :=
    if outcome.diagnostics.isEmpty then [Diagnostic.plain Problem.unexplained.message]
    else outcome.diagnostics
  ⟨all.drop (all.length - options.retained all.length), source, outcome.aborted⟩

/-- The last diagnostic, if there is any. -/
def representative? (rejection : Rejection) : Option Diagnostic := rejection.diagnostics.getLast?

/-- The diagnostic shown to users. -/
def representative (rejection : Rejection) : Diagnostic :=
  rejection.representative?.getD (.plain Problem.unexplained.message)

def message (rejection : Rejection) : String :=
  match rejection.representative? with
  | some diagnostic => diagnostic.message
  | none => Problem.unexplained.message

def code (rejection : Rejection) : Option String := rejection.representative?.bind (·.code)

def severity (rejection : Rejection) : ViewSeverity :=
  match rejection.representative? with
  | some diagnostic => diagnostic.severity.view
  | none => Severity.error.view

def help (rejection : Rejection) : Option String := rejection.representative?.bind (·.help)

def labels (rejection : Rejection) : List ViewLabel :=
  match rejection.representative? with
  | some diagnostic => diagnostic.viewLabels rejection.source
  | none => []

/-- The rejection as a renderer wants it. -/
def view (rejection : Rejection) : DiagnosticView where
  message := rejection.message
  code := rejection.code
  severity := rejection.severity
  help := rejection.help
  labels := rejection.labels

/-- The text that the rejection is rendered with, which goes without its name. -/
def sourceCode (rejection : Rejection) : Source := ⟨rejection.source.content, none⟩

/-- All diagnostics as a renderer wants them.  They are rendered with the source under its name. -/
def reports (rejection : Rejection) : List DiagnosticView :=
  rejection.diagnostics.map (·.view rejection.source)

end Rejection

/-- Parses a statement. -/
def parseWith (source : String) (options : ReportOptions) : Except Rejection ParsedStatement :=
  let outcome := parseOutcome source
  match outcome.statement with
  | some statement =>
    if outcome.diagnostics.isEmpty then .ok statement
    else .error (.ofOutcome outcome ⟨source, options.sourceName⟩ options)
  | none => .error (.ofOutcome outcome ⟨source, options.sourceName⟩ options)

/-- Parses a statement with nothing special about its report. -/
def parse (source : String) : Except Rejection ParsedStatement := parseWith source .default

end Cql
