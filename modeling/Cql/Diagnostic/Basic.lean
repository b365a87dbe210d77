/-
Diagnostics: what was found wrong, and where.

* `Diagnostic` — a message with labelled spans, an optional help text and an optional code;
* `Diagnostic.primarySpan?` — where the trouble is;
* `DiagnosticLog` — diagnostics in the order in which they were reported.
-/
import Cql.Span

namespace Cql

inductive Severity
  /-- A problem that rejects the statement. -/
  | error
  /-- Supporting information. -/
  | note
  deriving DecidableEq

inductive LabelRole
  /-- The place a diagnostic is about. -/
  | primary
  /-- A related place. -/
  | secondary
  deriving DecidableEq

/-- A span with a remark. -/
structure Label where
  role : LabelRole
  span : Span
  text : String
  deriving DecidableEq

structure Diagnostic where
  severity : Severity
  message : String
  labels : List Label
  help : Option String
  code : Option String
  deriving DecidableEq

namespace Diagnostic

/-- An error with nothing but a message. -/
def plain (message : String) : Diagnostic := ⟨.error, message, [], none, none⟩

/-- Span of the first primary label. -/
def primarySpan? (diagnostic : Diagnostic) : Option Span :=
  (diagnostic.labels.find? (·.role = .primary)).map (·.span)

end Diagnostic

/-- Diagnostics in the order of their reports. -/
structure DiagnosticLog where
  entries : List Diagnostic
  deriving DecidableEq

namespace DiagnosticLog

def empty : DiagnosticLog := ⟨[]⟩

def report (log : DiagnosticLog) (diagnostic : Diagnostic) : DiagnosticLog :=
  ⟨log.entries ++ [diagnostic]⟩

def extend (log : DiagnosticLog) (diagnostics : List Diagnostic) : DiagnosticLog :=
  ⟨log.entries ++ diagnostics⟩

/-- The diagnostic reported last. -/
def latest? (log : DiagnosticLog) : Option Diagnostic := log.entries.getLast?

def size (log : DiagnosticLog) : Nat := log.entries.length

def isEmpty (log : DiagnosticLog) : Bool := log.entries.isEmpty

@[simp] theorem latest?_report (log : DiagnosticLog) (diagnostic : Diagnostic) :
    (log.report diagnostic).latest? = some diagnostic := by
  simp [report, latest?]

end DiagnosticLog

end Cql
