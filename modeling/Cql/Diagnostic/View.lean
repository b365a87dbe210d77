/-
Diagnostics as a renderer of reports wants them.

Labels lie inside the source and are given by offset and length; a note is shown as advice.  The text
that a view is rendered with is not a part of it.

* `Diagnostic.view` — the view of a diagnostic on a source.
-/
import Cql.Diagnostic.Basic
import Cql.Diagnostic.Source

namespace Cql

inductive ViewSeverity
  | error
  | advice
  deriving DecidableEq

structure ViewLabel where
  isPrimary : Bool
  offset : Nat
  length : Nat
  text : String
  deriving DecidableEq

structure DiagnosticView where
  message : String
  code : Option String
  severity : ViewSeverity
  help : Option String
  labels : List ViewLabel
  deriving DecidableEq

def Severity.view : Severity → ViewSeverity
  | error => .error
  | note => .advice

/-- A label with its span cut down to the source. -/
def Label.view (label : Label) (source : Source) : ViewLabel :=
  let span := source.clamp label.span
  ⟨label.role = .primary, span.start, span.length, label.text⟩

/-- The labels of a diagnostic, on a source. -/
def Diagnostic.viewLabels (diagnostic : Diagnostic) (source : Source) : List ViewLabel :=
  diagnostic.labels.map (·.view source)

def Diagnostic.view (diagnostic : Diagnostic) (source : Source) : DiagnosticView where
  message := diagnostic.message
  code := diagnostic.code
  severity := diagnostic.severity.view
  help := diagnostic.help
  labels := diagnostic.viewLabels source

end Cql
