/-
What can be wrong with the spelling of a source text.

Each problem is found at one stretch of the source.  Problems of code `L001` are shown at the first
character of the stretch, those of code `L002` at the whole of it.

* `LexicalProblem.message`, `LexicalProblem.code` — the wording;
* `LexicalProblem.diagnostic` — the diagnostic for a problem at a given place.
-/
import Cql.Diagnostic.Basic
import Cql.Text.Bytes

namespace Cql

inductive LexicalProblem
  /-- A character that starts no token. -/
  | invalidCharacter (c : Char)
  | unclosedString
  | unclosedName
  | unclosedComment
  /-- A quoted name without a character in it. -/
  | emptyName
  /-- A hexadecimal constant that runs on into a word. -/
  | malformedHex (text : String)
  deriving DecidableEq

namespace LexicalProblem

def message : LexicalProblem → String
  | invalidCharacter c => "invalid character '" ++ c.toString ++ "'"
  | unclosedString => "unclosed string literal"
  | unclosedName => "unclosed quoted identifier"
  | unclosedComment => "unclosed block comment"
  | emptyName => "empty quoted identifier"
  | malformedHex text => "malformed hexadecimal constant '" ++ text ++ "'"

/-- Does the problem concern a token that was read to its end? -/
def ofWholeToken : LexicalProblem → Bool
  | emptyName | malformedHex _ => true
  | _ => false

def code (problem : LexicalProblem) : String := if problem.ofWholeToken then "L002" else "L001"

/-- The diagnostic for a problem found at the stretch `text` that starts at byte `start`. -/
def diagnostic (problem : LexicalProblem) (start : Nat) (text : List Char) : Diagnostic :=
  let shown := if problem.ofWholeToken then text else text.take 1
  let span : Span := ⟨start, start + Bytes.size shown⟩
  ⟨.error, problem.message, [⟨.primary, span, "here"⟩], none, some problem.code⟩

end LexicalProblem

end Cql
