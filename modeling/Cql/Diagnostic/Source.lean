/-
Source texts with an optional display name.

* `Source.clamp` — the part of a span that lies in the text;
* `Source.lineCol` — line and column of a byte offset, both counted from one; columns count
  characters.
-/
import Cql.Span
import Cql.Text.Bytes

namespace Cql

structure Source where
  content : String
  name : Option String
  deriving DecidableEq

namespace Source

/-- Length in bytes. -/
def size (source : Source) : Nat := source.content.utf8ByteSize

def clamp (source : Source) (span : Span) : Span := span.clamp source.size

/-- Line and column of the place right after some characters. -/
def positionAfter (cs : List Char) : Nat × Nat :=
  (cs.count '\n' + 1, (cs.reverse.takeWhile (· ≠ '\n')).length + 1)

/-- Line and column of a byte offset.  An offset past the end, or inside a character, counts as the
end of the text. -/
def lineCol (source : Source) (offset : Nat) : Nat × Nat :=
  let cs := source.content.toList
  positionAfter ((Bytes.before? offset cs).getD cs)

end Source

end Cql
