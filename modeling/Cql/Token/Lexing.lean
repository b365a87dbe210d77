/-
Cutting a source text into tokens.

The text is cut into segments from left to right.  Tokens keep their place and their raw text;
blanks and comments are dropped; a stray character is reported and dropped.  Every text can be cut,
whatever is wrong with it.

* `Lexing` — tokens, the last of them an end of input, and diagnostics;
* `tokenize` — the tokens of a source text.
-/
import Cql.Token.Segment
import Cql.Token.Stream

namespace Cql

/-- A segment in its place: the byte at which it starts, its characters, and what they are. -/
structure Piece where
  start : Nat
  text : List Char
  segment : Segment
  deriving DecidableEq

namespace Piece

def span (piece : Piece) : Span := ⟨piece.start, piece.start + Bytes.size piece.text⟩

def token? (piece : Piece) : Option Token :=
  match piece.segment.content with
  | .token kind => some ⟨⟨kind, String.ofList piece.text⟩, piece.span⟩
  | _ => none

def diagnostic? (piece : Piece) : Option Diagnostic :=
  piece.segment.problem.map (·.diagnostic piece.start piece.text)

end Piece

/-- The pieces of a text that starts at byte `start`.  Its first `held` characters belong to a piece
that was cut before. -/
def pieces (start held : Nat) : List Char → List Piece
  | [] => []
  | c :: rest =>
    match held with
    | n + 1 => pieces (start + c.utf8Size) n rest
    | 0 =>
      let segment := Segment.first c rest
      ⟨start, c :: rest.take (segment.width - 1), segment⟩ ::
        pieces (start + c.utf8Size) (segment.width - 1) rest

@[simp] theorem pieces_nil (start held : Nat) : pieces start held [] = [] := rfl

theorem pieces_cons_zero (start : Nat) (c : Char) (rest : List Char) : pieces start 0 (c :: rest) =
    ⟨start, c :: rest.take ((Segment.first c rest).width - 1), Segment.first c rest⟩ ::
      pieces (start + c.utf8Size) ((Segment.first c rest).width - 1) rest :=
  rfl

theorem pieces_cons_succ (start held : Nat) (c : Char) (rest : List Char) :
    pieces start (held + 1) (c :: rest) = pieces (start + c.utf8Size) held rest :=
  rfl

/-- The tokens of a source and what was wrong with its spelling. -/
structure Lexing where
  tokens : List Token
  diagnostics : List Diagnostic
  deriving DecidableEq

/-- Cuts a source into tokens, with an end of input after the last. -/
def tokenize (source : String) : Lexing :=
  let cut := pieces 0 0 source.toList
  { tokens := cut.filterMap (·.token?) ++ [EndMark.token ⟨"", .point source.utf8ByteSize⟩]
    diagnostics := cut.filterMap (·.diagnostic?) }

end Cql
