/-
Sources cut at line breaks.

A line feed ends every segment but a quoted text and a block comment.  So the tokens of two sources
with a line feed between them are those of the first source and those of the second, as long as
nothing is left open in the first.

* `Token.shift`, `Diagnostic.shift` — the same further to the right;
* `pieces_shift` — the pieces of a text that starts further to the right;
* `tokenize_append_lineFeed` — **the tokens and diagnostics of two sources with a line feed between
  them**.
-/
import Cql.Proofs.Blanks

namespace Cql

open Bytes

/-! ### Further to the right -/

def Piece.shift (piece : Piece) (offset : Nat) : Piece := { piece with start := piece.start + offset }

/-- The same token behind `offset` more bytes. -/
def Token.shift (token : Token) (offset : Nat) : Token :=
  { token with span := token.span.shift offset }

def Label.shift (label : Label) (offset : Nat) : Label :=
  { label with span := label.span.shift offset }

/-- The same diagnostic for a source with `offset` more bytes in front. -/
def Diagnostic.shift (diagnostic : Diagnostic) (offset : Nat) : Diagnostic :=
  { diagnostic with labels := diagnostic.labels.map (·.shift offset) }

theorem pieces_shift (start offset held : Nat) (cs : List Char) :
    pieces (start + offset) held cs = (pieces start held cs).map (·.shift offset) := by
  induction cs generalizing start held with
  | nil => rfl
  | cons c rest ih =>
    cases held with
    | zero =>
      rw [pieces_cons_zero, pieces_cons_zero, Nat.add_right_comm, ih, List.map_cons]
      rfl
    | succ held => rw [pieces_cons_succ, pieces_cons_succ, Nat.add_right_comm, ih]

theorem Piece.token?_shift (piece : Piece) (offset : Nat) :
    (piece.shift offset).token? = piece.token?.map (·.shift offset) := by
  have span : (piece.shift offset).span = piece.span.shift offset := by
    simp only [Piece.span, Piece.shift, Span.shift, Nat.add_right_comm]
  have segment : (piece.shift offset).segment = piece.segment := rfl
  unfold token?
  rw [span, segment]
  cases piece.segment.content with
  | token kind => rfl
  | blank | comment | stray => rfl

theorem Piece.diagnostic?_shift (piece : Piece) (offset : Nat) :
    (piece.shift offset).diagnostic? = piece.diagnostic?.map (·.shift offset) := by
  show piece.segment.problem.map (·.diagnostic (piece.start + offset) piece.text) = _
  rw [diagnostic?, Option.map_map]
  congr 1
  funext problem
  simp only [Function.comp, LexicalProblem.diagnostic, Diagnostic.shift, Label.shift, Span.shift,
    List.map_cons, List.map_nil, Nat.add_right_comm]

theorem tokens_shift (cut : List Piece) (offset : Nat) :
    (cut.map (·.shift offset)).filterMap (·.token?)
      = (cut.filterMap (·.token?)).map (·.shift offset) := by
  rw [List.filterMap_map, List.map_filterMap]
  exact List.filterMap_congr fun piece _ => piece.token?_shift offset

theorem diagnostics_shift (cut : List Piece) (offset : Nat) :
    (cut.map (·.shift offset)).filterMap (·.diagnostic?)
      = (cut.filterMap (·.diagnostic?)).map (·.shift offset) := by
  rw [List.filterMap_map, List.map_filterMap]
  exact List.filterMap_congr fun piece _ => piece.diagnostic?_shift offset

/-! ### Two sources -/

/-- A source of which no diagnostic says that something is left open. -/
def Lexing.Closed (lexing : Lexing) : Prop :=
  ∀ diagnostic ∈ lexing.diagnostics, diagnostic.message ≠ "unclosed string literal" ∧
    diagnostic.message ≠ "unclosed quoted identifier" ∧
    diagnostic.message ≠ "unclosed block comment"

instance (lexing : Lexing) : Decidable lexing.Closed :=
  inferInstanceAs (Decidable (∀ diagnostic ∈ lexing.diagnostics, _))

theorem closed_of_mem_pieces {source : String} (closed : (tokenize source).Closed) {piece : Piece}
    (mem : piece ∈ pieces 0 0 source.toList) : piece.segment.Closed := by
  have reported {problem : LexicalProblem} (found : piece.segment.problem = some problem) :
      problem.diagnostic piece.start piece.text ∈ (tokenize source).diagnostics := by
    refine List.mem_filterMap.2 ⟨piece, mem, ?_⟩
    rw [Piece.diagnostic?, found]
    rfl
  refine ⟨?_, ?_, ?_⟩
  · intro found
    exact (closed _ (reported found)).1 rfl
  · intro found
    exact (closed _ (reported found)).2.1 rfl
  · intro found
    exact (closed _ (reported found)).2.2 rfl

theorem pieces_append_lineFeed {a b : String} (closed : (tokenize a).Closed) :
    pieces 0 0 (a ++ "\n" ++ b).toList = pieces 0 0 a.toList ++
      ⟨a.utf8ByteSize, ['\n'], ⟨1, .blank, none⟩⟩ ::
        (pieces 0 0 b.toList).map (·.shift (a.utf8ByteSize + 1)) := by
  have text : (a ++ "\n" ++ b).toList = a.toList ++ '\n' :: b.toList := by
    simp [String.toList_append]
  have ends : ∀ piece ∈ pieces 0 0 a.toList, Segment.EndsBefore '\n' piece.segment :=
    fun piece mem => ⟨closed_of_mem_pieces closed mem, fun _ => rfl⟩
  have behind := pieces_shift 0 (a.utf8ByteSize + 1) 0 b.toList
  rw [Nat.zero_add] at behind
  rw [text, pieces_append_blank rfl ends, Nat.zero_add, size_toList, ← behind]
  rfl

/-- **Lexing is compositional at line breaks.**  If nothing is left open in `a`, the tokens of `a` and
`b` with a line feed between them are those of `a` without its end, and those of `b` behind the bytes
of `a` and the line feed; so are the diagnostics. -/
theorem tokenize_append_lineFeed (a b : String) (closed : (tokenize a).Closed) :
    (tokenize (a ++ "\n" ++ b)).tokens = (tokenize a).tokens.dropLast ++
        (tokenize b).tokens.map (·.shift (a.utf8ByteSize + 1)) ∧
      (tokenize (a ++ "\n" ++ b)).diagnostics = (tokenize a).diagnostics ++
        (tokenize b).diagnostics.map (·.shift (a.utf8ByteSize + 1)) := by
  have cut : pieces 0 0 (a ++ "\n" ++ b).toList = _ := pieces_append_lineFeed closed
  have lineFeed : ("\n" : String).utf8ByteSize = 1 := rfl
  have size : (a ++ "\n" ++ b).utf8ByteSize = b.utf8ByteSize + (a.utf8ByteSize + 1) := by
    rw [String.utf8ByteSize_append, String.utf8ByteSize_append, lineFeed, Nat.add_comm]
  constructor
  · simp only [tokenize, cut, size, List.filterMap_append, List.dropLast_concat, List.map_append,
      List.append_assoc, ← tokens_shift]
    rfl
  · simp only [tokenize, cut, List.filterMap_append, ← diagnostics_shift]
    rfl

theorem tokenize_append_lineFeed_hex :
    (tokenize "'x' -- c").Closed ∧
      (tokenize ("'x' -- c" ++ "\n" ++ "0xz")).tokens = (tokenize "'x' -- c").tokens.dropLast ++
        (tokenize "0xz").tokens.map (·.shift ("'x' -- c".utf8ByteSize + 1)) ∧
      (tokenize ("'x' -- c" ++ "\n" ++ "0xz")).diagnostics = (tokenize "'x' -- c").diagnostics ++
        (tokenize "0xz").diagnostics.map (·.shift ("'x' -- c".utf8ByteSize + 1)) :=
  ⟨by decide, tokenize_append_lineFeed "'x' -- c" "0xz" (by decide)⟩

end Cql
