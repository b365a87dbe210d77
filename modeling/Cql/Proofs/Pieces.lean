/-
How a text is cut into pieces.

The pieces stand one after another, from the start of the text to its end, and each of them is the
segment that the scanner finds in its place.

* `pieces_cons` — the first piece, and the pieces of the rest;
* `Piece.At` — where a piece stands, and what it is;
* `at_of_mem_pieces`, `exists_piece`, `pairwise_pieces` — the pieces cover the text without overlap.
-/
import Mathlib.Data.List.Pairwise
import Cql.Proofs.Segments
import Cql.Token.Lexing

namespace Cql

open Bytes

theorem Bytes.size_eq_zero {cs : List Char} : size cs = 0 ↔ cs = [] := by
  cases cs with
  | nil => simp [size]
  | cons c cs =>
    have := c.utf8Size_pos
    simp only [size, reduceCtorEq, iff_false]
    omega

/-! ### One piece after another -/

theorem pieces_held (start held : Nat) (cs : List Char) :
    pieces start held cs = pieces (start + size (cs.take held)) 0 (cs.drop held) := by
  induction cs generalizing start held with
  | nil => simp
  | cons c rest ih =>
    cases held with
    | zero => simp [size]
    | succ held =>
      rw [pieces_cons_succ, ih, List.take_succ_cons, List.drop_succ_cons, size, Nat.add_assoc]

/-- The first piece has the characters of the first segment; the others are those of the rest. -/
theorem pieces_cons (start : Nat) (c : Char) (rest : List Char) :
    pieces start 0 (c :: rest) =
      ⟨start, (c :: rest).take (Segment.first c rest).width, Segment.first c rest⟩ ::
        pieces (start + size ((c :: rest).take (Segment.first c rest).width)) 0
          ((c :: rest).drop (Segment.first c rest).width) := by
  obtain ⟨width, same⟩ := Nat.exists_eq_succ_of_ne_zero (Nat.ne_of_gt (Segment.first_width_pos c rest))
  rw [pieces_cons_zero, same, pieces_held, List.take_succ_cons, List.drop_succ_cons, size, Nat.succ_sub_one,
    Nat.add_assoc]

/-- The first piece by its characters. -/
theorem pieces_append {start : Nat} {text after : List Char} {segment : Segment} {c : Char}
    {rest : List Char} (split : text ++ after = c :: rest) (same : Segment.first c rest = segment)
    (width : segment.width = text.length) :
    pieces start 0 (text ++ after)
      = ⟨start, text, segment⟩ :: pieces (start + size text) 0 after := by
  rw [split, pieces_cons, same, width, ← split, List.take_left, List.drop_left]

/-- A text is empty, or it is a piece and a text of which the same is known. -/
theorem cut_induction {motive : List Char → Prop} (nil : motive [])
    (cons : ∀ c rest, motive ((c :: rest).drop (Segment.first c rest).width) → motive (c :: rest))
    (cs : List Char) : motive cs :=
  match cs with
  | [] => nil
  | c :: rest => cons c rest (cut_induction nil cons _)
termination_by cs.length
decreasing_by
  have positive := Segment.first_width_pos c rest
  rw [List.length_drop, List.length_cons]
  omega

/-! ### Where a piece stands -/

/-- The piece is the segment in front of what is left of `cs` after `before`, if `cs` starts at byte
`start`. -/
structure Piece.At (start : Nat) (cs : List Char) (piece : Piece) (before after : List Char) : Prop where
  split : cs = before ++ (piece.text ++ after)
  start_eq : piece.start = start + size before
  nonempty : piece.text ≠ []
  reads : Segment.Reads piece.text after piece.segment
  first : ∃ c rest, piece.text ++ after = c :: rest ∧ piece.segment = Segment.first c rest

theorem Piece.At.start_lt_stop {start : Nat} {cs before after : List Char} {piece : Piece}
    (standing : piece.At start cs before after) : piece.span.start < piece.span.stop := by
  have := mt size_eq_zero.1 standing.nonempty
  show piece.start < piece.start + size piece.text
  omega

theorem Piece.At.stop_le {start : Nat} {cs before after : List Char} {piece : Piece}
    (standing : piece.At start cs before after) : piece.span.stop ≤ start + size cs := by
  have start_eq := standing.start_eq
  show piece.start + size piece.text ≤ start + size cs
  rw [standing.split, size_append, size_append]
  omega

theorem at_of_mem_pieces {start : Nat} {cs : List Char} {piece : Piece}
    (mem : piece ∈ pieces start 0 cs) : ∃ before after, piece.At start cs before after := by
  induction cs using cut_induction generalizing start with
  | nil => simp at mem
  | cons c rest ih =>
    obtain ⟨text, after, split, reads⟩ := Segment.reads_first c rest
    have positive := Segment.first_width_pos c rest
    have width := reads.width_eq
    rw [width, split, List.drop_left] at ih
    rw [split, pieces_append split.symm rfl width] at mem
    rcases List.mem_cons.1 mem with rfl | mem
    · refine ⟨[], after, split, rfl, ?_, reads, c, rest, split.symm, rfl⟩
      show text ≠ []
      exact List.ne_nil_of_length_pos (by omega)
    · obtain ⟨before, after', piece⟩ := ih mem
      refine ⟨text ++ before, after', ?_, ?_, piece.nonempty, piece.reads, piece.first⟩
      · rw [split, piece.split, List.append_assoc]
      · rw [piece.start_eq, size_append, Nat.add_assoc]

/-- Every byte belongs to a piece. -/
theorem exists_piece {start byte : Nat} {cs : List Char} (above : start ≤ byte)
    (below : byte < start + size cs) :
    ∃ piece ∈ pieces start 0 cs, piece.span.start ≤ byte ∧ byte < piece.span.stop := by
  induction cs using cut_induction generalizing start with
  | nil =>
    rw [size] at below
    omega
  | cons c rest ih =>
    obtain ⟨text, after, split, reads⟩ := Segment.reads_first c rest
    have width := reads.width_eq
    rw [width, split, List.drop_left] at ih
    rw [split, size_append] at below
    rw [split, pieces_append split.symm rfl width]
    by_cases inside : byte < start + size text
    · exact ⟨_, List.mem_cons_self, above, inside⟩
    · have behind : start + size text ≤ byte := by omega
      obtain ⟨piece, mem, covers⟩ := ih behind (by omega)
      exact ⟨piece, List.mem_cons_of_mem _ mem, covers⟩

/-- No piece begins before the one in front of it has ended. -/
theorem pairwise_pieces (start : Nat) (cs : List Char) :
    (pieces start 0 cs).Pairwise fun first second => first.span.stop ≤ second.span.start := by
  induction cs using cut_induction generalizing start with
  | nil => simp
  | cons c rest ih =>
    rw [pieces_cons, List.pairwise_cons]
    refine ⟨fun piece mem => ?_, ih _⟩
    obtain ⟨before, after, piece⟩ := at_of_mem_pieces mem
    show start + size _ ≤ _
    rw [Piece.span, piece.start_eq]
    exact Nat.le_add_right _ _

/-- Two pieces have no byte in common. -/
theorem span_disjoint {start : Nat} {cs : List Char} {first second : Piece}
    (mem : first ∈ pieces start 0 cs) (mem' : second ∈ pieces start 0 cs) (distinct : first ≠ second) :
    first.span.stop ≤ second.span.start ∨ second.span.stop ≤ first.span.start := by
  let Apart (first second : Piece) : Prop :=
    first.span.stop ≤ second.span.start ∨ second.span.stop ≤ first.span.start
  have symmetric : Std.Symm Apart := ⟨fun _ _ => Or.symm⟩
  have apart : (pieces start 0 cs).Pairwise Apart := (pairwise_pieces start cs).imp .inl
  exact apart.forall mem mem' distinct

end Cql
