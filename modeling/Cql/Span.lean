/-
Byte ranges of a source text.

A span is a pair of offsets into the UTF-8 form of a text.  Nothing orders the two ends: a span may
be inverted or lie outside the text, and `Span.clamp` is what makes it usable there.

* `Span.cover` — the span from one token to a later one;
* `Span.clamp` — the part of a span inside a text of a given size: ordered, in range
  (`Span.clamp_ordered`, `Span.clamp_stop_le`) and unchanged by a second clamping
  (`Span.clamp_clamp`).
-/
namespace Cql

/-- A range of bytes, from `start` up to but not including `stop`. -/
structure Span where
  start : Nat
  stop : Nat
  deriving DecidableEq, Hashable

namespace Span

/-- The empty span at an offset. -/
def point (offset : Nat) : Span := ⟨offset, offset⟩

/-- From the start of `first` to the end of `last`, but never ending before it starts. -/
def cover (first last : Span) : Span := ⟨first.start, max last.stop first.start⟩

/-- The part of a span that lies in a text of `size` bytes. -/
def clamp (span : Span) (size : Nat) : Span :=
  ⟨min span.start size, max (min span.stop size) (min span.start size)⟩

/-- Number of bytes; none if the span is inverted. -/
def length (span : Span) : Nat := span.stop - span.start

/-- The same range in a text that has `offset` more bytes in front. -/
def shift (span : Span) (offset : Nat) : Span := ⟨span.start + offset, span.stop + offset⟩

theorem clamp_ordered (span : Span) (size : Nat) :
    (span.clamp size).start ≤ (span.clamp size).stop := by
  simp only [clamp]
  omega

theorem clamp_stop_le (span : Span) (size : Nat) : (span.clamp size).stop ≤ size := by
  simp only [clamp]
  omega

/-- A span that is ordered and in range is left alone. -/
theorem clamp_of_valid {span : Span} {size : Nat} (ordered : span.start ≤ span.stop)
    (inside : span.stop ≤ size) : span.clamp size = span := by
  cases span
  simp only [clamp, Span.mk.injEq] at *
  omega

theorem clamp_clamp (span : Span) (size : Nat) : (span.clamp size).clamp size = span.clamp size :=
  clamp_of_valid (clamp_ordered span size) (clamp_stop_le span size)

end Span

end Cql
