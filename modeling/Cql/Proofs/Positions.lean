/-
Lines and columns.

From one character to the next, the position moves one column to the right or to the next line.  So the
positions of offsets between characters ascend, and they are the ones that a scan of the text comes by.  An
offset inside a character does not fit in: it is given the position of the end, and every boundary in front
of the end is in front of that.

* `Source.positionAfter_concat` — the position behind one more character;
* `Source.positionAfter_lt` — positions ascend, by lines and then by columns;
* `Source.positionAfter_eq_scan` — a position is found by scanning what stands in front of it;
* `Source.lineCol_of_boundary`, `Source.lineCol_of_not_boundary` — offsets between characters, and others;
* `Source.lineCol_le_iff` — **when positions are in the order of their offsets**;
* `Source.not_lineCol_monotone` — an offset inside a character, and the boundary behind it;
* `Source.lineCol_identifies` — **positions tell offsets between characters apart**;
* `Offsets.lineCol?_eq` — positions found by byte offsets and slices, none of which fails.
-/
import Mathlib.Data.Prod.Lex
import Mathlib.Order.Monotone.Defs
import Cql.Diagnostic.Source
import Cql.Proofs.DiagnosticSpans

namespace Cql

open Bytes

/-- In front of an offset inside a character, or behind the end, there is no whole number of characters. -/
theorem Bytes.before?_eq_none {offset : Nat} {cs : List Char} (other : ¬ IsBoundary offset cs) :
    before? offset cs = none := by
  rw [Option.eq_none_iff_forall_ne_some]
  intro before found
  obtain ⟨sized, after, split⟩ := before?_eq_some.1 found
  exact other ⟨before, after, split, sized⟩

namespace Source

/-! ### Positions behind characters -/

/-- The position behind one more character. -/
theorem positionAfter_concat (cs : List Char) (c : Char) : positionAfter (cs ++ [c]) =
    if c = '\n' then ((positionAfter cs).1 + 1, 1)
    else ((positionAfter cs).1, (positionAfter cs).2 + 1) := by
  unfold positionAfter
  rw [List.count_append, List.reverse_concat]
  by_cases lineFeed : c = '\n'
  · subst lineFeed
    simp
  · simp [lineFeed]

/-- A position is in front of the one behind one more character. -/
theorem positionAfter_lt_concat (cs : List Char) (c : Char) :
    toLex (positionAfter cs) < toLex (positionAfter (cs ++ [c])) := by
  rw [positionAfter_concat, Prod.Lex.toLex_lt_toLex]
  split
  · exact .inl (Nat.lt_succ_self _)
  · exact .inr ⟨rfl, Nat.lt_succ_self _⟩

/-- Positions ascend, by lines and then by columns. -/
theorem positionAfter_lt (front : List Char) {more : List Char} (some : more ≠ []) :
    toLex (positionAfter front) < toLex (positionAfter (front ++ more)) := by
  induction more generalizing front with
  | nil => exact absurd rfl some
  | cons c more ih =>
    have step := positionAfter_lt_concat front c
    rw [← List.singleton_append, ← List.append_assoc]
    by_cases last : more = []
    · rw [last, List.append_nil]
      exact step
    · exact step.trans (ih (front ++ [c]) last)

theorem positionAfter_le (front more : List Char) :
    toLex (positionAfter front) ≤ toLex (positionAfter (front ++ more)) := by
  by_cases none : more = []
  · rw [none, List.append_nil]
  · exact (positionAfter_lt front none).le

/-- The position behind one more character of a scan: column one of the next line behind a line feed, and
one column further behind any other character. -/
def move (position : Nat × Nat) (c : Char) : Nat × Nat :=
  if c = '\n' then (position.1 + 1, 1) else (position.1, position.2 + 1)

/-- The position behind some characters, found by scanning them from the left. -/
def scan (cs : List Char) : Nat × Nat := cs.foldl move (1, 1)

/-- Counting line feeds, and the characters behind the last of them, comes to the same as scanning. -/
theorem positionAfter_eq_scan (cs : List Char) : positionAfter cs = scan cs := by
  induction cs using List.reverseRecOn with
  | nil => rfl
  | append_singleton cs c ih =>
    rw [positionAfter_concat, ih]
    unfold scan
    rw [List.foldl_append]
    rfl

/-! ### Positions of offsets -/

section

variable (source : Source) {offset : Nat}

/-- The position of a boundary is the one behind the characters in front of it. -/
theorem lineCol_of_boundary {before after : List Char} (split : source.content.toList = before ++ after) :
    source.lineCol (Bytes.size before) = positionAfter before := by
  have found : before? (Bytes.size before) source.content.toList = some before :=
    before?_eq_some.2 ⟨rfl, after, split⟩
  simp only [lineCol, found, Option.getD_some]

/-- Any other offset is given the position of the end. -/
theorem lineCol_of_not_boundary (other : ¬ IsBoundary offset source.content.toList) :
    source.lineCol offset = positionAfter source.content.toList := by
  simp only [lineCol, before?_eq_none other, Option.getD_none]

/-- No position is behind that of the end. -/
theorem lineCol_le_end (offset : Nat) :
    toLex (source.lineCol offset) ≤ toLex (positionAfter source.content.toList) := by
  by_cases boundary : IsBoundary offset source.content.toList
  · obtain ⟨before, after, split, rfl⟩ := boundary
    rw [source.lineCol_of_boundary split, split]
    exact positionAfter_le before after
  · exact (congrArg toLex (source.lineCol_of_not_boundary boundary)).le

/-- Only the end of the text, among its boundaries, has the position of the end. -/
theorem lineCol_lt_end (boundary : IsBoundary offset source.content.toList) (inFront : offset < source.size) :
    toLex (source.lineCol offset) < toLex (positionAfter source.content.toList) := by
  obtain ⟨before, after, split, rfl⟩ := boundary
  have some : after ≠ [] := by
    rintro rfl
    rw [List.append_nil] at split
    rw [← split, size_toList] at inFront
    exact Nat.lt_irrefl _ inFront
  rw [source.lineCol_of_boundary split, split]
  exact positionAfter_lt before some

end

/-- Of two boundaries, the one in front has the position in front. -/
theorem lineCol_lt_of_boundaries (source : Source) {a b : Nat} (ordered : a < b)
    (first : IsBoundary a source.content.toList) (second : IsBoundary b source.content.toList) :
    toLex (source.lineCol a) < toLex (source.lineCol b) := by
  obtain ⟨before, after, split, rfl⟩ := first
  obtain ⟨before', after', split', rfl⟩ := second
  rw [source.lineCol_of_boundary split, source.lineCol_of_boundary split']
  rcases List.prefix_or_prefix_of_prefix ⟨after, split.symm⟩ ⟨after', split'.symm⟩ with
    ⟨more, rfl⟩ | ⟨more, rfl⟩
  · refine positionAfter_lt before ?_
    rintro rfl
    rw [List.append_nil] at ordered
    exact Nat.lt_irrefl _ ordered
  · -- What stands in front of the former boundary cannot be longer than what stands in front of the latter.
    rw [size_append] at ordered
    omega

theorem lineCol_le_of_boundaries (source : Source) {a b : Nat} (ordered : a ≤ b)
    (first : IsBoundary a source.content.toList) (second : IsBoundary b source.content.toList) :
    toLex (source.lineCol a) ≤ toLex (source.lineCol b) := by
  rcases Nat.lt_or_eq_of_le ordered with before | rfl
  · exact (source.lineCol_lt_of_boundaries before first second).le
  · exact le_rfl

/-- The offset is inside a character: in front of the end, but not between two characters. -/
def IsInside (source : Source) (offset : Nat) : Prop :=
  offset < source.size ∧ ¬ IsBoundary offset source.content.toList

/-- **When positions are in the order of their offsets.**  The position of an offset that is not behind
another one is not behind the position of that one, unless the former offset is inside a character and the
latter is a boundary in front of the end.  In particular positions ascend over all boundaries and all
offsets behind the end. -/
theorem lineCol_le_iff (source : Source) {a b : Nat} (ordered : a ≤ b) :
    toLex (source.lineCol a) ≤ toLex (source.lineCol b) ↔
      ¬ (source.IsInside a ∧ IsBoundary b source.content.toList ∧ b < source.size) := by
  constructor
  · rintro le ⟨⟨-, inside⟩, boundary, inFront⟩
    rw [source.lineCol_of_not_boundary inside] at le
    exact absurd (source.lineCol_lt_end boundary inFront) (not_lt.2 le)
  · intro apart
    by_cases second : IsBoundary b source.content.toList
    · by_cases first : IsBoundary a source.content.toList
      · exact source.lineCol_le_of_boundaries ordered first second
      -- An offset that is no boundary is inside a character or behind the end, and then so is the other one.
      have atEnd : source.size ≤ b := by
        by_contra inFront
        exact apart ⟨⟨by omega, first⟩, second, by omega⟩
      have last : b = Bytes.size source.content.toList := by
        have within := second.le_size
        rw [size_toList]
        exact Nat.le_antisymm within atEnd
      rw [last, source.lineCol_of_boundary (List.append_nil _).symm]
      exact source.lineCol_le_end a
    · rw [source.lineCol_of_not_boundary second]
      exact source.lineCol_le_end a

/-- Inside the first character, and behind the end. -/
theorem lineCol_le_behind_end : 1 ≤ 500 ∧
    toLex (lineCol ⟨"é\nx", none⟩ 1) ≤ toLex (lineCol ⟨"é\nx", none⟩ 500) := by
  refine ⟨by decide, (lineCol_le_iff ⟨"é\nx", none⟩ (by decide)).2 ?_⟩
  rintro ⟨-, -, inFront⟩
  exact absurd inFront (by decide)

/-- The offset inside the first character has the position of the end, two bytes further on. -/
theorem not_lineCol_monotone : ¬ ∀ (source : Source) (a b : Nat), a ≤ b →
    toLex (source.lineCol a) ≤ toLex (source.lineCol b) := by
  intro monotone
  have le := monotone ⟨"é\nx", none⟩ 1 2 (by decide)
  have first : lineCol ⟨"é\nx", none⟩ 1 = (2, 2) := by decide +kernel
  have second : lineCol ⟨"é\nx", none⟩ 2 = (1, 2) := by decide +kernel
  rw [first, second] at le
  exact absurd le (by decide)

/-- **Positions tell offsets between characters apart.**  In any text, the positions of its boundaries
ascend with them, by lines and then by columns, and no two boundaries have one position.  The position of a
boundary is the one that a scan of the characters in front of it comes to, and every offset behind the end
has the position of the end. -/
theorem lineCol_identifies (source : Source) :
    StrictMonoOn (fun offset => toLex (source.lineCol offset))
        {offset | IsBoundary offset source.content.toList} ∧
      Set.InjOn source.lineCol {offset | IsBoundary offset source.content.toList} ∧
      (∀ before after, source.content.toList = before ++ after →
        source.lineCol (Bytes.size before) = scan before) ∧
      ∀ offset, source.size ≤ offset → source.lineCol offset = source.lineCol source.size := by
  have ascending : StrictMonoOn (fun offset => toLex (source.lineCol offset))
      {offset | IsBoundary offset source.content.toList} :=
    fun _ first _ second ordered => source.lineCol_lt_of_boundaries ordered first second
  refine ⟨ascending, fun a first b second same => ?_, fun before after split => ?_, fun offset behind => ?_⟩
  · exact ascending.injOn first second (congrArg toLex same)
  · rw [source.lineCol_of_boundary split, positionAfter_eq_scan]
  · have whole : source.lineCol source.size = positionAfter source.content.toList := by
      rw [size, ← size_toList]
      exact source.lineCol_of_boundary (List.append_nil _).symm
    rcases Nat.lt_or_eq_of_le behind with past | rfl
    · have other : ¬ IsBoundary offset source.content.toList :=
        fun boundary => Nat.not_le.2 past boundary.le_size
      rw [source.lineCol_of_not_boundary other, whole]
    · rfl

/-- A boundary behind two bytes of one character, an empty line, and an offset behind the end. -/
theorem lineCol_identifies_emptyLine :
    lineCol ⟨"é\n\nx", none⟩ 3 = (2, 1) ∧ lineCol ⟨"é\n\nx", none⟩ 4 ≠ (2, 1) ∧
      lineCol ⟨"é\n\nx", none⟩ 500 = (3, 2) := by
  obtain ⟨-, distinct, scanned, behind⟩ := lineCol_identifies ⟨"é\n\nx", none⟩
  have second : lineCol ⟨"é\n\nx", none⟩ 3 = (2, 1) := scanned ['é', '\n'] ['\n', 'x'] (by decide +kernel)
  have boundary : IsBoundary 3 "é\n\nx".toList := ⟨['é', '\n'], ['\n', 'x'], by decide +kernel, by decide⟩
  have boundary' : IsBoundary 4 "é\n\nx".toList := ⟨['é', '\n', '\n'], ['x'], by decide +kernel, by decide⟩
  refine ⟨second, fun same => ?_, ?_⟩
  · exact absurd (distinct boundary' boundary (same.trans second.symm)) (by decide)
  · rw [behind 500 (by decide)]
    decide +kernel

end Source

/-! ### Positions by byte offsets -/

namespace Offsets

/-- Byte offset of the last place where a character stands. -/
def lastOffset? (c : Char) : List Char → Option Nat
  | [] => none
  | d :: cs => ((lastOffset? c cs).map (d.utf8Size + ·)).or (if d = c then some 0 else none)

/-- Line and column of a byte offset.  Line feeds are counted in the slice in front of the offset, or in the
whole text where that slice fails, and the column is counted in the slice of it that begins behind its last
line feed. -/
def lineCol? (source : Source) (offset : Nat) : Option (Nat × Nat) := do
  let before := (slice? 0 (min offset source.size) source.content.toList).getD source.content.toList
  let start := (lastOffset? '\n' before).elim 0 (· + 1)
  let column ← slice? start (size before) before
  return (before.count '\n' + 1, column.length + 1)

theorem lastOffset?_concat (c d : Char) (cs : List Char) :
    lastOffset? c (cs ++ [d]) = if d = c then some (size cs) else lastOffset? c cs := by
  induction cs with
  | nil => simp [lastOffset?, size]
  | cons e cs ih =>
    rw [List.cons_append, lastOffset?, ih]
    by_cases last : d = c
    · simp [last, size]
    · simp [last, lastOffset?]

/-- What stands behind the last line feed begins at a boundary. -/
theorem exists_lastLine (cs : List Char) : ∃ front,
    cs = front ++ (cs.reverse.takeWhile (· ≠ '\n')).reverse ∧
      size front = (lastOffset? '\n' cs).elim 0 (· + 1) := by
  induction cs using List.reverseRecOn with
  | nil => exact ⟨[], rfl, rfl⟩
  | append_singleton cs c ih =>
    obtain ⟨front, split, sized⟩ := ih
    rw [lastOffset?_concat, List.reverse_concat]
    by_cases lineFeed : c = '\n'
    · subst lineFeed
      refine ⟨cs ++ ['\n'], by simp, ?_⟩
      rw [if_pos rfl, size_append]
      rfl
    · refine ⟨front, ?_, by rw [if_neg lineFeed, sized]⟩
      rw [List.takeWhile_cons_of_pos (by simpa using lineFeed), List.reverse_cons, ← List.append_assoc,
        ← split]

theorem slice?_lastLine (cs : List Char) :
    slice? ((lastOffset? '\n' cs).elim 0 (· + 1)) (size cs) cs =
      some (cs.reverse.takeWhile (· ≠ '\n')).reverse := by
  obtain ⟨front, split, sized⟩ := exists_lastLine cs
  refine slice?_eq_some.2 ⟨front, [], by rwa [List.append_nil], sized, ?_⟩
  rw [← sized, ← size_append, ← split]

/-- In front of an offset that lies behind the end stands the whole text. -/
theorem slice?_min (source : Source) (offset : Nat) :
    (slice? 0 (min offset source.size) source.content.toList).getD source.content.toList =
      (before? offset source.content.toList).getD source.content.toList := by
  have fromStart : ∀ stop, slice? 0 stop source.content.toList = before? stop source.content.toList :=
    fun stop => by simp [slice?, before?]
  rw [fromStart]
  rcases Nat.lt_or_ge source.size offset with past | within
  · have whole : before? source.size source.content.toList = some source.content.toList :=
      before?_eq_some.2 ⟨size_toList _, [], (List.append_nil _).symm⟩
    have other : ¬ IsBoundary offset source.content.toList :=
      fun boundary => Nat.not_le.2 past boundary.le_size
    rw [Nat.min_eq_right past.le, whole, before?_eq_none other]
    rfl
  · rw [Nat.min_eq_left within]

/-- **No slice begins inside a character**, and the position is the one that is told from characters. -/
theorem lineCol?_eq (source : Source) (offset : Nat) :
    lineCol? source offset = some (source.lineCol offset) := by
  unfold lineCol?
  simp only [slice?_min, slice?_lastLine, Option.bind_eq_bind, Option.bind_some, List.length_reverse]
  rfl

end Offsets

end Cql
