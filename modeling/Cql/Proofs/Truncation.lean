/-
Texts that end earlier.

A scanner looks ahead, and a text that is cut off ends its look-ahead sooner.  Still the segments in
front of the cut are the same: whatever is longest in the shorter text is in front of the longer one as
well, and what was found there still fits.

* `Segment.first_of_isPrefix` — **a sound segment stays what it is** if the text is cut off behind it;
* `Piece.texts` — what pieces spell;
* `pieces_split` — pieces in front, and the pieces of what is behind them;
* `pieces_append_of_isPrefix` — sound pieces stay what they are in a text that is cut off behind them;
* `pieces_of_isPrefix` — sound pieces are all the pieces of what they spell.
-/
import Cql.Proofs.Pieces
import Cql.Proofs.TokenSelection

namespace Cql

open Bytes

namespace Segment

open Lexical

/-! ### Gaps -/

theorem takeWhile_of_isPrefix {p : Char → Bool} {front cs : List Char} (h : front <+: cs)
    (short : (cs.takeWhile p).length ≤ front.length) : front.takeWhile p = cs.takeWhile p := by
  have run : cs.takeWhile p <+: front :=
    List.prefix_of_prefix_length_le (List.takeWhile_prefix p) h short
  obtain ⟨after, rfl⟩ := h
  have within : front.takeWhile p <+: (front ++ after).takeWhile p :=
    prefix_takeWhile (fun _ => of_mem_takeWhile) ((List.takeWhile_prefix p).trans (List.prefix_append _ _))
  refine within.eq_of_length_le ?_
  exact (prefix_takeWhile (fun _ => of_mem_takeWhile) run).length_le

theorem closingWidth?_of_isPrefix {front cs : List Char} {width : Nat} (h : front <+: cs)
    (closes : closingWidth? cs = some width) (short : width ≤ front.length) :
    closingWidth? front = some width := by
  obtain ⟨after, rfl⟩ := h
  have two : ∀ {cs : List Char} {width : Nat}, closingWidth? cs = some width → 2 ≤ width := by
    intro cs width closes
    rcases closingWidth?_cases cs with ⟨body, -, -, closes', -⟩ | ⟨none, -⟩
    · rw [closes, Option.some.injEq] at closes'
      omega
    · rw [closes] at none
      cases none
  fun_induction closingWidth? front generalizing width with
  | case1 =>
    have := two closes
    simp at short
    omega
  | case2 c =>
    have := two closes
    simp at short
    omega
  | case3 c d cs closed =>
    simpa [closingWidth?, closed] using closes
  | case4 c d cs goesOn ih =>
    simp only [List.cons_append, closingWidth?, if_neg goesOn, Option.map_eq_some_iff] at closes
    obtain ⟨width, closes, rfl⟩ := closes
    rw [ih (by simpa using short) closes, Option.map_some]

theorem gap?_eq_none_iff {c : Char} {rest : List Char} : gap? c rest = none ↔ ¬ isBlank c = true ∧
    ¬ ((c = '-' ∧ rest.head? = some '-') ∨ (c = '/' ∧ rest.head? = some '/')) ∧
      ¬ (c = '/' ∧ rest.head? = some '*') := by
  unfold gap?
  split
  · simp [*]
  split
  · simp [*]
  split
  · simp [*]
  · simp [*]

section

variable {c : Char} {rest rest' : List Char} (h : rest' <+: rest)
include h

/-- Where no blank and no comment begins, none begins in a shorter text. -/
theorem gap?_of_isPrefix (gap : gap? c rest = none) : gap? c rest' = none := by
  have longer : ∀ {d : Char}, rest'.head? = some d → rest.head? = some d := by
    intro d head
    obtain ⟨more, rfl⟩ := List.head?_eq_some_iff.1 head
    obtain ⟨after, rfl⟩ := h
    rfl
  obtain ⟨notBlank, notLine, notBlock⟩ := gap?_eq_none_iff.1 gap
  refine gap?_eq_none_iff.2 ⟨notBlank, fun line => notLine ?_, fun block => notBlock ?_⟩
  · exact line.imp (And.imp_right longer) (And.imp_right longer)
  · exact block.imp_right longer

/-- A blank stays what it is, and so does a comment that ends in the shorter text. -/
theorem gap?_eq_of_isPrefix {segment : Segment} (gap : gap? c rest = some segment)
    (long : segment.width ≤ rest'.length + 1) (sound : segment.problem = none) :
    gap? c rest' = some segment := by
  unfold gap? at gap ⊢
  split at gap
  · rename_i blank
    rw [if_pos blank, gap]
  rename_i notBlank
  rw [if_neg notBlank]
  have opened : ∀ {d : Char}, rest.head? = some d → 2 ≤ segment.width →
      ∃ more more', rest = d :: more ∧ rest' = d :: more' ∧ more' <+: more := by
    intro d head wide
    obtain ⟨more, rfl⟩ := List.head?_eq_some_iff.1 head
    cases rest' with
    | nil =>
      simp at long
      omega
    | cons e more' =>
      obtain ⟨rfl, shorter⟩ := List.cons_prefix_cons.1 h
      exact ⟨more, more', rfl, rfl, shorter⟩
  split at gap
  · rename_i line
    obtain rfl := Option.some.inj gap
    have wide : 2 ≤ (lineComment (rest.drop 1)).width := Nat.le_add_right _ _
    obtain ⟨more, more', rfl, rfl, shorter⟩ : ∃ more more', rest = c :: more ∧ rest' = c :: more' ∧
        more' <+: more := by
      rcases line with ⟨rfl, head⟩ | ⟨rfl, head⟩
      · exact opened head wide
      · exact opened head wide
    rw [if_pos (by simpa using line)]
    simp only [List.drop_one, List.tail_cons, lineComment, List.length_cons] at long ⊢
    rw [takeWhile_of_isPrefix shorter (by omega)]
  split at gap
  · rename_i notLine block
    obtain ⟨rfl, head⟩ := block
    obtain rfl := Option.some.inj gap
    have closed : ∃ width, closingWidth? (rest.drop 1) = some width := by
      cases found : closingWidth? (rest.drop 1) with
      | none =>
        rw [blockComment, found] at sound
        cases sound
      | some width => exact ⟨width, rfl⟩
    obtain ⟨width, closes⟩ := closed
    have wide : (blockComment (rest.drop 1)).width = 2 + width := by rw [blockComment, closes]
    obtain ⟨more, more', rfl, rfl, shorter⟩ := opened head (by omega)
    rw [wide, List.length_cons] at long
    simp only [List.drop_one, List.tail_cons] at closes ⊢
    rw [if_neg (by simp), if_pos (by simp), blockComment, blockComment, closes,
      closingWidth?_of_isPrefix shorter closes (by omega)]
  · cases gap

end

/-! ### Tokens -/

section

variable {c : Char} {rest rest' : List Char} (h : rest' <+: rest)
include h

/-- Where no blank, comment or UUID begins, a shorter text has no longer segment. -/
theorem width_le_of_isPrefix (gap : gap? c rest = none)
    (notUuid : ¬ startsWith uuidForm (c :: rest) = true) :
    (first c rest').width ≤ (first c rest).width := by
  have gap' := gap?_of_isPrefix h gap
  obtain ⟨text, after, split, reads⟩ := reads_first c rest'
  have front : text <+: c :: rest := by
    refine List.IsPrefix.trans ⟨after, split.symm⟩ ?_
    exact List.cons_prefix_cons.2 ⟨rfl, h⟩
  have positive := first_width_pos c rest
  rw [reads.width_eq]
  generalize first c rest' = segment at reads
  cases reads with
  | blank blank =>
    obtain ⟨rfl, -⟩ := List.cons.inj split
    simp [gap?, blank] at gap
  | comment comment =>
    cases comment with
    | line opens =>
      obtain ⟨rfl, same⟩ := List.cons.inj split
      rw [same] at gap'
      rcases opens with rfl | rfl
      · simp [gap?, isBlank] at gap'
      · simp [gap?, isBlank] at gap'
    | block | unclosed =>
      obtain ⟨rfl, same⟩ := List.cons.inj split
      rw [same] at gap'
      simp [gap?, isBlank] at gap'
  | uuid mem => exact absurd (startsWith_uuidForm_iff.2 ⟨text, mem, front⟩) notUuid
  | token spells => exact (covers_of_spells gap notUuid front spells).le_width
  | unclosed unclosed =>
    -- The quotes in the shorter text are all doubled, so the longer one is read beyond them.
    rw [List.append_nil] at split
    obtain ⟨more, rfl⟩ := h
    cases unclosed with
    | string value =>
      obtain ⟨rfl, rfl⟩ := List.cons.inj split
      have le := le_width_read '\'' value more
      rw [first_of_quote gap notUuid (.inl rfl) rfl, if_pos rfl, stringAfterQuote, List.length_cons]
      show _ ≤ 1 + _
      omega
    | quotedName value =>
      obtain ⟨rfl, rfl⟩ := List.cons.inj split
      have le := le_width_read '"' value more
      rw [first_of_quote gap notUuid (.inr rfl) rfl, if_neg (by decide), nameAfterQuote, List.length_cons]
      show _ ≤ 1 + _
      omega
  | stray => exact positive

/-- A segment with nothing wrong in it stays what it is if the text is cut off behind it. -/
theorem first_of_isPrefix (long : (first c rest).width ≤ rest'.length + 1)
    (sound : (first c rest).problem = none) : first c rest' = first c rest := by
  have shorter : c :: rest' <+: c :: rest := List.cons_prefix_cons.2 ⟨rfl, h⟩
  cases gap : gap? c rest with
  | some segment =>
    have first_eq : first c rest = segment := by simp [first, gap]
    rw [first_eq] at long sound ⊢
    have gap' := gap?_eq_of_isPrefix h gap long sound
    simp [first, gap']
  | none =>
    have gap' := gap?_of_isPrefix h gap
    by_cases uuidFront : startsWith uuidForm (c :: rest) = true
    · obtain ⟨uuid, mem, after, split⟩ := startsWith_uuidForm_iff.1 uuidFront
      rw [first_of_uuid gap mem split] at long ⊢
      have within : uuid <+: c :: rest' :=
        List.prefix_of_prefix_length_le ⟨after, split⟩ shorter long
      obtain ⟨after', split'⟩ := within
      exact first_of_uuid gap' mem split'
    · have notUuid' : ¬ startsWith uuidForm (c :: rest') = true := by
        intro front
        obtain ⟨uuid, mem, within⟩ := startsWith_uuidForm_iff.1 front
        exact uuidFront (startsWith_uuidForm_iff.2 ⟨uuid, mem, within.trans shorter⟩)
      obtain ⟨text, after, split, reads⟩ := reads_first c rest
      have narrow := width_le_of_isPrefix h gap uuidFront
      have within : text <+: c :: rest' := by
        refine List.prefix_of_prefix_length_le ⟨after, split.symm⟩ shorter ?_
        rwa [← reads.width_eq]
      generalize first c rest = segment at long sound reads narrow
      cases reads with
      | blank blank =>
        obtain ⟨rfl, -⟩ := List.cons.inj split
        simp [gap?, blank] at gap
      | comment comment =>
        cases comment with
        | line opens =>
          obtain ⟨rfl, rfl⟩ := List.cons.inj split
          rcases opens with rfl | rfl
          · simp [gap?, isBlank] at gap
          · simp [gap?, isBlank] at gap
        | block =>
          obtain ⟨rfl, rfl⟩ := List.cons.inj split
          simp [gap?, isBlank] at gap
        | unclosed => cases sound
      | uuid mem => exact absurd (startsWith_uuidForm_iff.2 ⟨text, mem, after, split.symm⟩) uuidFront
      | token spells =>
        -- The token is a candidate in the shorter text too, and nothing there is longer.
        rcases covers_of_spells gap' notUuid' within spells with longer | same
        · exact absurd (Nat.lt_of_lt_of_le longer narrow) (Nat.lt_irrefl _)
        · exact same
      | unclosed => cases sound
      | stray => cases sound

end

end Segment

/-! ### Pieces -/

/-- The characters of pieces, one after another. -/
def Piece.texts (cut : List Piece) : List Char := cut.flatMap (·.text)

@[simp] theorem Piece.texts_append (front back : List Piece) :
    Piece.texts (front ++ back) = Piece.texts front ++ Piece.texts back := List.flatMap_append

/-- Pieces in front are cut off a text, and the others are the pieces of what is behind. -/
theorem pieces_split {start : Nat} {cs : List Char} {front back : List Piece}
    (cut : pieces start 0 cs = front ++ back) : ∃ rest, cs = Piece.texts front ++ rest ∧
      back = pieces (start + size (Piece.texts front)) 0 rest := by
  induction front generalizing start cs with
  | nil => exact ⟨cs, rfl, cut.symm⟩
  | cons piece front ih =>
    cases cs with
    | nil => cases cut
    | cons c rest =>
      obtain ⟨text, after, split, reads⟩ := Segment.reads_first c rest
      rw [split, pieces_append split.symm rfl reads.width_eq, List.cons_append] at cut
      obtain ⟨rfl, others⟩ := List.cons.inj cut
      obtain ⟨rest', rfl, same⟩ := ih others
      refine ⟨rest', by rw [split, ← List.append_assoc]; rfl, ?_⟩
      rw [same, Nat.add_assoc, ← size_append]
      rfl

/-- All pieces together spell the text. -/
theorem texts_pieces (start : Nat) (cs : List Char) : Piece.texts (pieces start 0 cs) = cs := by
  obtain ⟨rest, split, none⟩ := pieces_split (List.append_nil (pieces start 0 cs)).symm
  cases rest with
  | nil => rw [List.append_nil] at split; exact split.symm
  | cons c rest =>
    rw [pieces_cons] at none
    cases none

/-- A piece stands where the text of those in front of it ends. -/
theorem start_of_pieces {start : Nat} {cs : List Char} {front back : List Piece} {piece : Piece}
    (cut : pieces start 0 cs = front ++ piece :: back) :
    piece.start = start + size (Piece.texts front) := by
  obtain ⟨rest, -, same⟩ := pieces_split cut
  cases rest with
  | nil => cases same
  | cons c rest =>
    rw [pieces_cons] at same
    exact (List.cons.inj same).1 ▸ rfl

/-- Sound pieces in front of a text stay what they are, wherever behind them the text is cut off. -/
theorem pieces_append_of_isPrefix {start : Nat} {cs more : List Char} {front back : List Piece}
    (cut : pieces start 0 cs = front ++ back) (sound : ∀ piece ∈ front, piece.segment.problem = none)
    (within : more <+: Piece.texts back) :
    pieces start 0 (Piece.texts front ++ more) =
      front ++ pieces (start + size (Piece.texts front)) 0 more := by
  induction front generalizing start cs with
  | nil => rfl
  | cons piece front ih =>
    cases cs with
    | nil => cases cut
    | cons c rest =>
      obtain ⟨text, after, split, reads⟩ := Segment.reads_first c rest
      have width := reads.width_eq
      rw [split, pieces_append split.symm rfl width, List.cons_append] at cut
      obtain ⟨rfl, behind⟩ := List.cons.inj cut
      have others := ih behind fun piece mem => sound piece (List.mem_cons_of_mem _ mem)
      obtain ⟨rest', rfl, back_eq⟩ := pieces_split behind
      rw [back_eq, texts_pieces] at within
      obtain ⟨tail, rfl⟩ : ∃ tail, text = c :: tail := by
        cases text with
        | nil =>
          have positive := Segment.first_width_pos c rest
          rw [width] at positive
          exact absurd positive (Nat.lt_irrefl 0)
        | cons d tail => exact ⟨tail, by rw [(List.cons.inj split).1]⟩
      obtain rfl : rest = tail ++ (Piece.texts front ++ rest') := (List.cons.inj split).2
      -- The first segment ends in front of the cut, so it is found again.
      have shorter : tail ++ (Piece.texts front ++ more) <+:
          tail ++ (Piece.texts front ++ rest') :=
        (List.prefix_append_right_inj _).2 ((List.prefix_append_right_inj _).2 within)
      have same := Segment.first_of_isPrefix shorter (by rw [width]; simp) (sound _ List.mem_cons_self)
      show pieces start 0 ((c :: tail) ++ Piece.texts front ++ more) = _
      rw [List.append_assoc, pieces_append (List.cons_append) same width, others, List.cons_append,
        Nat.add_assoc, ← size_append]
      rfl

/-- Sound pieces in front of a text are the pieces of what they spell. -/
theorem pieces_of_isPrefix {start : Nat} {cs : List Char} {front back : List Piece}
    (cut : pieces start 0 cs = front ++ back) (sound : ∀ piece ∈ front, piece.segment.problem = none) :
    pieces start 0 (Piece.texts front) = front := by
  have own := pieces_append_of_isPrefix cut sound List.nil_prefix
  rwa [List.append_nil, pieces_nil, List.append_nil] at own

end Cql
