/-
What stands behind a blank does not matter.

A segment that ends in front of a blank is the same whatever comes after the blank, unless it is one
that goes on over blanks: a comment, or something that nothing closes.  The same is true in front of a
comma, a bracket and every other character with which no word, number, mark or quote goes on.

* `Segment.stopsRuns` — the characters that no word and no number goes on with;
* `Segment.breaks` — the characters that break off whatever is in front of them;
* `Segment.EndsBefore` — the segments that end there;
* `Segment.first_append_break` — the first segment in front of such a character;
* `pieces_append_break`, `pieces_append_blank` — the pieces in front of it, and the pieces behind.
-/
import Cql.Proofs.Pieces

namespace Cql

namespace Segment

/-- The segment came to an end of its own. -/
def Closed (segment : Segment) : Prop :=
  segment.problem ≠ some .unclosedString ∧ segment.problem ≠ some .unclosedName ∧
    segment.problem ≠ some .unclosedComment

/-- The segment does not go on over the character. -/
def EndsBefore (s : Char) (segment : Segment) : Prop :=
  segment.Closed ∧ (segment.content = .comment → s = '\n')

/-- Is it a character that no word and no number goes on with? -/
def stopsRuns (s : Char) : Bool := !isWordChar s && !isSign s && s ≠ '.'

/-- Is it a character that no word, number, mark or quote goes on with? -/
def breaks (s : Char) : Bool :=
  !isWordChar s && !isSign s && !(['.', '/', '*', '=', '\'', '"'].contains s)

theorem breaks_of_isBlank {s : Char} (blank : isBlank s = true) : breaks s = true := by
  simp only [isBlank, Bool.or_eq_true, decide_eq_true_eq] at blank
  rcases blank with ((rfl | rfl) | rfl) | rfl <;> rfl

theorem stopsRuns_of_breaks {s : Char} (stops : breaks s = true) : stopsRuns s = true := by
  simp only [breaks, List.contains_cons, Bool.and_eq_true, Bool.not_eq_true', Bool.or_eq_false_iff,
    beq_eq_false_iff_ne] at stops
  simp [stopsRuns, stops]

theorem ne_of_breaks {s c : Char} (stops : breaks s = true) (goesOn : breaks c = false) : s ≠ c := by
  rintro rfl
  rw [stops] at goesOn
  exact Bool.noConfusion goesOn

theorem ne_of_stopsRuns {s c : Char} (stops : stopsRuns s = true) (goesOn : stopsRuns c = false) :
    s ≠ c := by
  rintro rfl
  rw [stops] at goesOn
  exact Bool.noConfusion goesOn

theorem isWordChar_of_stopsRuns {s : Char} (stops : stopsRuns s = true) : isWordChar s = false := by
  simp only [stopsRuns, Bool.and_eq_true, Bool.not_eq_true'] at stops
  exact stops.1.1

theorem isSign_of_stopsRuns {s : Char} (stops : stopsRuns s = true) : isSign s = false := by
  simp only [stopsRuns, Bool.and_eq_true, Bool.not_eq_true'] at stops
  exact stops.1.2

theorem isDigit_of_stopsRuns {s : Char} (stops : stopsRuns s = true) : s.isDigit = false := by
  refine Bool.eq_false_iff.2 fun digit => ?_
  have other := isWordChar_of_stopsRuns stops
  simp [isWordChar, Char.isAlphanum, digit] at other

/-! ### Runs and numbers -/

section Append

variable {s : Char} (more : List Char)

theorem takeWhile_append_stop {p : Char → Bool} (stop : p s = false) (cs : List Char) :
    (cs ++ s :: more).takeWhile p = cs.takeWhile p := by
  induction cs with
  | nil => simp [stop]
  | cons c cs ih =>
    rw [List.cons_append, List.takeWhile_cons, List.takeWhile_cons, ih]

theorem head?_append_eq_some {c : Char} (other : s ≠ c) (cs : List Char) :
    (cs ++ s :: more).head? = some c ↔ cs.head? = some c := by
  cases cs with
  | nil => simp [other]
  | cons d cs => simp

theorem head?_append_any {p : Char → Bool} (stop : p s = false) (cs : List Char) :
    (cs ++ s :: more).head?.any p = cs.head?.any p := by
  cases cs with
  | nil => simp [stop]
  | cons d cs => simp

theorem startsWith_append_stop {forms : List (Char → Bool)} (stop : ∀ form ∈ forms, form s = false)
    (cs : List Char) : startsWith forms (cs ++ s :: more) = startsWith forms cs := by
  induction forms generalizing cs with
  | nil => simp [startsWith]
  | cons form forms ih =>
    cases cs with
    | nil => simp [startsWith, stop form List.mem_cons_self]
    | cons c cs =>
      rw [List.cons_append, startsWith, startsWith,
        ih (fun form mem => stop form (List.mem_cons_of_mem _ mem)) cs]

theorem startsWith_uuidForm_append (notWord : isWordChar s = false) (notHyphen : s ≠ '-')
    (cs : List Char) : startsWith uuidForm (cs ++ s :: more) = startsWith uuidForm cs := by
  refine startsWith_append_stop more (fun form mem => ?_) cs
  have hexOrHyphen : form = isHexDigit ∨ form = (· = '-') := by
    simpa [uuidForm, or_comm, or_left_comm, or_assoc] using mem
  rcases hexOrHyphen with rfl | rfl
  · exact Bool.eq_false_iff.2 fun hex => by simp [isWordChar_of_isHexDigit hex] at notWord
  · exact decide_eq_false notHyphen

variable (stops : stopsRuns s = true)

include stops

theorem digitRun_append_stop (cs : List Char) : digitRun (cs ++ s :: more) = digitRun cs := by
  rw [digitRun, takeWhile_append_stop more (isDigit_of_stopsRuns stops), digitRun]

theorem fractionWidth_append_stop (cs : List Char) :
    fractionWidth (cs ++ s :: more) = fractionWidth cs := by
  by_cases point : cs.head? = some '.'
  · obtain ⟨cs, rfl⟩ := List.head?_eq_some_iff.1 point
    show 1 + digitRun (cs ++ s :: more) = 1 + digitRun cs
    rw [digitRun_append_stop more stops]
  · have none := mt (head?_append_eq_some more (ne_of_stopsRuns stops rfl) cs).1 point
    rw [fractionWidth_of_ne point, fractionWidth_of_ne none]

theorem exponentWidth_append_stop (cs : List Char) :
    exponentWidth (cs ++ s :: more) = exponentWidth cs := by
  cases cs with
  | nil =>
    have none : ¬ (s = 'e' ∨ s = 'E') := not_or.2 ⟨ne_of_stopsRuns stops rfl, ne_of_stopsRuns stops rfl⟩
    exact if_neg fun both => none both.1
  | cons mark cs =>
    obtain ⟨sign, rest, rfl, width, signed⟩ := exists_sign cs
    have width' : ((sign ++ rest ++ s :: more).take 1).countP isSign = sign.length := by
      rcases signed with ⟨rfl, unsigned⟩ | ⟨c, rfl, signed⟩
      · cases rest with
        | nil => simp [isSign_of_stopsRuns stops]
        | cons d rest => simpa using unsigned
      · simp [signed]
    rw [List.cons_append]
    simp only [exponentWidth, width, width']
    rw [List.append_assoc, List.drop_left, List.drop_left, digitRun_append_stop more stops]

theorem tailWidth_append_stop (cs : List Char) : tailWidth (cs ++ s :: more) = tailWidth cs := by
  obtain ⟨text, rest, split, width, -⟩ := exists_fraction cs
  have le : fractionWidth cs ≤ cs.length := by
    rw [width, split, List.length_append]
    exact Nat.le_add_right _ _
  rw [tailWidth, tailWidth, fractionWidth_append_stop more stops,
    List.drop_append_of_le_length le, exponentWidth_append_stop more stops]

theorem number_append_stop (sign body : List Char) :
    number sign.length (sign ++ (body ++ s :: more)) = number sign.length (sign ++ body) := by
  obtain ⟨ds, rest, rfl, run, all⟩ := exists_digits body
  have run' : digitRun (ds ++ (rest ++ s :: more)) = ds.length := by
    rw [← List.append_assoc, digitRun_append_stop more stops, run]
  obtain ⟨front, back, after, split, width, -⟩ := exists_tail rest
  have le : tailWidth rest ≤ rest.length := by
    rw [width, congrArg List.length split]
    simp only [List.length_append]
    omega
  rw [List.append_assoc, number_eq sign run', number_eq sign run, tailWidth_append_stop more stops,
    List.take_append_of_le_length le]

/-! ### Other segments -/

theorem word_append_stop (cs : List Char) : word (cs ++ s :: more) = word cs := by
  rw [word, takeWhile_append_stop more (isWordChar_of_stopsRuns stops), word]

theorem hexConstant_append_stop (cs : List Char) :
    hexConstant (cs ++ s :: more) = hexConstant cs := by
  rw [hexConstant, takeWhile_append_stop more (isWordChar_of_stopsRuns stops),
    hexConstant]

omit stops in
theorem read_append_break {quote : Char} (stops : breaks s = true) (other : breaks quote = false)
    {cs : List Char} (closed : (Quoted.read quote cs).closed = true) :
    Quoted.read quote (cs ++ s :: more) = Quoted.read quote cs := by
  rcases read_cases quote cs with ⟨value, after, rfl, alone, read⟩ | ⟨value, -, read⟩
  · rw [read, List.append_assoc, List.cons_append]
    refine Quoted.read_encode quote value _ ?_
    rw [ne_eq, head?_append_eq_some more (ne_of_breaks stops other)]
    exact alone
  · rw [read] at closed
    exact absurd closed (by simp)

end Append

theorem closingWidth?_append {cs : List Char} {width : Nat} (more : List Char)
    (closed : closingWidth? cs = some width) : closingWidth? (cs ++ more) = some width := by
  fun_induction closingWidth? cs generalizing width with
  | case1 => cases closed
  | case2 => cases closed
  | case3 c d cs closes =>
    obtain ⟨rfl, rfl⟩ := closes
    exact closed
  | case4 c d cs goesOn ih =>
    obtain ⟨width, found, rfl⟩ := Option.map_eq_some_iff.1 closed
    have found' := ih found
    rw [List.cons_append] at found'
    rw [List.cons_append, List.cons_append, closingWidth?, if_neg goesOn, found']
    rfl

theorem lineComment_append_lineFeed (rest more : List Char) :
    lineComment (rest ++ '\n' :: more) = lineComment rest := by
  rw [lineComment, takeWhile_append_stop more rfl, lineComment]

theorem blockComment_append {rest : List Char} (closed : (blockComment rest).Closed)
    (more : List Char) : blockComment (rest ++ more) = blockComment rest := by
  obtain ⟨-, -, closed⟩ := closed
  unfold blockComment at closed ⊢
  cases width : closingWidth? rest with
  | none =>
    rw [width] at closed
    exact absurd rfl closed
  | some width' => rw [closingWidth?_append more width]

/-! ### The first segment -/

section First

variable {s c : Char} (more : List Char) {rest : List Char}

theorem constant?_append_stop (stops : stopsRuns s = true) :
    constant? c (rest ++ s :: more) = constant? c rest := by
  have lower : (rest ++ s :: more).head? = some 'x' ↔ rest.head? = some 'x' :=
    head?_append_eq_some more (ne_of_stopsRuns stops rfl) rest
  have upper : (rest ++ s :: more).head? = some 'X' ↔ rest.head? = some 'X' :=
    head?_append_eq_some more (ne_of_stopsRuns stops rfl) rest
  have notWord := isWordChar_of_stopsRuns stops
  have digit := head?_append_any more (isDigit_of_stopsRuns stops) rest
  unfold constant?
  rw [← List.cons_append, startsWith_uuidForm_append more notWord (ne_of_stopsRuns stops rfl), digit,
    hexConstant_append_stop more stops]
  simp only [lower, upper]
  by_cases front : startsWith uuidForm (c :: rest) = true
  · obtain ⟨text, mem, after, split⟩ := Lexical.startsWith_uuidForm_iff.1 front
    rw [if_pos front, if_pos front, ← split, ← Lexical.length_of_mem_uuid mem, List.append_assoc,
      List.take_left, List.take_left]
  rw [if_neg front, if_neg front]
  have bare := number_append_stop more stops [] (c :: rest)
  -- The two kinds of numbers differ in the sign, which belongs to no digit run.
  by_cases negative : c = '-'
  · subst negative
    have signed := number_append_stop more stops ['-'] rest
    simp only [List.length_nil, List.nil_append, List.length_cons, List.singleton_append,
      Nat.zero_add] at bare signed
    rw [bare, List.cons_append, signed]
  · simp only [List.length_nil, List.nil_append] at bare
    simp only [bare, negative, false_and, if_false]

variable (stops : breaks s = true)

include stops

theorem comparison_append_break (alone withEqual : Punctuation) :
    comparison alone withEqual (rest ++ s :: more) = comparison alone withEqual rest := by
  have equal : (rest ++ s :: more).head? = some '=' ↔ rest.head? = some '=' :=
    head?_append_eq_some more (ne_of_breaks stops rfl) rest
  simp only [comparison, equal]

theorem plain_append_break (closed : (plain c rest).Closed) :
    plain c (rest ++ s :: more) = plain c rest := by
  obtain ⟨closedString, closedName, -⟩ := closed
  unfold plain at closedString closedName ⊢
  rw [← List.cons_append, word_append_stop more (stopsRuns_of_breaks stops),
    comparison_append_break more stops, comparison_append_break more stops]
  by_cases letter : c.isAlpha = true
  · rw [if_pos letter, if_pos letter]
  rw [if_neg letter] at closedString closedName ⊢
  rw [if_neg letter]
  by_cases single : c = '\''
  · rw [if_pos single] at closedString ⊢
    have closed : (Quoted.read '\'' rest).closed = true := by
      by_contra unclosed
      exact closedString (if_neg unclosed)
    rw [if_pos single, stringAfterQuote, read_append_break more stops rfl closed, stringAfterQuote]
  rw [if_neg single] at closedName ⊢
  rw [if_neg single]
  by_cases double : c = '"'
  · rw [if_pos double] at closedName ⊢
    have closed : (Quoted.read '"' rest).closed = true := by
      by_contra unclosed
      rw [nameAfterQuote_eq] at closedName
      exact closedName (if_neg unclosed)
    rw [if_pos double, nameAfterQuote, read_append_break more stops rfl closed, nameAfterQuote]
  · rw [if_neg double, if_neg double]

theorem gap?_append_break (ends : ∀ segment, gap? c rest = some segment → EndsBefore s segment) :
    gap? c (rest ++ s :: more) = gap? c rest := by
  have minus : (rest ++ s :: more).head? = some '-' ↔ rest.head? = some '-' :=
    head?_append_eq_some more (ne_of_breaks stops rfl) rest
  have slash : (rest ++ s :: more).head? = some '/' ↔ rest.head? = some '/' :=
    head?_append_eq_some more (ne_of_breaks stops rfl) rest
  have star : (rest ++ s :: more).head? = some '*' ↔ rest.head? = some '*' :=
    head?_append_eq_some more (ne_of_breaks stops rfl) rest
  unfold gap? at ends ⊢
  simp only [minus, slash, star]
  split
  · rfl
  rename_i notBlank
  rw [if_neg notBlank] at ends
  split
  · rename_i opens
    rw [if_pos opens] at ends
    obtain ⟨-, rest, rfl⟩ := exists_of_lineComment opens
    obtain rfl : s = '\n' := (ends _ rfl).2 rfl
    exact congrArg some (lineComment_append_lineFeed rest more)
  rename_i notLine
  rw [if_neg notLine] at ends
  split
  · rename_i opens
    rw [if_pos opens] at ends
    obtain ⟨rest, rfl⟩ := List.head?_eq_some_iff.1 opens.2
    exact congrArg some (blockComment_append (ends _ rfl).1 _)
  · rfl

/-- **The first segment in front of a character that breaks** does not depend on what comes after it. -/
theorem first_append_break (ends : EndsBefore s (first c rest)) :
    first c (rest ++ s :: more) = first c rest := by
  have gap : gap? c (rest ++ s :: more) = gap? c rest := by
    refine gap?_append_break more stops fun segment found => ?_
    unfold first at ends
    rwa [found] at ends
  unfold first at ends ⊢
  rw [gap, constant?_append_stop more (stopsRuns_of_breaks stops)]
  -- The same branch is taken with and without the character; only a plain segment may be unclosed.
  cases found : gap? c rest with
  | some segment => rfl
  | none =>
    rw [found] at ends
    cases found' : constant? c rest with
    | some segment => rfl
    | none =>
      rw [found'] at ends
      exact plain_append_break more stops ends.1

end First

end Segment

open Bytes

/-- The pieces in front of a character that breaks are those of the text in front of it. -/
theorem pieces_append_break {s : Char} (stops : Segment.breaks s = true) {start : Nat}
    {cs : List Char} (ends : ∀ piece ∈ pieces start 0 cs, Segment.EndsBefore s piece.segment)
    (more : List Char) :
    pieces start 0 (cs ++ s :: more) =
      pieces start 0 cs ++ pieces (start + size cs) 0 (s :: more) := by
  induction cs using cut_induction generalizing start with
  | nil => rw [List.nil_append, pieces_nil, List.nil_append, size, Nat.add_zero]
  | cons c rest ih =>
    obtain ⟨text, after, split, reads⟩ := Segment.reads_first c rest
    have width := reads.width_eq
    rw [width, split, List.drop_left] at ih
    have cut := @pieces_append start text after _ c rest split.symm rfl width
    rw [← split] at cut
    rw [cut] at ends ⊢
    -- The first piece stays as it is, and the others are those of the rest by induction.
    have first : Segment.first c (rest ++ s :: more) = Segment.first c rest :=
      Segment.first_append_break more stops (ends _ List.mem_cons_self)
    have split' : text ++ (after ++ s :: more) = c :: (rest ++ s :: more) := by
      rw [← List.append_assoc, ← split, List.cons_append]
    have cut' := @pieces_append start text (after ++ s :: more) _ c _ split' first width
    rw [List.cons_append, ← split', cut', ih fun piece mem => ends piece (List.mem_cons_of_mem _ mem)]
    simp only [List.cons_append, split, size_append, Nat.add_assoc]

/-- A blank is a piece of its own. -/
theorem pieces_cons_blank {s : Char} (blank : Segment.isBlank s = true) (start : Nat) (more : List Char) :
    pieces start 0 (s :: more) =
      ⟨start, [s], ⟨1, .blank, none⟩⟩ :: pieces (start + s.utf8Size) 0 more := by
  have first : Segment.first s more = ⟨1, .blank, none⟩ := by
    unfold Segment.first Segment.gap?
    rw [if_pos blank]
  have cut := @pieces_append start [s] more _ s more rfl first rfl
  simpa [size] using cut

/-- The pieces in front of a blank are those of the text in front of it. -/
theorem pieces_append_blank {s : Char} (blank : Segment.isBlank s = true) {start : Nat}
    {cs : List Char} (ends : ∀ piece ∈ pieces start 0 cs, Segment.EndsBefore s piece.segment)
    (more : List Char) :
    pieces start 0 (cs ++ s :: more) = pieces start 0 cs ++
      ⟨start + size cs, [s], ⟨1, .blank, none⟩⟩ :: pieces (start + size cs + s.utf8Size) 0 more := by
  rw [pieces_append_break (Segment.breaks_of_isBlank blank) ends, pieces_cons_blank blank]

end Cql
