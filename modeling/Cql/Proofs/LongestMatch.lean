/-
The scanner takes the longest token.

Where neither a blank, a comment nor a UUID begins, no text in front that spells a token is longer than
the segment that the scanner finds, and one as long as the segment spells its token.

* `Segment.covers_integer`, `Segment.covers_float` — among numbers;
* `Segment.covers_of_spells` — among all tokens.
-/
import Cql.Proofs.Segments

namespace Cql

namespace Segment

open Lexical

/-! ### Runs -/

theorem takeWhile_append_of_stop {p : Char → Bool} {front rest : List Char}
    (all : ∀ c ∈ front, p c = true) (stops : ∀ c ∈ rest.head?, p c = false) :
    (front ++ rest).takeWhile p = front := by
  rw [List.takeWhile_append_of_pos all]
  cases rest with
  | nil => simp
  | cons c rest => simp [stops c rfl]

theorem prefix_takeWhile {p : Char → Bool} {front cs : List Char}
    (all : ∀ c ∈ front, p c = true) (h : front <+: cs) : front <+: cs.takeWhile p := by
  obtain ⟨rest, rfl⟩ := h
  rw [List.takeWhile_append_of_pos all]
  exact List.prefix_append _ _

/-- A run in front is shorter than the longest run, or it is the longest run. -/
theorem shorter_or_run {p : Char → Bool} {front cs : List Char} (all : ∀ c ∈ front, p c = true)
    (h : front <+: cs) : front.length < (cs.takeWhile p).length ∨ cs.takeWhile p = front := by
  have within := prefix_takeWhile all h
  rcases Nat.lt_or_eq_of_le within.length_le with shorter | same
  · exact .inl shorter
  · exact .inr (within.eq_of_length same).symm

/-- The segment is longer than the text, or it is the text as a token of the kind. -/
def Covers (segment : Segment) (text : List Char) (kind : TokenKind) : Prop :=
  text.length < segment.width ∨ segment = ⟨text.length, .token kind, kind.problem?⟩

theorem Covers.le_width {segment : Segment} {text : List Char} {kind : TokenKind}
    (h : Covers segment text kind) : text.length ≤ segment.width := by
  rcases h with shorter | rfl
  · exact Nat.le_of_lt shorter
  · exact Nat.le_refl _

/-! ### Numbers -/

theorem digitRun_append {ds rest : List Char} (all : ∀ c ∈ ds, c.isDigit = true)
    (stops : ∀ c ∈ rest.head?, c.isDigit = false) : digitRun (ds ++ rest) = ds.length := by
  rw [digitRun, takeWhile_append_of_stop all stops]

theorem le_digitRun {ds cs : List Char} (all : ∀ c ∈ ds, c.isDigit = true) (h : ds <+: cs) :
    ds.length ≤ digitRun cs :=
  (prefix_takeWhile all h).length_le

theorem le_fractionWidth {text cs : List Char} (mem : text ∈ fraction) (h : text <+: cs) :
    text.length ≤ fractionWidth cs := by
  obtain ⟨ds, rfl, all⟩ := mem_fraction.1 mem
  obtain ⟨rest, rfl⟩ := h
  have run := le_digitRun all (List.prefix_append ds rest)
  show ds.length + 1 ≤ 1 + digitRun (ds ++ rest)
  omega

theorem not_isSign_of_isDigit {c : Char} (digit : c.isDigit = true) : isSign c = false := by
  cases signed : isSign c with
  | false => rfl
  | true =>
    simp only [isSign, Bool.or_eq_true, decide_eq_true_eq] at signed
    rcases signed with rfl | rfl
    · exact absurd digit (by decide)
    · exact absurd digit (by decide)

theorem le_exponentWidth {text cs : List Char} (mem : text ∈ exponent) (h : text <+: cs) :
    text.length ≤ exponentWidth cs := by
  obtain ⟨mark, sign, ds, memDigits, rfl, marked, signed⟩ := mem_exponent.1 mem
  obtain ⟨nonempty, all⟩ := mem_digits.1 memDigits
  obtain ⟨rest, rfl⟩ := h
  have run := le_digitRun all (List.prefix_append ds rest)
  have positive := List.length_pos_iff.2 nonempty
  -- What counts as the sign is the sign, since a digit is none.
  have width : ((sign ++ (ds ++ rest)).take 1).countP isSign = sign.length := by
    rcases signed with rfl | ⟨c, rfl, signed⟩
    · match ds, nonempty, all with
      | d :: ds, _, all => simp [not_isSign_of_isDigit (all d (by simp))]
    · simp [signed]
  simp only [List.cons_append, List.append_assoc, exponentWidth, width, List.drop_left]
  rw [if_pos ⟨marked, by omega⟩]
  simp only [List.length_cons, List.length_append]
  omega

/-- Nothing that can follow the digits of a number begins with one. -/
theorem not_isDigit_of_exponent {text : List Char} (mem : text ∈ exponent) (rest : List Char) :
    ∀ c ∈ (text ++ rest).head?, c.isDigit = false := by
  obtain ⟨mark, sign, ds, -, rfl, marked, -⟩ := mem_exponent.1 mem
  intro c head
  obtain rfl : mark = c := by simpa using head
  rcases marked with rfl | rfl
  · decide
  · decide

theorem not_isDigit_of_fraction {text : List Char} (mem : text ∈ fraction) (rest : List Char) :
    ∀ c ∈ (text ++ rest).head?, c.isDigit = false := by
  obtain ⟨ds, rfl, -⟩ := mem_fraction.1 mem
  intro c head
  obtain rfl : '.' = c := by simpa using head
  decide

/-- Nothing in front that can follow the digits is longer than what the scanner finds. -/
theorem le_tailWidth {front back cs : List Char} (memFront : front = [] ∨ front ∈ fraction)
    (memBack : back = [] ∨ back ∈ exponent) (h : front ++ back <+: cs) :
    (front ++ back).length ≤ tailWidth cs := by
  obtain ⟨rest, rfl⟩ := h
  rw [List.append_assoc, List.length_append, tailWidth]
  have frontWidth : front.length ≤ fractionWidth (front ++ (back ++ rest)) := by
    rcases memFront with rfl | memFront
    · exact Nat.zero_le _
    · exact le_fractionWidth memFront (List.prefix_append _ _)
  rcases memBack with rfl | memBack
  · simp only [List.length_nil]
    omega
  · -- The exponent begins with no digit, so the fraction is all there is in front of it.
    have frontWidth' : fractionWidth (front ++ (back ++ rest)) = front.length := by
      rcases memFront with rfl | memFront
      · obtain ⟨mark, sign, ds, -, rfl, rfl | rfl, -⟩ := mem_exponent.1 memBack
        · rfl
        · rfl
      · obtain ⟨ds, rfl, all⟩ := mem_fraction.1 memFront
        show 1 + digitRun (ds ++ (back ++ rest)) = ds.length + 1
        rw [digitRun_append all (not_isDigit_of_exponent memBack rest), Nat.add_comm]
    have backWidth := le_exponentWidth memBack (List.prefix_append back rest)
    rw [frontWidth', List.drop_left]
    omega

/-- Something that begins with no digit comes after the digits of a float. -/
theorem not_isDigit_of_tail {front back : List Char} (tail : IsTail front back) (rest : List Char) :
    ∀ c ∈ ((front ++ back) ++ rest).head?, c.isDigit = false := by
  rw [List.append_assoc]
  rcases tail with ⟨memFront, -⟩ | ⟨rfl, memBack⟩ | ⟨memFront, -⟩
  · exact not_isDigit_of_fraction memFront (back ++ rest)
  · exact not_isDigit_of_exponent memBack rest
  · exact not_isDigit_of_fraction memFront (back ++ rest)

theorem covers_integer (sign : List Char) {body ds : List Char} (mem : ds ∈ digits) (h : ds <+: body) :
    Covers (number sign.length (sign ++ body)) (sign ++ ds) (.integer (String.ofList (sign ++ ds))) := by
  obtain ⟨-, all⟩ := mem_digits.1 mem
  obtain ⟨ds', rest, rfl, run, -⟩ := exists_digits body
  have le : ds.length ≤ ds'.length := by
    rw [← run]
    exact le_digitRun all h
  rw [Covers, number_eq sign run, width_ofKind, List.length_append]
  by_cases whole : ds.length = ds'.length ∧ tailWidth rest = 0
  · obtain ⟨sameLength, bare⟩ := whole
    have same : ds = ds' :=
      (List.prefix_of_prefix_length_le h (List.prefix_append _ _) le).eq_of_length sameLength
    subst same
    refine .inr ?_
    simp only [bare, if_pos, List.take_zero, List.append_nil, Nat.add_zero]
    rfl
  · refine .inl ?_
    omega

theorem covers_float (sign : List Char) {body ds front back : List Char} (mem : ds ∈ digits)
    (tail : IsTail front back) (h : ds ++ (front ++ back) <+: body) :
    Covers (number sign.length (sign ++ body)) (sign ++ (ds ++ (front ++ back)))
      (.float (String.ofList (sign ++ (ds ++ (front ++ back))))) := by
  obtain ⟨-, all⟩ := mem_digits.1 mem
  obtain ⟨rest, rfl⟩ := h
  -- The tail begins with no digit, so the digits in front of it are all there are.
  have run := digitRun_append all (not_isDigit_of_tail tail rest)
  obtain ⟨memFront, memBack, nonempty⟩ := isTail_iff.1 tail
  have le := le_tailWidth memFront memBack (List.prefix_append (front ++ back) rest)
  have positive := List.length_pos_iff.2 nonempty
  have length : (sign ++ (ds ++ (front ++ back))).length
      = sign.length + ds.length + (front ++ back).length := by
    rw [List.length_append, List.length_append, Nat.add_assoc]
  rw [List.append_assoc ds, Covers, number_eq sign run, width_ofKind, length]
  rcases Nat.lt_or_eq_of_le le with shorter | same
  · refine .inl ?_
    omega
  · refine .inr ?_
    rw [← same, List.take_left, if_neg (by omega)]
    rfl

/-- The digits of a number that would be a hexadecimal constant end at once. -/
theorem number_width_of_mark {mark : Char} (marked : mark = 'x' ∨ mark = 'X') (more : List Char) :
    (number 0 ('0' :: mark :: more)).width = 1 := by
  have run : digitRun (['0'] ++ mark :: more) = ['0'].length := by
    refine digitRun_append (by simp) ?_
    intro c head
    obtain rfl : mark = c := by simpa using head
    rcases marked with rfl | rfl
    · decide
    · decide
  have none : tailWidth (mark :: more) = 0 := by
    rcases marked with rfl | rfl
    · rfl
    · rfl
  have width := congrArg Segment.width (number_eq [] run)
  rw [width_ofKind, none] at width
  exact width

/-! ### Words and quoted texts -/

theorem not_isDigit_of_isAlpha {c : Char} (letter : c.isAlpha = true) : c.isDigit = false := by
  refine Bool.eq_false_iff.2 fun digit => ?_
  have nine : c.val ≤ '9'.val := of_decide_eq_true (Bool.and_eq_true_iff.1 digit).2
  rcases Bool.or_eq_true_iff.1 letter with upper | lower
  · have above : 'A'.val ≤ c.val := (of_decide_eq_true upper).1
    exact absurd (UInt32.le_trans above nine) (by decide)
  · have above : 'a'.val ≤ c.val := of_decide_eq_true (Bool.and_eq_true_iff.1 lower).1
    exact absurd (UInt32.le_trans above nine) (by decide)

theorem covers_word {text cs : List Char} (mem : text ∈ Lexical.word) (h : text <+: cs) :
    Covers (word cs) text (wordKind text) := by
  rcases shorter_or_run (isWordChar_of_mem_word mem) h with shorter | same
  · exact .inl shorter
  · refine .inr ?_
    rw [problem?_wordKind, word_eq, same]
    rfl

theorem covers_hexConstant {text cs : List Char} (mem : text ∈ Lexical.hexConstant isWordChar)
    (h : text <+: cs) : Covers (hexConstant cs) text (.hex (String.ofList text)) := by
  rcases shorter_or_run (isWordChar_of_mem_hexConstant mem) h with shorter | same
  · exact .inl shorter
  · refine .inr ?_
    rw [hexConstant, same]
    simp only [TokenKind.problem?, String.toList_ofList]

theorem le_width_read (quote : Char) (value more : List Char) :
    (Quoted.encode quote value).length
      ≤ (Quoted.read quote (Quoted.encode quote value ++ more)).width := by
  induction value with
  | nil => exact Nat.zero_le _
  | cons c value ih =>
    by_cases same : c = quote
    · subst same
      simp only [Quoted.encode, if_pos, List.cons_append, Quoted.read, Quoted.Body.push,
        List.length_cons]
      omega
    · simp only [Quoted.encode, if_neg same, List.cons_append, Quoted.read_cons same,
        Quoted.Body.push, List.length_cons]
      omega

/-- A body that nothing closes is read to its end. -/
theorem read_encode_end (quote : Char) (value : List Char) :
    Quoted.read quote (Quoted.encode quote value)
      = ⟨value, (Quoted.encode quote value).length, false⟩ := by
  induction value with
  | nil => rfl
  | cons c value ih =>
    by_cases same : c = quote
    · subst same
      simp only [Quoted.encode, if_pos, Quoted.read, ih, Quoted.Body.push, List.length_cons]
      congr 1
      omega
    · simp only [Quoted.encode, if_neg same, Quoted.read_cons same, ih, Quoted.Body.push,
        List.length_cons]
      congr 1
      omega

theorem encode_append (quote : Char) (value value' : List Char) :
    Quoted.encode quote (value ++ value') = Quoted.encode quote value ++ Quoted.encode quote value' := by
  induction value with
  | nil => rfl
  | cons c value ih =>
    by_cases same : c = quote
    · simp [Quoted.encode, same, ih]
    · simp [Quoted.encode, same, ih]

theorem covers_quoted {quote : Char} {value rest : List Char} {kind : String → TokenKind}
    {problem : LexicalProblem} (h : Quoted.encode quote value ++ [quote] <+: rest) :
    Covers
      ⟨1 + (Quoted.read quote rest).width, .token (kind (String.ofList (Quoted.read quote rest).value)),
        if (Quoted.read quote rest).closed then
          (kind (String.ofList (Quoted.read quote rest).value)).problem?
        else some problem⟩
      (Quoted.render quote (String.ofList value)).toList (kind (String.ofList value)) := by
  obtain ⟨after, rfl⟩ := h
  have length : (Quoted.render quote (String.ofList value)).toList.length
      = (Quoted.encode quote value).length + 2 := by
    simp [Quoted.render]
  rw [Covers, length, List.append_assoc, List.singleton_append]
  by_cases doubled : after.head? = some quote
  · -- The closing quote is one of two, and the body goes on.
    obtain ⟨more, rfl⟩ := List.head?_eq_some_iff.1 doubled
    refine .inl ?_
    have body : Quoted.encode quote value ++ quote :: quote :: more
        = Quoted.encode quote (value ++ [quote]) ++ more := by
      simp [encode_append, Quoted.encode]
    have length : (Quoted.encode quote (value ++ [quote])).length
        = (Quoted.encode quote value).length + 2 := by
      simp [encode_append, Quoted.encode]
    have le := le_width_read quote (value ++ [quote]) more
    rw [body]
    show _ < 1 + (Quoted.read _ _).width
    omega
  · refine .inr ?_
    rw [Quoted.read_encode quote value after doubled]
    simp only [if_pos]
    congr 1
    omega

/-! ### Marks -/

/-- Two marks that begin with the same character, the second of them with an equal sign after it. -/
structure IsComparison (c : Char) (alone withEqual : Punctuation) : Prop where
  one : alone.spelling.toList = [c]
  two : withEqual.spelling.toList = [c, '=']
  notDigit : c.isDigit = false
  notMinus : c ≠ '-'
  plain : ∀ rest, plain c rest = comparison alone withEqual rest

theorem isComparison_less : IsComparison '<' .less .lessEqual :=
  ⟨rfl, rfl, rfl, by decide, fun _ => rfl⟩

theorem isComparison_greater : IsComparison '>' .greater .greaterEqual :=
  ⟨rfl, rfl, rfl, by decide, fun _ => rfl⟩

/-- A mark is a comparison sign, or a single character that begins nothing else but a negative
number. -/
theorem comparison_or_single (mark : Punctuation) :
    (∃ c alone withEqual, IsComparison c alone withEqual ∧ (mark = alone ∨ mark = withEqual)) ∨
      ∃ c, mark.spelling.toList = [c] ∧ c.isDigit = false ∧ ∀ rest, plain c rest = ofMark mark := by
  cases mark
  case less => exact .inl ⟨_, _, _, isComparison_less, .inl rfl⟩
  case lessEqual => exact .inl ⟨_, _, _, isComparison_less, .inr rfl⟩
  case greater => exact .inl ⟨_, _, _, isComparison_greater, .inl rfl⟩
  case greaterEqual => exact .inl ⟨_, _, _, isComparison_greater, .inr rfl⟩
  all_goals exact .inr ⟨_, rfl, rfl, fun _ => rfl⟩

theorem covers_comparison {c : Char} {alone withEqual mark : Punctuation} {rest : List Char}
    (signs : IsComparison c alone withEqual) (which : mark = alone ∨ mark = withEqual)
    (front : mark.spelling.toList <+: c :: rest) :
    Covers (comparison alone withEqual rest) mark.spelling.toList (.punctuation mark) := by
  rcases which with rfl | rfl
  · rw [signs.one]
    by_cases equal : rest.head? = some '='
    · rw [comparison, if_pos equal]
      exact .inl Nat.one_lt_two
    · rw [comparison, if_neg equal]
      exact .inr rfl
  · rw [signs.two] at front ⊢
    obtain ⟨more, rfl⟩ := (List.cons_prefix_cons.1 front).2
    exact .inr rfl

/-! ### The first segment -/

section First

variable {c : Char} {rest : List Char} (gap : gap? c rest = none)
  (notUuid : ¬ startsWith uuidForm (c :: rest) = true)

include gap notUuid

theorem first_of_hexMark {mark : Char} {more : List Char} (marked : mark = 'x' ∨ mark = 'X')
    (split : c :: rest = '0' :: mark :: more) : first c rest = hexConstant (c :: rest) := by
  obtain ⟨rfl, rfl⟩ := List.cons.inj split
  unfold first constant?
  rw [gap, if_neg notUuid]
  rcases marked with rfl | rfl
  · rfl
  · rfl

theorem first_of_digit (digit : c.isDigit = true)
    (decimal : ¬ (c = '0' ∧ (rest.head? = some 'x' ∨ rest.head? = some 'X'))) :
    first c rest = number 0 (c :: rest) := by
  unfold first constant?
  rw [gap, if_neg notUuid, if_neg decimal, if_pos digit]

theorem first_of_minus (minus : c = '-') (digit : rest.head?.any Char.isDigit = true) :
    first c rest = number 1 (c :: rest) := by
  subst minus
  unfold first constant?
  rw [gap, if_neg notUuid, if_neg (by simp), if_neg (by decide), if_pos ⟨rfl, digit⟩]

theorem first_eq_plain (notDigit : c.isDigit = false)
    (notNegative : ¬ (c = '-' ∧ rest.head?.any Char.isDigit = true)) : first c rest = plain c rest := by
  have notZero : ¬ (c = '0' ∧ (rest.head? = some 'x' ∨ rest.head? = some 'X')) := by
    rintro ⟨rfl, -⟩
    exact absurd notDigit (by decide)
  unfold first constant?
  rw [gap, if_neg notUuid, if_neg notZero,
    if_neg (by rw [notDigit]; exact Bool.false_ne_true), if_neg notNegative]

/-- Where a number begins, the scanner reads a number or a hexadecimal constant. -/
theorem covers_of_number {sign body text : List Char} {kind : TokenKind} {d : Char}
    (signed : sign = [] ∨ sign = ['-']) (split : c :: rest = sign ++ body)
    (head : body.head? = some d) (digit : d.isDigit = true)
    (covers : Covers (number sign.length (sign ++ body)) text kind) :
    Covers (first c rest) text kind := by
  rcases signed with rfl | rfl
  · obtain rfl : c :: rest = body := split
    obtain rfl : c = d := by simpa using head
    by_cases hex : c = '0' ∧ (rest.head? = some 'x' ∨ rest.head? = some 'X')
    · obtain ⟨rfl, opens⟩ := hex
      obtain ⟨mark, more, rfl, marked⟩ := exists_of_hexConstant opens
      rw [first_of_hexMark gap notUuid marked rfl]
      have le := covers.le_width
      have one := number_width_of_mark marked more
      have front : ['0', mark] <+: '0' :: mark :: more := ⟨more, rfl⟩
      have two := (covers_hexConstant (mem_hexConstant.2 ⟨mark, [], rfl, marked, by simp⟩) front).le_width
      refine .inl ?_
      simp only [List.length_nil, List.nil_append, List.length_cons] at le two
      omega
    · rw [first_of_digit gap notUuid digit hex]
      exact covers
  · obtain ⟨rfl, rfl⟩ := List.cons.inj split
    rw [first_of_minus gap notUuid rfl (by rw [head]; exact digit)]
    exact covers

theorem covers_of_integer {text : List Char} (mem : text ∈ integer) (front : text <+: c :: rest) :
    Covers (first c rest) text (.integer (String.ofList text)) := by
  obtain ⟨after, split⟩ := front
  rcases mem_integer.1 mem with memDigits | ⟨ds, memDigits, rfl⟩
  · obtain ⟨d, ds, rfl, digit, -⟩ := mem_one_mul.1 memDigits
    exact covers_of_number gap notUuid (.inl rfl) rfl (by rw [← split]; rfl) digit
      (covers_integer [] memDigits ⟨after, split⟩)
  · obtain ⟨d, ds, rfl, digit, -⟩ := mem_one_mul.1 memDigits
    have minus : c :: rest = ['-'] ++ (d :: ds ++ after) := split.symm
    refine covers_of_number gap notUuid (.inr rfl) minus rfl digit ?_
    exact covers_integer ['-'] memDigits (List.prefix_append _ _)

theorem covers_of_float {text : List Char} (mem : text ∈ float) (front : text <+: c :: rest) :
    Covers (first c rest) text (.float (String.ofList text)) := by
  obtain ⟨after, split⟩ := front
  obtain ⟨whole, memWhole, front, back, rfl, tail⟩ := mem_float.1 mem
  rcases mem_integer.1 memWhole with memDigits | ⟨ds, memDigits, rfl⟩
  · obtain ⟨d, ds, rfl, digit, -⟩ := mem_one_mul.1 memDigits
    exact covers_of_number gap notUuid (.inl rfl) rfl (by rw [← split]; rfl) digit
      (covers_float [] memDigits tail ⟨after, split⟩)
  · obtain ⟨d, ds, rfl, digit, -⟩ := mem_one_mul.1 memDigits
    have minus : c :: rest = ['-'] ++ ((d :: ds ++ (front ++ back)) ++ after) := split.symm
    refine covers_of_number gap notUuid (.inr rfl) minus rfl digit ?_
    exact covers_float ['-'] memDigits tail (List.prefix_append _ _)

theorem covers_of_word {text : List Char} (mem : text ∈ Lexical.word) (front : text <+: c :: rest) :
    Covers (first c rest) text (wordKind text) := by
  have covers := covers_word mem front
  obtain ⟨d, more, rfl, letter, -⟩ := mem_word.1 mem
  obtain ⟨rfl, -⟩ := List.cons_prefix_cons.1 front
  have notDigit := not_isDigit_of_isAlpha letter
  have notMinus : d ≠ '-' := by
    rintro rfl
    exact absurd letter (by decide)
  rw [first_eq_plain gap notUuid notDigit fun negative => notMinus negative.1, plain, if_pos letter]
  exact covers

theorem covers_of_hexConstant {text : List Char} (mem : text ∈ Lexical.hexConstant isWordChar)
    (front : text <+: c :: rest) : Covers (first c rest) text (.hex (String.ofList text)) := by
  have covers := covers_hexConstant mem front
  obtain ⟨mark, run, rfl, marked, -⟩ := mem_hexConstant.1 mem
  obtain ⟨after, split⟩ := front
  rw [first_of_hexMark gap notUuid marked split.symm]
  exact covers

theorem first_of_quote {quote : Char} (quoted : quote = '\'' ∨ quote = '"') (same : c = quote) :
    first c rest = if quote = '\'' then stringAfterQuote rest else nameAfterQuote rest := by
  subst same
  rcases quoted with rfl | rfl
  · rw [first_eq_plain gap notUuid (by decide) (by simp)]
    rfl
  · rw [first_eq_plain gap notUuid (by decide) (by simp)]
    rfl

theorem covers_of_string {value : String} (front : (Quoted.render '\'' value).toList <+: c :: rest) :
    Covers (first c rest) (Quoted.render '\'' value).toList (.string value) := by
  have text : (Quoted.render '\'' value).toList
      = '\'' :: (Quoted.encode '\'' value.toList ++ ['\'']) := by
    simp [Quoted.render]
  rw [text] at front
  obtain ⟨same, body⟩ := List.cons_prefix_cons.1 front
  rw [first_of_quote gap notUuid (.inl rfl) same.symm, if_pos rfl, stringAfterQuote_eq]
  have covers := @covers_quoted _ _ _ TokenKind.string .unclosedString body
  rw [String.ofList_toList] at covers
  exact covers

theorem covers_of_quotedName {name : String} (front : (Quoted.render '"' name).toList <+: c :: rest) :
    Covers (first c rest) (Quoted.render '"' name).toList (.quotedName name) := by
  have text : (Quoted.render '"' name).toList = '"' :: (Quoted.encode '"' name.toList ++ ['"']) := by
    simp [Quoted.render]
  rw [text] at front
  obtain ⟨same, body⟩ := List.cons_prefix_cons.1 front
  rw [first_of_quote gap notUuid (.inr rfl) same.symm, if_neg (by decide), nameAfterQuote_eq]
  have covers := @covers_quoted _ _ _ TokenKind.quotedName .unclosedName body
  rw [String.ofList_toList] at covers
  exact covers

theorem covers_of_mark (mark : Punctuation) (front : mark.spelling.toList <+: c :: rest) :
    Covers (first c rest) mark.spelling.toList (.punctuation mark) := by
  rcases comparison_or_single mark with
    ⟨d, alone, withEqual, signs, which⟩ | ⟨d, single, notDigit, plain⟩
  · obtain rfl : d = c := by
      rcases which with rfl | rfl
      · rw [signs.one] at front
        exact (List.cons_prefix_cons.1 front).1
      · rw [signs.two] at front
        exact (List.cons_prefix_cons.1 front).1
    rw [first_eq_plain gap notUuid signs.notDigit fun negative => signs.notMinus negative.1, signs.plain]
    exact covers_comparison signs which front
  · rw [single] at front ⊢
    obtain ⟨rfl, -⟩ := List.cons_prefix_cons.1 front
    by_cases negative : d = '-' ∧ rest.head?.any Char.isDigit = true
    · obtain ⟨rfl, next⟩ := negative
      obtain ⟨digit, head, isDigit⟩ := (Option.any_eq_true _ _).1 next
      obtain ⟨more, rfl⟩ := List.head?_eq_some_iff.1 head
      have mem : [digit] ∈ digits := mem_digits.2 ⟨by simp, by simpa using isDigit⟩
      have le := (covers_integer ['-'] mem ⟨more, rfl⟩).le_width
      rw [first_of_minus gap notUuid rfl next]
      exact .inl le
    · rw [first_eq_plain gap notUuid notDigit negative, plain]
      exact .inr rfl

/-- Nothing in front that spells a token is longer than the first segment. -/
theorem covers_of_spells {text : List Char} {kind : TokenKind} (front : text <+: c :: rest)
    (spells : Spells text kind) : Covers (first c rest) text kind := by
  cases spells with
  | keyword mem same =>
    rw [← wordKind_of_keyword same]
    exact covers_of_word gap notUuid mem front
  | identifier mem other =>
    rw [← wordKind_of_identifier other]
    exact covers_of_word gap notUuid mem front
  | integer mem => exact covers_of_integer gap notUuid mem front
  | float mem => exact covers_of_float gap notUuid mem front
  | hex mem => exact covers_of_hexConstant gap notUuid mem front
  | string value => exact covers_of_string gap notUuid front
  | quotedName name => exact covers_of_quotedName gap notUuid front
  | mark mark => exact covers_of_mark gap notUuid mark front

/-- A quoted text that nothing closes is read to the end. -/
theorem first_of_unclosed {kind : TokenKind} {problem : LexicalProblem}
    (unclosed : Unclosed (c :: rest) kind problem) :
    first c rest = ⟨(c :: rest).length, .token kind, some problem⟩ := by
  cases unclosed with
  | string value =>
    rw [first_of_quote gap notUuid (.inl rfl) rfl, if_pos rfl, stringAfterQuote, read_encode_end,
      Nat.add_comm]
    rfl
  | quotedName value =>
    rw [first_of_quote gap notUuid (.inr rfl) rfl, if_neg (by decide), nameAfterQuote,
      read_encode_end, Nat.add_comm]
    rfl

end First

end Segment

end Cql
