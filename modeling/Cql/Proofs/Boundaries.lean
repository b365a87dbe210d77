/-
The scanner by byte offsets never fails.

It only ever stands at the boundary of a character, and what it finds there is the segment that the cut
into pieces finds.

* `Offsets.At` — a boundary of a character, and the characters behind it;
* `Offsets.step?_eq` — one step finds the segment at the offset;
* `Offsets.scan?_eq` — a scan from a boundary finds the pieces behind it;
* `Offsets.tokenize?_eq_some` — **the whole scan gives the tokens and the diagnostics** of the source.
-/
import Cql.Proofs.Offsets

namespace Cql

namespace Offsets

open Bytes
open Segment (isBlank isHexDigit isWordChar isSign)

/-! ### Boundaries of characters -/

/-- The offset is the boundary of a character, and `cs` is what comes after it. -/
def At (source : List Char) (offset : Nat) (cs : List Char) : Prop :=
  ∃ before, source = before ++ cs ∧ size before = offset

variable {source cs : List Char} {offset : Nat} {c : Char}

theorem At.move {text : List Char} (h : At source offset (text ++ cs)) :
    At source (offset + size text) cs := by
  obtain ⟨before, rfl, rfl⟩ := h
  exact ⟨before ++ text, by rw [List.append_assoc], size_append _ _⟩

theorem At.next (h : At source offset (c :: cs)) : At source (offset + c.utf8Size) cs :=
  @At.move source cs offset [c] h

theorem At.slice?_eq {text : List Char} (h : At source offset (text ++ cs)) :
    slice? offset (offset + size text) source = some text := by
  obtain ⟨before, split, sized⟩ := h
  exact slice?_eq_some.2 ⟨before, cs, split, sized, rfl⟩

theorem At.rest?_eq (h : At source offset cs) : rest? source offset = some cs := by
  have sized : size source = offset + size cs := by
    obtain ⟨before, rfl, rfl⟩ := h
    exact size_append _ _
  have whole : At source offset (cs ++ []) := by rwa [List.append_nil]
  rw [rest?, sized]
  exact whole.slice?_eq

theorem At.peek?_eq (h : At source offset cs) : peek? source offset = some (cs.headD '\x00') := by
  rw [peek?, h.rest?_eq, Option.map_some]

theorem At.peekNext?_eq (h : At source offset cs) :
    peekNext? source offset = some (cs.tail.headD '\x00') := by
  rw [peekNext?, h.rest?_eq, Option.map_some]

theorem At.lt (h : At source offset (c :: cs)) : offset < size source := by
  obtain ⟨before, rfl, rfl⟩ := h
  have := c.utf8Size_pos
  rw [size_append, size]
  omega

theorem At.not_lt (h : At source offset []) : ¬ offset < size source := by
  obtain ⟨before, rfl, rfl⟩ := h
  rw [List.append_nil]
  omega

theorem At.advance?_eq (h : At source offset (c :: cs)) :
    advance? source offset = some (offset + c.utf8Size) := by
  rw [advance?, h.peek?_eq]
  exact if_pos (.inr h.lt)

/-! ### The scanner never fails -/

theorem skipWhile?_eq {test : Char → Bool} (h : At source offset cs) :
    skipWhile? source test offset = some (offset + size (cs.takeWhile test)) := by
  induction cs generalizing offset with
  | nil =>
    rw [skipWhile?, h.peek?_eq]
    simp [h.not_lt, size]
  | cons c cs ih =>
    rw [skipWhile?, h.peek?_eq]
    by_cases passes : test c = true
    · simp [h.lt, passes, ih h.next, size, Nat.add_assoc]
    · simp [passes, size]

theorem At.skip {test : Char → Bool} (h : At source offset cs) :
    At source (offset + size (cs.takeWhile test)) (cs.dropWhile test) :=
  At.move (by rwa [List.takeWhile_append_dropWhile])

theorem closeComment?_eq (h : At source offset cs) :
    closeComment? source offset =
      match Segment.closingWidth? cs with
      | some width => some (offset + size (cs.take width), true)
      | none => some (offset + size cs, false) := by
  fun_induction Segment.closingWidth? cs generalizing offset with
  | case1 =>
    rw [closeComment?, if_neg h.not_lt]
    simp [size]
  | case2 c =>
    rw [closeComment?, if_pos h.lt, h.peek?_eq, h.peekNext?_eq]
    have ended : closeComment? source (offset + c.utf8Size) = some (offset + c.utf8Size, false) := by
      rw [closeComment?, if_neg h.next.not_lt]
    simp [size, ended]
  | case3 c d cs closes =>
    obtain ⟨rfl, rfl⟩ := closes
    rw [closeComment?, if_pos h.lt, h.peek?_eq, h.peekNext?_eq]
    simp [size, Nat.add_assoc]
  | case4 c d cs goesOn ih =>
    rw [closeComment?, if_pos h.lt, h.peek?_eq, h.peekNext?_eq]
    have more := ih h.next
    simp only [List.headD_cons, List.tail_cons, Option.bind_eq_bind, Option.bind_some, if_neg goesOn,
      more]
    cases Segment.closingWidth? (d :: cs) with
    | none => simp [size, Nat.add_assoc]
    | some width => simp [size, Nat.add_assoc]

theorem take_digitRun (cs : List Char) :
    cs.take (Segment.digitRun cs) = cs.takeWhile Char.isDigit :=
  (List.prefix_iff_eq_take.1 (List.takeWhile_prefix _)).symm

theorem headD_eq_iff {cs : List Char} {c : Char} (visible : c ≠ '\x00') :
    cs.headD '\x00' = c ↔ cs.head? = some c := by
  cases cs with
  | nil => simpa using visible.symm
  | cons d cs => simp

theorem fractionEnd?_eq (h : At source offset cs) :
    fractionEnd? source offset = some (offset + size (cs.take (Segment.fractionWidth cs))) := by
  rw [fractionEnd?, h.peek?_eq]
  simp only [Option.bind_eq_bind, Option.bind_some, headD_eq_iff (show '.' ≠ '\x00' by decide)]
  by_cases point : cs.head? = some '.'
  · obtain ⟨cs, rfl⟩ := List.head?_eq_some_iff.1 point
    rw [if_pos point, h.advance?_eq, Option.bind_some, skipWhile?_eq h.next]
    simp [Segment.fractionWidth, Nat.add_comm 1, take_digitRun, size, Nat.add_assoc]
  · rw [if_neg point, Segment.fractionWidth_of_ne point]
    rfl

theorem head?_any_isDigit (cs : List Char) :
    cs.head?.any Char.isDigit = decide (Segment.digitRun cs ≠ 0) := by
  cases cs with
  | nil => rfl
  | cons c cs => cases digit : c.isDigit <;> simp [Segment.digitRun, digit]

theorem signEnd?_eq {sign rest : List Char} (h : At source offset (sign ++ rest))
    (signed : Segment.IsSignOf sign (sign ++ rest)) : signEnd? source offset = some (offset + size sign) := by
  rw [signEnd?, h.peek?_eq]
  simp only [Option.bind_eq_bind, Option.bind_some]
  rcases signed with ⟨rfl, unsigned⟩ | ⟨c, rfl, signed⟩
  · have none : ¬ isSign (([] ++ rest).headD '\x00') = true := by
      cases rest with
      | nil => decide
      | cons c rest => simpa using unsigned
    rw [if_neg none]
    rfl
  · rw [List.singleton_append, List.headD_cons, if_pos signed, h.advance?_eq]
    rfl

theorem exponentFollows?_eq {sign rest : List Char} (h : At source (offset + 1) (sign ++ rest))
    (signed : Segment.IsSignOf sign (sign ++ rest)) :
    exponentFollows? source offset = some (decide (Segment.digitRun rest ≠ 0)) := by
  rw [exponentFollows?, h.rest?_eq, ← head?_any_isDigit]
  rcases signed with ⟨rfl, unsigned⟩ | ⟨c, rfl, signed⟩
  · simp only [List.nil_append] at unsigned ⊢
    simp [unsigned]
  · simp [signed]

theorem exponentEnd?_eq (h : At source offset cs) :
    exponentEnd? source offset = some (offset + size (cs.take (Segment.exponentWidth cs))) := by
  rw [exponentEnd?, h.peek?_eq]
  cases cs with
  | nil => simp [size]
  | cons mark cs =>
    obtain ⟨sign, rest, rfl, width, signed⟩ := Segment.exists_sign cs
    simp only [Option.bind_eq_bind, Option.bind_some, List.headD_cons, Segment.exponentWidth, width,
      List.drop_left]
    by_cases marked : mark = 'e' ∨ mark = 'E'
    · have oneByte : mark.utf8Size = 1 := by
        rcases marked with rfl | rfl
        · rfl
        · rfl
      have behind := h.next
      rw [if_pos marked, exponentFollows?_eq (by rwa [oneByte] at behind) signed, Option.bind_some]
      by_cases complete : Segment.digitRun rest ≠ 0
      · have taken : (mark :: (sign ++ rest)).take (1 + sign.length + Segment.digitRun rest)
            = mark :: (sign ++ rest.takeWhile Char.isDigit) := by
          rw [Nat.add_assoc, Nat.add_comm 1, List.take_succ_cons, List.take_length_add_append,
            take_digitRun]
        rw [if_pos (decide_eq_true complete), h.advance?_eq, Option.bind_some,
          signEnd?_eq behind signed, Option.bind_some, skipWhile?_eq behind.move,
          if_pos ⟨marked, complete⟩, taken, size, size_append, Nat.add_assoc, Nat.add_assoc]
      · rw [if_neg (by simpa using complete), if_neg fun both => complete both.2]
        rfl
    · rw [if_neg marked, if_neg fun both => marked both.1]
      rfl

/-! ### Tokens -/

/-- What the scanner should find at an offset where a segment of `cs` begins. -/
def found (start : Nat) (cs : List Char) (segment : Segment) : Find :=
  ⟨start + size (cs.take segment.width), segment.content, segment.problem⟩

theorem number?_eq {start : Nat} {sign body : List Char} (h : At source start (sign ++ body)) :
    number? source start (start + size sign)
      = some (found start (sign ++ body) (Segment.number sign.length (sign ++ body))) := by
  obtain ⟨ds, rest, split, run, all⟩ := Segment.exists_digits body
  have whole : body.takeWhile Char.isDigit = ds := by
    rw [← take_digitRun, run, split, List.take_left]
  subst split
  obtain ⟨front, back, rest', split, width, -⟩ := Segment.exists_tail rest
  have bodyAt := h.move
  have restAt := bodyAt.move
  have fraction := fractionEnd?_eq restAt
  have fractionAt : At source (start + size sign + size ds
      + size (rest.take (Segment.fractionWidth rest))) (rest.drop (Segment.fractionWidth rest)) :=
    At.move (by rwa [List.take_append_drop])
  have exponent := exponentEnd?_eq fractionAt
  -- The three parts together are what the number takes.
  have tail : size (rest.take (Segment.fractionWidth rest))
      + size ((rest.drop (Segment.fractionWidth rest)).take
        (Segment.exponentWidth (rest.drop (Segment.fractionWidth rest)))) = size (front ++ back) := by
    rw [← size_append, ← List.take_add, ← Segment.tailWidth, width, split, List.take_left]
  have stop : start + size sign + size ds + size (rest.take (Segment.fractionWidth rest))
      + size ((rest.drop (Segment.fractionWidth rest)).take
        (Segment.exponentWidth (rest.drop (Segment.fractionWidth rest))))
      = start + size (sign ++ (ds ++ (front ++ back))) := by
    simp only [size_append] at tail ⊢
    omega
  have text : slice? start (start + size (sign ++ (ds ++ (front ++ back)))) source
      = some (sign ++ (ds ++ (front ++ back))) := by
    have parts : At source start ((sign ++ (ds ++ (front ++ back))) ++ rest') := by
      simpa [split] using h
    exact parts.slice?_eq
  have tailTaken : rest.take (front ++ back).length = front ++ back := by
    rw [split, List.take_left]
  have taken : (sign ++ (ds ++ rest)).take (sign.length + ds.length + (front ++ back).length)
      = sign ++ (ds ++ (front ++ back)) := by
    rw [Nat.add_assoc, List.take_length_add_append, List.take_length_add_append, tailTaken]
  have bare : start + size (sign ++ (ds ++ (front ++ back))) = start + size sign + size ds ↔
      (front ++ back).length = 0 := by
    rw [List.length_eq_zero_iff, ← size_eq_zero, size_append, size_append]
    omega
  rw [number?, skipWhile?_eq bodyAt, whole, Segment.number_eq sign run, width]
  simp only [Option.bind_eq_bind, Option.bind_some, fraction, exponent, stop, text, found,
    Segment.ofKind, taken, tailTaken, bare]

theorem word?_eq {start : Nat} {first : Char} (letter : isWordChar first = true)
    (h : At source start (first :: cs)) :
    word? source start (start + first.utf8Size)
      = some (found start (first :: cs) (Segment.word (first :: cs))) := by
  have taken : (first :: cs).take ((first :: cs).takeWhile isWordChar).length
      = (first :: cs).takeWhile isWordChar :=
    (List.prefix_iff_eq_take.1 (List.takeWhile_prefix _)).symm
  have stop : start + first.utf8Size + size (cs.takeWhile isWordChar)
      = start + size ((first :: cs).takeWhile isWordChar) := by
    rw [List.takeWhile_cons_of_pos letter, size, Nat.add_assoc]
  have text : slice? start (start + size ((first :: cs).takeWhile isWordChar)) source
      = some ((first :: cs).takeWhile isWordChar) := by
    rw [← List.takeWhile_append_dropWhile (p := isWordChar) (l := first :: cs)] at h
    exact h.slice?_eq
  rw [word?, skipWhile?_eq h.next, stop, Segment.word_eq]
  simp only [Option.bind_eq_bind, Option.bind_some, text, found, Segment.ofKind, taken]

/-- Hexadecimal digits and the word characters behind them are a run of word characters. -/
theorem takeWhile_hexDigits (cs : List Char) :
    cs.takeWhile isHexDigit ++ (cs.dropWhile isHexDigit).takeWhile isWordChar
      = cs.takeWhile isWordChar := by
  have wordChars : ∀ c ∈ cs.takeWhile isHexDigit, isWordChar c = true := fun c mem =>
    Segment.isWordChar_of_isHexDigit (Segment.of_mem_takeWhile mem)
  rw [← List.takeWhile_append_of_pos wordChars, List.takeWhile_append_dropWhile]

/-- No word character follows the hexadecimal digits of a run if there are only such digits in it. -/
theorem takeWhile_dropWhile_hexDigits (cs : List Char) :
    (cs.dropWhile isHexDigit).takeWhile isWordChar = [] ↔
      (cs.takeWhile isWordChar).all isHexDigit = true := by
  rw [← takeWhile_hexDigits cs, List.all_append, List.all_takeWhile, Bool.true_and]
  constructor
  · intro none
    rw [none]
    rfl
  · intro all
    have stops := List.head?_dropWhile_not isHexDigit cs
    cases rest : cs.dropWhile isHexDigit with
    | nil => rfl
    | cons c rest =>
      rw [rest] at stops all
      cases letter : isWordChar c with
      | false => rw [List.takeWhile_cons_of_neg (by simp [letter])]
      | true =>
        rw [List.takeWhile_cons_of_pos letter, List.all_cons, Bool.and_eq_true] at all
        exact absurd all.1 (by simpa using stops)

theorem hexConstant?_eq {start : Nat} {mark : Char} (marked : mark = 'x' ∨ mark = 'X')
    (h : At source start ('0' :: mark :: cs)) :
    hexConstant? source start (start + '0'.utf8Size)
      = some (found start ('0' :: mark :: cs) (Segment.hexConstant ('0' :: mark :: cs))) := by
  have digitsAt := h.next.next
  have wordChar := Lexical.isWordChar_of_hexMark marked
  have run : ('0' :: mark :: cs).takeWhile isWordChar = '0' :: mark :: cs.takeWhile isWordChar := by
    rw [List.takeWhile_cons_of_pos (by decide), List.takeWhile_cons_of_pos wordChar]
  have taken : ('0' :: mark :: cs).take ('0' :: mark :: cs.takeWhile isWordChar).length
      = '0' :: mark :: cs.takeWhile isWordChar := by
    rw [← run]
    exact (List.prefix_iff_eq_take.1 (List.takeWhile_prefix _)).symm
  have stop : start + '0'.utf8Size + mark.utf8Size + size (cs.takeWhile isHexDigit)
      + size ((cs.dropWhile isHexDigit).takeWhile isWordChar)
      = start + size ('0' :: mark :: cs.takeWhile isWordChar) := by
    have joined := congrArg size (takeWhile_hexDigits cs)
    rw [size_append] at joined
    rw [size, size]
    omega
  have text : slice? start (start + size ('0' :: mark :: cs.takeWhile isWordChar)) source
      = some ('0' :: mark :: cs.takeWhile isWordChar) := by
    have parts : At source start
        (('0' :: mark :: cs.takeWhile isWordChar) ++ cs.dropWhile isWordChar) := by
      rwa [List.cons_append, List.cons_append, List.takeWhile_append_dropWhile]
    exact parts.slice?_eq
  have fine : start + size ('0' :: mark :: cs.takeWhile isWordChar)
      = start + '0'.utf8Size + mark.utf8Size + size (cs.takeWhile isHexDigit) ↔
      (cs.takeWhile isWordChar).all isHexDigit = true := by
    rw [← takeWhile_dropWhile_hexDigits, ← size_eq_zero]
    omega
  rw [hexConstant?, h.next.advance?_eq]
  simp only [Option.bind_eq_bind, Option.bind_some, skipWhile?_eq digitsAt,
    skipWhile?_eq digitsAt.skip, stop, text, found, Segment.hexConstant, run, taken, fine,
    List.drop_succ_cons, List.drop_zero]

theorem readQuoted?_eq {quote : Char} (visible : quote ≠ '\x00') (h : At source offset cs) :
    readQuoted? source quote offset
      = some ((Quoted.read quote cs).value, offset + size (cs.take (Quoted.read quote cs).width),
          (Quoted.read quote cs).closed) := by
  fun_induction Quoted.read quote cs generalizing offset with
  | case1 =>
    rw [readQuoted?, if_neg h.not_lt]
    rfl
  | case2 =>
    rw [readQuoted?, if_pos h.lt, h.peek?_eq]
    simp [h.next.peek?_eq, visible.symm, size]
  | case3 c other =>
    have ended : readQuoted? source quote (offset + c.utf8Size)
        = some ([], offset + c.utf8Size, false) := by
      rw [readQuoted?, if_neg h.next.not_lt]
    rw [readQuoted?, if_pos h.lt, h.peek?_eq]
    simp [other, ended, size]
  | case4 rest ih =>
    have more := ih h.next.next
    rw [Nat.add_assoc] at more
    rw [readQuoted?, if_pos h.lt, h.peek?_eq]
    simp [h.next.peek?_eq, more, Quoted.Body.push, size, Nat.add_comm 2, Nat.add_assoc]
  | case5 d rest other =>
    rw [readQuoted?, if_pos h.lt, h.peek?_eq]
    simp [h.next.peek?_eq, other, size]
  | case6 c d rest other ih =>
    rw [readQuoted?, if_pos h.lt, h.peek?_eq]
    simp [other, ih h.next, Quoted.Body.push, size, Nat.add_comm 1, Nat.add_assoc]

theorem undouble_encode (quote : Char) (value : List Char) :
    undouble quote (Quoted.encode quote value) = value := by
  induction value with
  | nil => rfl
  | cons c value ih =>
    by_cases same : c = quote
    · simp [Quoted.encode, same, undouble, ih]
    · cases rest : Quoted.encode quote value with
      | nil => simpa [Quoted.encode, same, undouble, rest] using ih
      | cons d rest' =>
        rw [rest] at ih
        simp [Quoted.encode, same, undouble, rest, ih]

theorem quoted?_eq {quote : Char} {kind : String → TokenKind} {problem : LexicalProblem} {start : Nat}
    (visible : quote ≠ '\x00') (oneByte : quote.utf8Size = 1) (h : At source start (quote :: cs)) :
    quoted? source quote kind problem start (start + quote.utf8Size)
      = some (found start (quote :: cs) ⟨1 + (Quoted.read quote cs).width,
          .token (kind (String.ofList (Quoted.read quote cs).value)),
          if (Quoted.read quote cs).closed then
            (kind (String.ofList (Quoted.read quote cs).value)).problem?
          else some problem⟩) := by
  have behind := h.next
  rw [quoted?, readQuoted?_eq visible behind]
  have stop : start + quote.utf8Size + size (cs.take (Quoted.read quote cs).width)
      = start + size ((quote :: cs).take (1 + (Quoted.read quote cs).width)) := by
    rw [Nat.add_comm 1, List.take_succ_cons, size, Nat.add_assoc]
  simp only [Option.bind_eq_bind, Option.bind_some, stop, found]
  cases closed : (Quoted.read quote cs).closed with
  | true => rfl
  | false =>
    -- Without a closing quote every quote in the body is doubled, and both readings agree.
    have value : undouble quote cs = (Quoted.read quote cs).value := by
      rcases Segment.read_cases quote cs with ⟨value, after, -, -, read⟩ | ⟨value, split, read⟩
      · rw [read] at closed
        exact absurd closed (by simp)
      · rw [read, split, undouble_encode]
    rw [oneByte] at behind
    simp [behind.rest?_eq, value]

theorem utf8Size_of_isHexDigit {c : Char} (hexDigit : isHexDigit c = true) : c.utf8Size = 1 := by
  simp only [isHexDigit, Char.isDigit, Bool.or_eq_true, Bool.and_eq_true, decide_eq_true_eq,
    Char.le_def] at hexDigit
  have ascii : c.val ≤ 127 := by
    rcases hexDigit with (digit | lower) | upper
    · exact UInt32.le_trans digit.2 (by decide)
    · exact UInt32.le_trans lower.2 (by decide)
    · exact UInt32.le_trans upper.2 (by decide)
  exact if_pos ascii

theorem size_of_mem_ofForms {forms : List (Char → Bool)} {text : List Char}
    (ascii : ∀ form ∈ forms, ∀ c, form c = true → c.utf8Size = 1)
    (mem : text ∈ Lexical.ofForms forms) : size text = forms.length := by
  induction forms generalizing text with
  | nil => simp [(Language.mem_one text).1 mem, size]
  | cons form forms ih =>
    obtain ⟨c, rest, rfl, passes, mem⟩ := Lexical.mem_one_mul.1 mem
    rw [size, ascii form List.mem_cons_self c passes,
      ih (fun form mem => ascii form (List.mem_cons_of_mem _ mem)) mem, List.length_cons, Nat.add_comm]

theorem size_of_mem_uuid {text : List Char} (mem : text ∈ Lexical.uuid) : size text = 36 := by
  rw [Lexical.uuid_eq] at mem
  refine size_of_mem_ofForms (fun form memForm c passes => ?_) mem
  have hexOrHyphen : form = isHexDigit ∨ form = (· = '-') := by
    simpa [Segment.uuidForm, or_comm, or_left_comm, or_assoc] using memForm
  rcases hexOrHyphen with rfl | rfl
  · exact utf8Size_of_isHexDigit passes
  · rw [of_decide_eq_true passes]
    rfl

/-- A slice from a boundary is in front of what comes after it. -/
theorem At.eq_of_slice? {start stop : Nat} {text : List Char} (h : At source start cs)
    (sliced : slice? start stop source = some text) : text <+: cs := by
  obtain ⟨before, rfl, rfl⟩ := h
  obtain ⟨before', after, split, sized, -⟩ := slice?_eq_some.1 sliced
  have same : before = before' := by
    have left : before? (size before) (before ++ cs) = some before :=
      before?_eq_some.2 ⟨rfl, cs, rfl⟩
    have right : before? (size before) (before ++ cs) = some before' :=
      before?_eq_some.2 ⟨sized, text ++ after, split⟩
    exact Option.some.inj (left.symm.trans right)
  subst same
  rw [List.append_cancel_left split]
  exact List.prefix_append _ _

theorem uuid?_eq {start : Nat} {rest : List Char} (h : At source start (c :: rest)) :
    (if isHexDigit c then uuid? source start else none)
      = if Segment.startsWith Segment.uuidForm (c :: rest) then
          some ((c :: rest).take Segment.uuidForm.length) else none := by
  by_cases front : Segment.startsWith Segment.uuidForm (c :: rest) = true
  · have hexDigit : isHexDigit c = true := (Bool.and_eq_true_iff.1 front).1
    obtain ⟨text, mem, after, split⟩ := Lexical.startsWith_uuidForm_iff.1 front
    have sliced : slice? start (start + 36) source = some text := by
      rw [← size_of_mem_uuid mem]
      rw [← split] at h
      exact h.slice?_eq
    have formed : Segment.startsWith Segment.uuidForm text = true :=
      Lexical.startsWith_uuidForm_iff.2 ⟨text, mem, List.prefix_refl text⟩
    rw [if_pos hexDigit, if_pos front, uuid?, sliced, ← split, ← Lexical.length_of_mem_uuid mem,
      List.take_left, Option.filter_some, if_pos formed]
  · rw [if_neg front]
    split
    · rw [uuid?, Option.filter_eq_none_iff]
      intro text sliced formed
      obtain ⟨uuid, mem, before⟩ := Lexical.startsWith_uuidForm_iff.1 formed
      exact front (Lexical.startsWith_uuidForm_iff.2
        ⟨uuid, mem, before.trans (h.eq_of_slice? sliced)⟩)
    · rfl

theorem found_one {start : Nat} {rest : List Char} {content : SegmentContent}
    {problem : Option LexicalProblem} :
    found start (c :: rest) ⟨1, content, problem⟩ = ⟨start + c.utf8Size, content, problem⟩ := by
  simp [found, size]

/-- The first digit of a number may be stepped over before the others. -/
theorem number?_digit {start : Nat} {rest : List Char} (digit : c.isDigit = true)
    (h : At source start (c :: rest)) :
    number? source start (start + c.utf8Size)
      = some (found start (c :: rest) (Segment.number 0 (c :: rest))) := by
  have digits : skipWhile? source Char.isDigit (start + c.utf8Size)
      = skipWhile? source Char.isDigit (start + size []) := by
    show _ = skipWhile? source Char.isDigit start
    rw [skipWhile?_eq h.next, skipWhile?_eq h, List.takeWhile_cons_of_pos digit, size, Nat.add_assoc]
  rw [number?, digits, ← number?]
  exact @number?_eq source start [] (c :: rest) h

theorem comparison?_eq {start : Nat} {rest : List Char} (alone withEqual : Punctuation)
    (h : At source start (c :: rest)) (found : Punctuation.ofSpelling? c.toString = some alone) :
    (if rest.head? = some '=' then do
        let stop ← advance? source (start + c.utf8Size)
        some ⟨stop, .token (.punctuation withEqual), none⟩
      else some (markOrStray (start + c.utf8Size) c))
      = some (Offsets.found start (c :: rest) (Segment.comparison alone withEqual rest)) := by
  unfold Segment.comparison
  by_cases equal : rest.head? = some '='
  · obtain ⟨more, rfl⟩ := List.head?_eq_some_iff.1 equal
    rw [if_pos equal, if_pos equal, h.next.advance?_eq]
    simp [Offsets.found, Segment.ofKind, size, Nat.add_assoc]
  · rw [if_neg equal, if_neg equal, markOrStray, found]
    exact congrArg some found_one.symm

theorem plain?_eq {start : Nat} {rest : List Char} (h : At source start (c :: rest)) :
    plain? source start (start + c.utf8Size) c
      = some (found start (c :: rest) (Segment.plain c rest)) := by
  rw [plain?, h.next.peek?_eq]
  simp only [Option.bind_eq_bind, Option.bind_some, headD_eq_iff (show '=' ≠ '\x00' by decide)]
  unfold Segment.plain
  by_cases letter : c.isAlpha = true
  · rw [if_pos letter, if_pos letter]
    exact word?_eq (by simp [isWordChar, Char.isAlphanum, letter]) h
  rw [if_neg letter, if_neg letter]
  by_cases single : c = '\''
  · subst single
    exact quoted?_eq (by decide) rfl h
  rw [if_neg single, if_neg single]
  by_cases double : c = '"'
  · subst double
    rw [Segment.nameAfterQuote_eq]
    exact quoted?_eq (by decide) rfl h
  rw [if_neg double, if_neg double]
  by_cases less : c = '<'
  · subst less
    simpa using comparison?_eq .less .lessEqual h (by decide)
  by_cases greater : c = '>'
  · subst greater
    simpa using comparison?_eq .greater .greaterEqual h (by decide)
  · simp only [less, greater, false_or, false_and, if_false, Segment.markOrStray, markOrStray]
    cases Punctuation.ofSpelling? c.toString with
    | some mark => exact congrArg some found_one.symm
    | none => exact congrArg some found_one.symm

theorem token?_eq {start : Nat} {rest : List Char} (h : At source start (c :: rest))
    (token : Segment.gap? c rest = none) :
    token? source start c = some (found start (c :: rest) (Segment.first c rest)) := by
  have behind := h.next
  have nextDigit : (rest.headD '\x00').isDigit = rest.head?.any Char.isDigit := by
    cases rest with
    | nil => decide
    | cons d rest => rfl
  rw [token?, uuid?_eq h]
  unfold Segment.first Segment.constant?
  rw [token]
  by_cases front : Segment.startsWith Segment.uuidForm (c :: rest) = true
  · obtain ⟨text, mem, after, split⟩ := Lexical.startsWith_uuidForm_iff.1 front
    have taken : (c :: rest).take Segment.uuidForm.length = text := by
      rw [← split, ← Lexical.length_of_mem_uuid mem, List.take_left]
    simp only [if_pos front, found, Segment.ofKind, taken, size_of_mem_uuid mem]
  simp only [if_neg front, h.advance?_eq, behind.peek?_eq, Option.bind_eq_bind, Option.bind_some,
    headD_eq_iff (show 'x' ≠ '\x00' by decide), headD_eq_iff (show 'X' ≠ '\x00' by decide),
    nextDigit]
  by_cases hex : c = '0' ∧ (rest.head? = some 'x' ∨ rest.head? = some 'X')
  · simp only [if_pos hex]
    obtain ⟨rfl, head⟩ := hex
    obtain ⟨mark, more, rfl, marked⟩ := Segment.exists_of_hexConstant head
    exact hexConstant?_eq marked h
  simp only [if_neg hex]
  by_cases digit : c.isDigit = true
  · simp only [if_pos digit]
    exact number?_digit digit h
  simp only [if_neg digit]
  by_cases negative : c = '-' ∧ rest.head?.any Char.isDigit = true
  · simp only [if_pos negative]
    obtain ⟨rfl, -⟩ := negative
    exact @number?_eq source start ['-'] rest h
  simp only [if_neg negative]
  exact plain?_eq h

/-! ### Steps -/

theorem lineComment?_eq {start : Nat} {more : List Char} (marked : c = '-' ∨ c = '/')
    (h : At source start (c :: c :: more)) :
    (do
      let stop ← skipWhile? source (· ≠ '\n') start
      some (⟨stop, .comment, none⟩ : Find))
      = some (found start (c :: c :: more) (Segment.lineComment more)) := by
  have other : decide (c ≠ '\n') = true := by
    rcases marked with rfl | rfl
    · decide
    · decide
  have run : (c :: c :: more).takeWhile (· ≠ '\n') = c :: c :: more.takeWhile (· ≠ '\n') := by
    rw [List.takeWhile_cons, if_pos other, List.takeWhile_cons, if_pos other]
  have taken : (c :: c :: more).take (2 + (more.takeWhile (· ≠ '\n')).length)
      = c :: c :: more.takeWhile (· ≠ '\n') := by
    rw [Nat.add_comm 2, List.take_succ_cons, List.take_succ_cons,
      ← List.prefix_iff_eq_take.1 (List.takeWhile_prefix _)]
  rw [skipWhile?_eq h, run]
  simp only [Option.bind_eq_bind, Option.bind_some, found, Segment.lineComment, taken]

theorem blockComment?_eq {start : Nat} {more : List Char} (h : At source start ('/' :: '*' :: more)) :
    (do
      let star ← advance? source start
      let body ← advance? source star
      let (stop, closed) ← closeComment? source body
      some (⟨stop, .comment, if closed then none else some .unclosedComment⟩ : Find))
      = some (found start ('/' :: '*' :: more) (Segment.blockComment more)) := by
  simp only [h.advance?_eq, h.next.advance?_eq, Option.bind_eq_bind, Option.bind_some,
    closeComment?_eq h.next.next, Segment.blockComment]
  cases Segment.closingWidth? more with
  | some width => simp [found, size, Nat.add_comm 2, Nat.add_assoc]
  | none => simp [found, size, Nat.add_comm 2, Nat.add_assoc]

/-- A step from the boundary of a character does not fail, and finds the segment there. -/
theorem step?_eq {start : Nat} {rest : List Char} (h : At source start (c :: rest)) :
    step? source start = some (found start (c :: rest) (Segment.first c rest)) := by
  rw [step?, h.peek?_eq, h.peekNext?_eq]
  simp only [Option.bind_eq_bind, Option.bind_some, List.headD_cons, List.tail_cons,
    headD_eq_iff (show '-' ≠ '\x00' by decide), headD_eq_iff (show '/' ≠ '\x00' by decide),
    headD_eq_iff (show '*' ≠ '\x00' by decide)]
  cases gap : Segment.gap? c rest with
  | none =>
    have token := token?_eq h gap
    unfold Segment.gap? at gap
    split at gap
    · exact absurd gap (by simp)
    rename_i notBlank
    split at gap
    · exact absurd gap (by simp)
    rename_i notLine
    split at gap
    · exact absurd gap (by simp)
    rename_i notBlock
    rw [if_neg notBlank, if_neg notLine, if_neg notBlock, token]
  | some segment =>
    have first : Segment.first c rest = segment := by
      unfold Segment.first
      rw [gap]
    rw [first]
    unfold Segment.gap? at gap
    split at gap
    · rename_i blank
      obtain rfl := Option.some.inj gap
      rw [if_pos blank, h.advance?_eq]
      exact congrArg some found_one.symm
    rename_i notBlank
    split at gap
    · rename_i line
      obtain rfl := Option.some.inj gap
      rw [if_neg notBlank, if_pos line]
      obtain ⟨marked, more, rfl⟩ := Segment.exists_of_lineComment line
      exact lineComment?_eq marked h
    rename_i notLine
    split at gap
    · rename_i block
      obtain rfl := Option.some.inj gap
      rw [if_neg notBlank, if_neg notLine, if_pos block]
      obtain ⟨rfl, head⟩ := block
      obtain ⟨more, rfl⟩ := List.head?_eq_some_iff.1 head
      exact blockComment?_eq h
    · exact absurd gap (by simp)

/-! ### The whole scan -/

theorem tokenAt?_eq {start : Nat} {text after : List Char} {segment : Segment}
    (h : At source start (text ++ after)) :
    tokenAt? source start ⟨start + size text, segment.content, segment.problem⟩
      = some (Piece.token? ⟨start, text, segment⟩).toList := by
  unfold tokenAt? Piece.token?
  cases segment.content with
  | token kind =>
    simp only [h.slice?_eq, Option.bind_eq_bind, Option.bind_some]
    rfl
  | blank | comment | stray => rfl

theorem diagnosticAt?_eq {start : Nat} {text after : List Char} {segment : Segment}
    (nonempty : text ≠ []) (h : At source start (text ++ after)) :
    diagnosticAt? source start ⟨start + size text, segment.content, segment.problem⟩
      = some (Piece.diagnostic? ⟨start, text, segment⟩).toList := by
  unfold diagnosticAt? Piece.diagnostic?
  cases segment.problem with
  | none => rfl
  | some problem =>
    obtain ⟨c, text, rfl⟩ := List.exists_cons_of_ne_nil nonempty
    simp only [h.rest?_eq, Option.bind_eq_bind, Option.bind_some, LexicalProblem.diagnostic]
    cases whole : problem.ofWholeToken with
    | true => simp [whole]
    | false => simp [whole]

theorem scan?_eq (h : At source offset cs) :
    scan? source offset = some ((pieces offset 0 cs).filterMap (·.token?),
      (pieces offset 0 cs).filterMap (·.diagnostic?)) := by
  induction cs using cut_induction generalizing offset with
  | nil =>
    rw [scan?, if_neg h.not_lt]
    rfl
  | cons c rest ih =>
    obtain ⟨text, after, split, reads⟩ := Segment.reads_first c rest
    have width := reads.width_eq
    have positive := Segment.first_width_pos c rest
    rw [width, split, List.drop_left] at ih
    have step := step?_eq h
    rw [found, width, split, List.take_left] at step
    rw [scan?, if_pos h.lt, step, split, pieces_append split.symm rfl width]
    rw [split] at h
    have nonempty : text ≠ [] := List.ne_nil_of_length_pos (by omega)
    -- A step takes at least one byte, so the scan of the rest is the one of the induction.
    have moves : offset < offset + size text := by
      have := mt size_eq_zero.1 nonempty
      omega
    simp only [Option.bind_eq_bind, Option.bind_some, tokenAt?_eq h, diagnosticAt?_eq nonempty h,
      if_pos moves, ih h.move, List.filterMap_cons]
    congr 2
    · cases Piece.token? ⟨offset, text, Segment.first c rest⟩ with
      | none => rfl
      | some token => rfl
    · cases Piece.diagnostic? ⟨offset, text, Segment.first c rest⟩ with
      | none => rfl
      | some diagnostic => rfl

/-- Cutting a source by byte offsets never fails, and it gives the tokens and the diagnostics of the
source. -/
theorem tokenize?_eq_some (source : String) : tokenize? source = some (tokenize source) := by
  have start : At source.toList 0 source.toList := ⟨[], rfl, rfl⟩
  rw [tokenize?, scan?_eq start]
  rfl

end Offsets

end Cql
