/-
What is left of a segment that is cut off.

Most segments are taken as long as possible, and so is what is left of them: the front of a word is a
word, the front of a comment a comment or a single sign, the front of a string a string, closed or not.
Only a number or a UUID can fall apart, as `1.5e+` does, and there are too few letters in it for the
keywords that begin or end a statement.

* `Segment.Whole` — the text is one segment;
* `Segment.whole_or_numeric` — **the front of a sound segment is one segment, or it is numeric**;
* `keyword_of_fragment` — a keyword in what is left of a piece was the front of a longer word;
* `exists_cut` — a text that ends inside some pieces ends inside one of them.
-/
import Mathlib.Data.List.TakeWhile
import Cql.Proofs.Lossless
import Cql.Proofs.Rendering
import Cql.Proofs.Truncation

namespace Cql

open Bytes

/-- What ends before the last item is in front of it. -/
theorem isPrefix_of_cut {α : Type} {front back items : List α} {last : α}
    (split : front ++ back = items ++ [last]) (cut : back ≠ []) : front <+: items := by
  rcases List.prefix_concat_iff.1 ⟨back, split⟩ with rfl | within
  · exact absurd (List.append_right_eq_self.1 split) cut
  · exact within

namespace Segment

open Lexical

/-! ### One segment -/

/-- The text is one segment. -/
def Whole (text : List Char) : Prop :=
  ∃ c rest, text = c :: rest ∧ (first c rest).width = text.length

theorem Whole.pieces_eq {text : List Char} (whole : Whole text) (start : Nat) :
    ∃ segment, pieces start 0 text = [⟨start, text, segment⟩] := by
  obtain ⟨c, rest, split, width⟩ := whole
  have cut := @pieces_append start text [] _ c rest (by rw [List.append_nil, split]) rfl width
  rw [List.append_nil, pieces_nil] at cut
  exact ⟨_, cut⟩

theorem whole_singleton (c : Char) : Whole [c] := by
  obtain ⟨text, after, split, reads⟩ := reads_first c []
  have positive := first_width_pos c []
  have total := congrArg List.length split
  rw [List.length_append, ← reads.width_eq] at total
  refine ⟨c, [], rfl, ?_⟩
  rw [List.length_singleton] at total ⊢
  omega

theorem whole_of_spells {text : List Char} {kind : TokenKind} (spells : Spells text kind) :
    Whole text := by
  obtain ⟨c, rest, split, same⟩ := first_of_spells spells
  exact ⟨c, rest, split, by rw [same]⟩

theorem whole_of_unclosed {text : List Char} {kind : TokenKind} {problem : LexicalProblem}
    (unclosed : Unclosed text kind problem) : Whole text := by
  obtain ⟨quote, body, rfl, gap, notUuid⟩ : ∃ quote body, text = quote :: body ∧
      gap? quote body = none ∧ ¬ startsWith uuidForm (quote :: body) = true := by
    cases unclosed with
    | string => exact ⟨_, _, rfl, rfl, Bool.false_ne_true⟩
    | quotedName => exact ⟨_, _, rfl, rfl, Bool.false_ne_true⟩
  exact ⟨quote, body, rfl, by rw [first_of_unclosed gap notUuid unclosed]⟩

theorem whole_of_line {mark : Char} {body : List Char} (opens : mark = '-' ∨ mark = '/')
    (within : '\n' ∉ body) : Whole (mark :: mark :: body) := by
  have run : body.takeWhile (· ≠ '\n') = body := by
    refine List.takeWhile_eq_self_iff.2 fun c mem => decide_eq_true ?_
    rintro rfl
    exact within mem
  have gap : gap? mark (mark :: body) = some (lineComment body) := by
    rcases opens with rfl | rfl
    · rfl
    · rfl
  refine ⟨mark, mark :: body, rfl, ?_⟩
  simp only [first, gap, lineComment, run, List.length_cons]
  omega

/-- A block comment that nothing closes goes on to the end of the text. -/
theorem whole_of_openBlock {body : List Char} (within : ¬ ['*', '/'] <:+: body) :
    Whole ('/' :: '*' :: body) := by
  have none : closingWidth? body = none := by
    rcases closingWidth?_cases body with ⟨before, after, rfl, -⟩ | ⟨none, -⟩
    · exact absurd (List.infix_append before _ after) within
    · exact none
  refine ⟨'/', '*' :: body, rfl, ?_⟩
  show (blockComment body).width = _
  simp only [blockComment, none, List.length_cons]
  omega

/-! ### The front of a segment -/

/-- The front of a doubled body is a doubled body, or one with a quote after it. -/
theorem prefix_encode {quote : Char} {value front : List Char}
    (h : front <+: Quoted.encode quote value) :
    ∃ part, front = Quoted.encode quote part ∨ front = Quoted.encode quote part ++ [quote] := by
  induction value generalizing front with
  | nil => exact ⟨[], .inl (List.prefix_nil.1 h)⟩
  | cons c value ih =>
    have more : ∀ rest, rest <+: Quoted.encode quote value → ∃ part,
        Quoted.encode quote [c] ++ rest = Quoted.encode quote part ∨
          Quoted.encode quote [c] ++ rest = Quoted.encode quote part ++ [quote] := by
      intro rest within
      obtain ⟨part, same | same⟩ := ih within
      · exact ⟨c :: part, .inl (by rw [same, ← encode_append, List.singleton_append])⟩
      · refine ⟨c :: part, .inr ?_⟩
        rw [same, ← List.append_assoc, ← encode_append, List.singleton_append]
    -- A quote is written twice, so the front may end between the two.
    by_cases same : c = quote
    · subst same
      simp only [Quoted.encode, if_pos] at h more
      cases front with
      | nil => exact ⟨[], .inl rfl⟩
      | cons d front =>
        obtain ⟨rfl, within⟩ := List.cons_prefix_cons.1 h
        cases front with
        | nil => exact ⟨[], .inr rfl⟩
        | cons e rest =>
          obtain ⟨rfl, within⟩ := List.cons_prefix_cons.1 within
          exact more rest within
    · simp only [Quoted.encode, if_neg same] at h more
      cases front with
      | nil => exact ⟨[], .inl rfl⟩
      | cons d rest =>
        obtain ⟨rfl, within⟩ := List.cons_prefix_cons.1 h
        exact more rest within

/-- A character of a number, a UUID or a hexadecimal constant. -/
def isNumeric (c : Char) : Bool := isHexDigit c || ['-', '+', '.', 'x', 'X'].contains c

theorem isNumeric_of_isHexDigit {c : Char} (h : isHexDigit c = true) : isNumeric c = true := by
  simp [isNumeric, h]

theorem isNumeric_of_isDigit {c : Char} (h : c.isDigit = true) : isNumeric c = true :=
  isNumeric_of_isHexDigit (by simp [isHexDigit, h])

theorem isNumeric_of_mem_integer {text : List Char} (mem : text ∈ Lexical.integer) :
    ∀ c ∈ text, isNumeric c = true := by
  have inDigits : ∀ ds ∈ digits, ∀ c ∈ ds, isNumeric c = true :=
    fun ds memDigits c mem => isNumeric_of_isDigit ((mem_digits.1 memDigits).2 c mem)
  rcases mem_integer.1 mem with memDigits | ⟨ds, memDigits, rfl⟩
  · exact inDigits text memDigits
  · exact List.forall_mem_cons.2 ⟨rfl, inDigits ds memDigits⟩

theorem isNumeric_of_mem_fraction {text : List Char} (mem : text ∈ fraction) :
    ∀ c ∈ text, isNumeric c = true := by
  obtain ⟨ds, rfl, all⟩ := mem_fraction.1 mem
  exact List.forall_mem_cons.2 ⟨rfl, fun c mem => isNumeric_of_isDigit (all c mem)⟩

theorem isNumeric_of_mem_exponent {text : List Char} (mem : text ∈ exponent) :
    ∀ c ∈ text, isNumeric c = true := by
  obtain ⟨mark, sign, ds, memDigits, rfl, marked, signed⟩ := mem_exponent.1 mem
  have inMark : isNumeric mark = true := by
    rcases marked with rfl | rfl
    · rfl
    · rfl
  have inSign : ∀ c ∈ sign, isNumeric c = true := by
    rcases signed with rfl | ⟨c, rfl, isSign⟩
    · simp
    · simp only [Segment.isSign, Bool.or_eq_true, decide_eq_true_eq] at isSign
      rcases isSign with rfl | rfl
      · simp [isNumeric]
      · simp [isNumeric]
  refine List.forall_mem_cons.2 ⟨inMark, fun c mem => ?_⟩
  rcases List.mem_append.1 mem with mem | mem
  · exact inSign c mem
  · exact isNumeric_of_isDigit ((mem_digits.1 memDigits).2 c mem)

theorem isNumeric_of_mem_float {text : List Char} (mem : text ∈ Lexical.float) :
    ∀ c ∈ text, isNumeric c = true := by
  obtain ⟨whole, memWhole, front, back, rfl, tail⟩ := mem_float.1 mem
  obtain ⟨memFront, memBack, -⟩ := isTail_iff.1 tail
  intro c mem
  rcases List.mem_append.1 mem with mem | mem
  · exact isNumeric_of_mem_integer memWhole c mem
  rcases List.mem_append.1 mem with mem | mem
  · rcases memFront with rfl | memFront
    · cases mem
    · exact isNumeric_of_mem_fraction memFront c mem
  · rcases memBack with rfl | memBack
    · cases mem
    · exact isNumeric_of_mem_exponent memBack c mem

theorem isNumeric_of_mem_hexConstant {text : List Char}
    (mem : text ∈ Lexical.hexConstant isHexDigit) : ∀ c ∈ text, isNumeric c = true := by
  obtain ⟨mark, run, rfl, marked, all⟩ := mem_hexConstant.1 mem
  have inMark : isNumeric mark = true := by
    rcases marked with rfl | rfl
    · rfl
    · rfl
  exact List.forall_mem_cons.2 ⟨rfl, List.forall_mem_cons.2
    ⟨inMark, fun c mem => isNumeric_of_isHexDigit (all c mem)⟩⟩

theorem isNumeric_of_mem_uuid {text : List Char} (mem : text ∈ uuid) :
    ∀ c ∈ text, isNumeric c = true := by
  have ofForms : ∀ {forms : List (Char → Bool)} {text : List Char},
      (∀ form ∈ forms, ∀ c, form c = true → isNumeric c = true) → text ∈ Lexical.ofForms forms →
        ∀ c ∈ text, isNumeric c = true := by
    intro forms
    induction forms with
    | nil =>
      intro text _ mem
      simp [(Language.mem_one text).1 mem]
    | cons form forms ih =>
      intro text passes mem
      obtain ⟨c, rest, rfl, first, mem⟩ := mem_one_mul.1 mem
      obtain ⟨passes, others⟩ := List.forall_mem_cons.1 passes
      exact List.forall_mem_cons.2 ⟨passes c first, ih others mem⟩
  rw [uuid_eq] at mem
  refine ofForms (fun form memForm c passes => ?_) mem
  have hexOrHyphen : form = isHexDigit ∨ form = (· = '-') := by
    simpa [uuidForm, or_comm, or_left_comm, or_assoc] using memForm
  rcases hexOrHyphen with rfl | rfl
  · exact isNumeric_of_isHexDigit passes
  · rw [of_decide_eq_true passes]
    rfl

theorem whole_of_quoted {quote : Char} {value : String} {front back : List Char}
    {problem : LexicalProblem} {kind : String → TokenKind}
    (closed : ∀ value, Spells (Quoted.render quote value).toList (kind value))
    (unclosed : ∀ part,
      Unclosed (quote :: Quoted.encode quote part) (kind (String.ofList part)) problem)
    (split : front ++ back = (Quoted.render quote value).toList)
    (nonempty : front ≠ []) (cut : back ≠ []) : Whole front := by
  have text : ∀ part, (Quoted.render quote part).toList =
      quote :: (Quoted.encode quote part.toList ++ [quote]) := by simp [Quoted.render]
  rw [text] at split
  obtain ⟨c, body, rfl⟩ := List.exists_cons_of_ne_nil nonempty
  obtain ⟨rfl, split⟩ := List.cons.inj split
  obtain ⟨part, rfl | rfl⟩ := prefix_encode (isPrefix_of_cut split cut)
  · exact whole_of_unclosed (unclosed part)
  · have spells := closed (String.ofList part)
    rw [text, String.toList_ofList] at spells
    exact whole_of_spells spells

theorem whole_of_word {front back : List Char} (mem : front ++ back ∈ Lexical.word)
    (nonempty : front ≠ []) : Whole front := by
  obtain ⟨c, more, rfl⟩ := List.exists_cons_of_ne_nil nonempty
  obtain ⟨d, rest, split, letter, all⟩ := mem_word.1 mem
  obtain ⟨rfl, rfl⟩ := List.cons.inj split
  exact whole_of_spells (spells_wordKind
    (mem_word.2 ⟨c, more, rfl, letter, fun d mem => all d (List.mem_append_left _ mem)⟩))

/-- The front of a comment is a comment that goes on to the end, or a single sign. -/
theorem whole_of_comment {front back after : List Char} (comment : Comment (front ++ back) after none)
    (nonempty : front ≠ []) (cut : back ≠ []) : Whole front := by
  generalize split : front ++ back = text at comment
  obtain ⟨c, front, rfl⟩ := List.exists_cons_of_ne_nil nonempty
  cases front with
  | nil => exact whole_singleton c
  | cons d body =>
    cases comment with
    | line opens within =>
      simp only [List.cons_append, List.cons.injEq] at split
      obtain ⟨rfl, rfl, rfl⟩ := split
      exact whole_of_line opens fun mem => within (List.mem_append_left _ mem)
    | @block inside _ within =>
      simp only [List.cons_append, List.cons.injEq] at split
      obtain ⟨rfl, rfl, split⟩ := split
      refine whole_of_openBlock fun closes => ?_
      -- The closing mark would have to end in front of the last sign of the comment.
      have split' : body ++ back = inside ++ ['*'] ++ ['/'] := by simp [split]
      have short : body <+: inside ++ ['*'] := isPrefix_of_cut split' cut
      rcases List.infix_concat_iff.1 (closes.trans short.isInfix) with ⟨before, ends⟩ | infixed
      · exact absurd (congrArg List.getLast? ends) (by simp)
      · exact within infixed

/-- What is left of a sound segment that is cut in two is one segment, or the segment is numeric. -/
theorem whole_or_numeric {front back after : List Char} {segment : Segment}
    (reads : Reads (front ++ back) after segment) (sound : segment.problem = none)
    (nonempty : front ≠ []) (cut : back ≠ []) :
    Whole front ∨ ∀ c ∈ front ++ back, isNumeric c = true := by
  have long : 2 ≤ (front ++ back).length := by
    have := List.length_pos_iff.2 nonempty
    have := List.length_pos_iff.2 cut
    rw [List.length_append]
    omega
  generalize split : front ++ back = text at reads long
  cases reads with
  | blank | stray => simp at long
  | comment comment =>
    obtain rfl : _ = none := sound
    exact .inl (whole_of_comment (split ▸ comment) nonempty cut)
  | uuid mem => exact .inr (isNumeric_of_mem_uuid mem)
  | unclosed => cases sound
  | @token _ _ kind spells =>
    replace sound : kind.problem? = none := sound
    cases spells with
    | keyword mem | identifier mem => exact .inl (whole_of_word (split ▸ mem) nonempty)
    | integer mem => exact .inr (isNumeric_of_mem_integer mem)
    | float mem => exact .inr (isNumeric_of_mem_float mem)
    | hex mem =>
      obtain ⟨mark, run, rfl, marked, -⟩ := mem_hexConstant.1 mem
      have all : run.all isHexDigit = true := by
        simpa [TokenKind.problem?] using sound
      exact .inr (isNumeric_of_mem_hexConstant
        (mem_hexConstant.2 ⟨mark, run, rfl, marked, List.all_eq_true.1 all⟩))
    | string value => exact .inl (whole_of_quoted .string .string split nonempty cut)
    | quotedName name => exact .inl (whole_of_quoted .quotedName .quotedName split nonempty cut)
    | mark mark =>
      have short : mark.spelling.toList.length ≤ 2 := by cases mark <;> decide
      have more := List.length_pos_iff.2 cut
      rw [← split, List.length_append] at short
      -- Of a sign there is room for one character in front of the cut.
      obtain ⟨c, rest, rfl⟩ := List.exists_cons_of_ne_nil nonempty
      rw [List.length_cons] at short
      obtain rfl := List.length_eq_zero_iff.1 (by omega : rest.length = 0)
      exact .inl (whole_singleton c)

/-! ### Keywords in what is left -/

theorem isNumeric_toUpper (c : Char) : isNumeric c.toUpper = isNumeric c := by
  by_cases lower : 97 ≤ c.toNat ∧ c.toNat ≤ 122
  · have letters : ∀ n < 26, isNumeric (Char.ofNat (97 + n)).toUpper = isNumeric (Char.ofNat (97 + n)) := by
      decide
    have letter := letters (c.toNat - 97) (by omega)
    rwa [Nat.add_sub_cancel' lower.1, Char.ofNat_toNat] at letter
  · have same : c.toUpper = c := by
      unfold Char.toUpper
      exact dif_neg lower
    rw [same]

theorem spells_keyword_iff {text : List Char} {keyword : Keyword} : Spells text (.keyword keyword) ↔
    text ∈ Lexical.word ∧ text.map Char.toUpper = keyword.spelling.toList := by
  have upper : (String.ofList text).toUpper = keyword.spelling ↔
      text.map Char.toUpper = keyword.spelling.toList := by
    rw [← String.toList_inj, toList_toUpper, String.toList_ofList]
  constructor
  · rintro (⟨mem, same⟩)
    exact ⟨mem, upper.1 same⟩
  · rintro ⟨mem, same⟩
    exact .keyword mem (upper.2 same)

/-- A number or a UUID spells no keyword with a letter that is no hexadecimal digit. -/
theorem not_keyword_of_numeric {text : List Char} {keyword : Keyword}
    (numeric : ∀ c ∈ text, isNumeric c = true)
    (letters : keyword.spelling.toList.all isNumeric = false) : ¬ Spells text (.keyword keyword) := by
  intro spells
  have all : keyword.spelling.toList.all isNumeric = true := by
    rw [← (spells_keyword_iff.1 spells).2, List.all_map, List.all_eq_true]
    exact fun c mem => (isNumeric_toUpper c).trans (numeric c mem)
  exact absurd (all.symm.trans letters) (by decide)

/-- Does the word go on where the keyword ends? -/
def Extends (keyword : Keyword) : TokenKind → Prop
  | .keyword other => keyword ≠ other ∧ keyword.spelling.toList <+: other.spelling.toList
  | .identifier _ => True
  | _ => False

theorem Reads.spells_of_keyword {text after : List Char} {segment : Segment} {keyword : Keyword}
    (reads : Reads text after segment) (content : segment.content = .token (.keyword keyword)) :
    Spells text (.keyword keyword) := by
  cases reads with
  | blank | comment | stray => cases content
  | uuid => cases content
  | token spells =>
    obtain rfl := SegmentContent.token.inj content
    exact spells
  | unclosed unclosed =>
    obtain rfl := SegmentContent.token.inj content
    cases unclosed

/-- A segment that is cut in two, with a keyword in front, is a longer word. -/
theorem extends_of_front {front back after : List Char} {segment : Segment} {keyword : Keyword}
    (reads : Reads (front ++ back) after segment) (sound : segment.problem = none) (cut : back ≠ [])
    (notNumeric : ¬ ∀ c ∈ front ++ back, isNumeric c = true) (spells : Spells front (.keyword keyword)) :
    ∃ kind, segment.content = .token kind ∧ Extends keyword kind := by
  obtain ⟨mem, same⟩ := spells_keyword_iff.1 spells
  obtain ⟨c, rest, rfl, letter, -⟩ := mem_word.1 mem
  have other : ∀ {d : Char}, d.isAlpha = false → c ≠ d := by
    rintro d none rfl
    exact absurd (letter.symm.trans none) (by decide)
  generalize split : c :: rest ++ back = text at reads notNumeric
  cases reads with
  | blank | stray => exact absurd (List.append_eq_nil_iff.1 (List.cons.inj split).2).2 cut
  | comment comment =>
    cases comment with
    | line opens =>
      rcases opens with rfl | rfl
      · exact absurd (List.cons.inj split).1 (other rfl)
      · exact absurd (List.cons.inj split).1 (other rfl)
    | block | unclosed => exact absurd (List.cons.inj split).1 (other rfl)
  | uuid mem => exact absurd (isNumeric_of_mem_uuid mem) notNumeric
  | unclosed => cases sound
  | @token _ _ kind whole =>
    refine ⟨kind, rfl, ?_⟩
    cases whole with
    | @keyword _ longer mem same' =>
      have same' := (spells_keyword_iff.1 (.keyword mem same')).2
      rw [← split, List.map_append, same] at same'
      refine ⟨?_, _, same'⟩
      rintro rfl
      exact cut (List.map_eq_nil_iff.1 (List.append_right_eq_self.1 same'))
    | identifier => trivial
    | integer mem => exact absurd (isNumeric_of_mem_integer mem) notNumeric
    | float mem => exact absurd (isNumeric_of_mem_float mem) notNumeric
    | hex mem =>
      obtain ⟨mark, run, rfl, -⟩ := mem_hexConstant.1 mem
      exact absurd (List.cons.inj split).1 (other rfl)
    | string | quotedName =>
      exact absurd (List.cons.inj (split.trans String.toList_ofList)).1 (other rfl)
    | mark mark =>
      cases mark
      all_goals exact absurd (List.cons.inj split).1 (other rfl)

end Segment

/-- A keyword with a letter that is no hexadecimal digit, among the tokens of the front of a piece: it is
all of that front, and the piece is a longer word. -/
theorem keyword_of_fragment {start : Nat} {head tail after : List Char} {segment : Segment}
    {keyword : Keyword} {token : Token}
    (reads : Segment.Reads (head ++ tail) after segment) (sound : segment.problem = none)
    (cut : tail ≠ []) (letters : keyword.spelling.toList.all Segment.isNumeric = false)
    (mem : token ∈ (pieces start 0 head).filterMap (·.token?)) (kind : token.kind = .keyword keyword) :
    (pieces start 0 head).filterMap (·.token?) = [token] ∧
      ∃ kind, segment.content = .token kind ∧ Segment.Extends keyword kind := by
  obtain ⟨piece, memPiece, isToken⟩ := List.mem_filterMap.1 mem
  obtain ⟨before, behind, standing⟩ := at_of_mem_pieces memPiece
  obtain ⟨content, -⟩ := Piece.token?_eq_some.1 isToken
  rw [kind] at content
  have spells : Lexical.Spells piece.text (.keyword keyword) := standing.reads.spells_of_keyword content
  have inside : ∀ c ∈ piece.text, c ∈ head := fun c mem => by
    rw [standing.split]
    simp [mem]
  by_cases numeric : ∀ c ∈ head ++ tail, Segment.isNumeric c = true
  · have all : ∀ c ∈ piece.text, Segment.isNumeric c = true :=
      fun c mem => numeric c (List.mem_append_left _ (inside c mem))
    exact absurd spells (Segment.not_keyword_of_numeric all letters)
  have nonempty : head ≠ [] := by
    rintro rfl
    cases memPiece
  have whole := (Segment.whole_or_numeric reads sound nonempty cut).resolve_right numeric
  obtain ⟨segment', one⟩ := whole.pieces_eq start
  rw [one, List.mem_singleton] at memPiece
  subst memPiece
  refine ⟨by simp [one, isToken], Segment.extends_of_front reads sound cut numeric spells⟩

/-! ### Pieces that are cut off -/

/-- A text that ends inside some pieces ends inside one of them. -/
theorem exists_cut {cut : List Piece} {front back : List Char}
    (split : Piece.texts cut = front ++ back) (nonempty : back ≠ []) :
    ∃ before piece behind head tail, cut = before ++ piece :: behind ∧ piece.text = head ++ tail ∧
      tail ≠ [] ∧ front = Piece.texts before ++ head := by
  induction cut generalizing front with
  | nil => exact absurd (List.append_eq_nil_iff.1 split.symm).2 nonempty
  | cons piece cut ih =>
    have later : ∀ more, Piece.texts cut = more ++ back → ∃ before inside behind head tail,
        piece :: cut = before ++ inside :: behind ∧ inside.text = head ++ tail ∧ tail ≠ [] ∧
          piece.text ++ more = Piece.texts before ++ head := by
      intro more split
      obtain ⟨before, inside, behind, head, tail, rfl, text, nonempty, rfl⟩ := ih split
      exact ⟨piece :: before, inside, behind, head, tail, rfl, text, nonempty,
        (List.append_assoc _ _ _).symm⟩
    replace split : piece.text ++ Piece.texts cut = front ++ back := split
    rcases List.append_eq_append_iff.1 split with ⟨more, rfl, others⟩ | ⟨tail, same, others⟩
    · exact later more others
    · cases tail with
      | nil =>
        rw [List.append_nil] at same
        rw [← same, ← List.append_nil piece.text]
        exact later [] others.symm
      | cons c tail => exact ⟨[], piece, cut, front, c :: tail, rfl, same, by simp, rfl⟩

end Cql
