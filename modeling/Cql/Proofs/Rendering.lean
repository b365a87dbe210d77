/-
Written tokens are read back.

The written forms of tokens, with a blank between each two of them, are cut into these tokens.

* `TokenKind.WellFormed` — the kinds whose values are texts of their class;
* `Segment.first_of_render` — a written token that stands alone is read as that token;
* `tokenize_writeAll` — **tokens written with blanks between them are read back**, and only empty
  quoted names are reported.
-/
import Cql.Proofs.Blanks
import Cql.Proofs.TokenSelection

namespace Cql

open Bytes

namespace Lexical

open Segment (isHexDigit isWordChar isSign)

/-! ### Written tokens are no UUIDs -/

theorem count_hyphen_of_uuid {text : List Char} (mem : text ∈ uuid) : 4 ≤ text.count '-' := by
  simp only [uuid, Language.mem_mul, mem_one, decide_eq_true_eq] at mem
  obtain ⟨_, ⟨_, ⟨_, ⟨_, ⟨_, ⟨_, ⟨_, ⟨first, -, _, ⟨_, rfl, rfl⟩, rfl⟩, second, -, rfl⟩, _,
    ⟨_, rfl, rfl⟩, rfl⟩, third, -, rfl⟩, _, ⟨_, rfl, rfl⟩, rfl⟩, fourth, -, rfl⟩, _,
    ⟨_, rfl, rfl⟩, rfl⟩, fifth, -, rfl⟩ := mem
  simp only [List.count_append, List.count_singleton_self]
  omega

theorem count_hyphen_eq_zero {test : Char → Bool} (fails : test '-' = false) {text : List Char}
    (all : ∀ c ∈ text, test c = true) : text.count '-' = 0 := by
  rw [List.count_eq_zero]
  intro mem
  rw [all _ mem] at fails
  exact Bool.noConfusion fails

theorem count_hyphen_of_integer {text : List Char} (mem : text ∈ integer) : text.count '-' ≤ 1 := by
  rcases mem_integer.1 mem with memDigits | ⟨ds, memDigits, rfl⟩
  · rw [count_hyphen_eq_zero rfl (mem_digits.1 memDigits).2]
    exact Nat.zero_le _
  · rw [List.count_cons_self, count_hyphen_eq_zero rfl (mem_digits.1 memDigits).2]

theorem count_hyphen_of_fraction {text : List Char} (mem : text ∈ fraction) : text.count '-' = 0 := by
  obtain ⟨ds, rfl, all⟩ := mem_fraction.1 mem
  rw [List.count_cons_of_ne (by decide), count_hyphen_eq_zero rfl all]

theorem count_hyphen_of_exponent {text : List Char} (mem : text ∈ exponent) : text.count '-' ≤ 1 := by
  obtain ⟨mark, sign, ds, memDigits, rfl, marked, signed⟩ := mem_exponent.1 mem
  have other : mark ≠ '-' := by
    rcases marked with rfl | rfl
    · decide
    · decide
  have length : sign.length ≤ 1 := by
    rcases signed with rfl | ⟨c, rfl, -⟩
    · exact Nat.zero_le _
    · exact Nat.le_refl _
  rw [List.count_cons_of_ne other, List.count_append,
    count_hyphen_eq_zero rfl (mem_digits.1 memDigits).2, Nat.add_zero]
  exact List.count_le_length.trans length

theorem count_hyphen_of_float {text : List Char} (mem : text ∈ float) : text.count '-' ≤ 2 := by
  obtain ⟨whole, memWhole, front, back, rfl, tail⟩ := mem_float.1 mem
  have whole := count_hyphen_of_integer memWhole
  rw [List.count_append, List.count_append]
  rcases tail with ⟨memFront, rfl⟩ | ⟨rfl, memBack⟩ | ⟨memFront, memBack⟩
  · rw [count_hyphen_of_fraction memFront, List.count_nil]
    omega
  · have back := count_hyphen_of_exponent memBack
    rw [List.count_nil]
    omega
  · have back := count_hyphen_of_exponent memBack
    rw [count_hyphen_of_fraction memFront]
    omega

/-- No UUID is at the front of a text that spells a token: there are too few hyphens in it, or it does
not even begin with a hexadecimal digit. -/
theorem not_uuid_of_spells {text : List Char} {kind : TokenKind} (spells : Spells text kind) :
    ¬ Segment.startsWith Segment.uuidForm text = true := by
  have few (count : text.count '-' ≤ 2) : ¬ Segment.startsWith Segment.uuidForm text = true := by
    rw [startsWith_uuidForm_iff]
    rintro ⟨uuid, mem, front⟩
    have four := count_hyphen_of_uuid mem
    have le := front.sublist.count_le '-'
    omega
  have begins (c : Char) (rest : List Char) (same : text = c :: rest) (other : isHexDigit c = false) :
      ¬ Segment.startsWith Segment.uuidForm text = true := by
    rw [same]
    show ¬ (isHexDigit c && _) = true
    rw [other, Bool.false_and]
    exact Bool.false_ne_true
  cases spells with
  | keyword mem | identifier mem =>
    refine few ?_
    rw [count_hyphen_eq_zero rfl (isWordChar_of_mem_word mem)]
    exact Nat.zero_le _
  | integer mem => exact few ((count_hyphen_of_integer mem).trans (Nat.le_succ 1))
  | float mem => exact few (count_hyphen_of_float mem)
  | hex mem =>
    refine few ?_
    rw [count_hyphen_eq_zero rfl (isWordChar_of_mem_hexConstant mem)]
    exact Nat.zero_le _
  | string value => exact begins '\'' _ String.toList_ofList rfl
  | quotedName name => exact begins '"' _ String.toList_ofList rfl
  | mark mark => cases mark <;> exact begins _ _ rfl rfl

end Lexical

/-! ### One token -/

/-- The value of the token is a text of its class.  Strings and quoted names may hold any text, and
the end of the input is not written. -/
def TokenKind.WellFormed : TokenKind → Prop
  | .identifier name => name.toList ∈ Lexical.word ∧ Keyword.ofWord? name = none
  | .integer digits => digits.toList ∈ Lexical.integer
  | .float digits => digits.toList ∈ Lexical.float
  | .uuid digits => digits.toList ∈ Lexical.uuid
  | .hex digits => digits.toList ∈ Lexical.hexConstant Segment.isHexDigit
  | .keyword _ | .punctuation _ | .string _ | .quotedName _ => True
  | .endOfInput => False

namespace Segment

open Lexical

theorem spells_render {kind : TokenKind} (wellFormed : kind.WellFormed)
    (notUuid : ∀ digits, kind ≠ .uuid digits) : Spells kind.render.toList kind := by
  cases kind with
  | keyword keyword =>
    have mem : keyword.spelling.toList ∈ Lexical.word := by
      cases keyword <;> exact mem_word.2 ⟨_, _, rfl, rfl, List.all_eq_true.1 rfl⟩
    refine .keyword mem ?_
    rw [String.ofList_toList]
    exact keyword.toUpper_spelling
  | identifier name =>
    obtain ⟨mem, none⟩ := wellFormed
    have spells := Spells.identifier mem fun keyword same => ?_
    · rwa [String.ofList_toList] at spells
    · rw [String.ofList_toList] at same
      rw [Keyword.ofWord?_eq_some.2 same] at none
      cases none
  | integer digits =>
    have spells := Spells.integer wellFormed
    rwa [String.ofList_toList] at spells
  | float digits =>
    have spells := Spells.float wellFormed
    rwa [String.ofList_toList] at spells
  | hex digits =>
    obtain ⟨mark, run, split, marked, all⟩ := mem_hexConstant.1 wellFormed
    have mem : digits.toList ∈ Lexical.hexConstant isWordChar :=
      mem_hexConstant.2 ⟨mark, run, split, marked, fun c mem => isWordChar_of_isHexDigit (all c mem)⟩
    have spells := Spells.hex mem
    rwa [String.ofList_toList] at spells
  | uuid digits => exact absurd rfl (notUuid digits)
  | string text => exact .string text
  | quotedName name => exact .quotedName name
  | punctuation mark => exact .mark mark
  | endOfInput => exact wellFormed.elim

/-- A text that spells a token and stands alone is read as that token. -/
theorem first_of_spells {text : List Char} {kind : TokenKind} (spells : Spells text kind) :
    ∃ c rest, text = c :: rest ∧ first c rest = ⟨text.length, .token kind, kind.problem?⟩ := by
  obtain ⟨c, rest, rfl, gap⟩ := begins_of_spells spells
  refine ⟨c, rest, rfl, ?_⟩
  obtain ⟨front, after, split, reads⟩ := reads_first c rest
  have le : (first c rest).width ≤ (c :: rest).length := by
    rw [reads.width_eq, split, List.length_append]
    exact Nat.le_add_right _ _
  -- The segment covers the whole text and cannot be longer.
  rcases covers_of_spells gap (not_uuid_of_spells spells) (List.prefix_refl _) spells with
    shorter | same
  · omega
  · exact same

theorem first_of_render {kind : TokenKind} (wellFormed : kind.WellFormed) :
    ∃ c rest, kind.render.toList = c :: rest ∧
      first c rest = ⟨kind.render.toList.length, .token kind, kind.problem?⟩ := by
  by_cases isUuid : ∃ digits, kind = .uuid digits
  · obtain ⟨digits, rfl⟩ := isUuid
    have mem : digits.toList ∈ uuid := wellFormed
    obtain ⟨c, rest, split⟩ : ∃ c rest, digits.toList = c :: rest := by
      refine List.exists_cons_of_ne_nil (List.ne_nil_of_length_pos ?_)
      rw [length_of_mem_uuid mem]
      decide
    have front : startsWith uuidForm (c :: rest) = true :=
      startsWith_uuidForm_iff.2 ⟨_, mem, by rw [split]⟩
    have hexDigit : isHexDigit c = true := (Bool.and_eq_true_iff.1 front).1
    have gap := gap?_of_test isHexDigit hexDigit rfl rest
    have first := first_of_uuid gap mem (by rw [List.append_nil, split])
    rw [String.ofList_toList] at first
    exact ⟨c, rest, split, first⟩
  · exact first_of_spells (spells_render wellFormed fun digits same => isUuid ⟨digits, same⟩)

end Segment

/-! ### Many tokens -/

/-- The token of a kind, written at byte `start`. -/
def TokenKind.pieceAt (kind : TokenKind) (start : Nat) : Piece :=
  ⟨start, kind.render.toList, ⟨kind.render.toList.length, .token kind, kind.problem?⟩⟩

theorem pieces_render {kind : TokenKind} (wellFormed : kind.WellFormed) (start : Nat) :
    pieces start 0 kind.render.toList = [kind.pieceAt start] := by
  obtain ⟨c, rest, split, first⟩ := Segment.first_of_render wellFormed
  have cut := @pieces_append start kind.render.toList [] _ c rest (by rw [List.append_nil, split]) first rfl
  rwa [List.append_nil, pieces_nil] at cut

theorem endsBefore_pieceAt (kind : TokenKind) (start : Nat) (s : Char) :
    Segment.EndsBefore s (kind.pieceAt start).segment := by
  have closed : kind.problem? ≠ some .unclosedString ∧ kind.problem? ≠ some .unclosedName ∧
      kind.problem? ≠ some .unclosedComment := by
    cases kind with
    | quotedName name =>
      rw [TokenKind.problem?]
      split
      · simp
      · simp
    | hex digits =>
      rw [TokenKind.problem?]
      split
      · simp
      · simp
    | _ => simp [TokenKind.problem?]
  refine ⟨closed, fun comment => ?_⟩
  cases comment

/-- The written forms with a blank between each two. -/
def writeAll (kinds : List TokenKind) : String := " ".intercalate (kinds.map (·.render))

theorem toList_writeAll_cons (kind next : TokenKind) (kinds : List TokenKind) :
    (writeAll (kind :: next :: kinds)).toList
      = kind.render.toList ++ ' ' :: (writeAll (next :: kinds)).toList := by
  simp [writeAll, String.toList_intercalate]

/-- The written tokens stand one after another, with blanks between them. -/
theorem pieces_writeAll_cons {kind next : TokenKind} (wellFormed : kind.WellFormed)
    (kinds : List TokenKind) (start : Nat) :
    pieces start 0 (writeAll (kind :: next :: kinds)).toList =
      kind.pieceAt start :: ⟨start + size kind.render.toList, [' '], ⟨1, .blank, none⟩⟩ ::
        pieces (start + size kind.render.toList + 1) 0 (writeAll (next :: kinds)).toList := by
  have ends : ∀ piece ∈ pieces start 0 kind.render.toList, Segment.EndsBefore ' ' piece.segment := by
    intro piece mem
    rw [pieces_render wellFormed, List.mem_singleton] at mem
    rw [mem]
    exact endsBefore_pieceAt kind start ' '
  rw [toList_writeAll_cons, pieces_append_blank rfl ends, pieces_render wellFormed]
  rfl

/-- What is said about an empty quoted name. -/
def emptyNameAt (span : Span) : Diagnostic :=
  ⟨.error, "empty quoted identifier", [⟨.primary, span, "here"⟩], none, some "L002"⟩

/-- Nothing is wrong with a well-formed token, unless it is an empty quoted name. -/
theorem TokenKind.problem?_eq_none {kind : TokenKind} (wellFormed : kind.WellFormed)
    (other : kind ≠ .quotedName "") : kind.problem? = none := by
  cases kind with
  | quotedName name => exact if_neg fun empty => other (by rw [empty])
  | hex digits =>
    obtain ⟨mark, run, split, -, all⟩ := Lexical.mem_hexConstant.1 wellFormed
    refine if_pos ?_
    rw [split]
    exact List.all_eq_true.2 all
  | _ => rfl

/-- A well-formed token is read without a diagnostic, unless it is an empty quoted name. -/
theorem diagnostic?_pieceAt {kind : TokenKind} (wellFormed : kind.WellFormed) (start : Nat) :
    (kind.pieceAt start).diagnostic? =
      if kind = .quotedName "" then some (emptyNameAt (kind.pieceAt start).span) else none := by
  by_cases empty : kind = .quotedName ""
  · subst empty
    rfl
  · rw [if_neg empty, TokenKind.pieceAt, Piece.diagnostic?,
      TokenKind.problem?_eq_none wellFormed empty]
    rfl

/-- The pieces hold tokens of the kinds, and nothing but the empty quoted names is reported. -/
structure Holds (cut : List Piece) (kinds : List TokenKind) : Prop where
  kinds : (cut.filterMap (·.token?)).map (·.kind) = kinds
  diagnostics : cut.filterMap (·.diagnostic?)
    = ((cut.filterMap (·.token?)).filter (·.kind = .quotedName "")).map (emptyNameAt ·.span)

theorem holds_nil : Holds [] [] := ⟨rfl, rfl⟩

theorem Holds.cons {cut : List Piece} {kinds : List TokenKind} (h : Holds cut kinds)
    {kind : TokenKind} (wellFormed : kind.WellFormed) (start : Nat) :
    Holds (kind.pieceAt start :: cut) (kind :: kinds) := by
  have token : (kind.pieceAt start).token?
      = some ⟨⟨kind, String.ofList kind.render.toList⟩, (kind.pieceAt start).span⟩ := rfl
  constructor
  · rw [List.filterMap_cons_some token, List.map_cons, h.kinds]
  · rw [List.filterMap_cons_some token, List.filter_cons, List.filterMap_cons,
      diagnostic?_pieceAt wellFormed, h.diagnostics]
    by_cases empty : kind = .quotedName ""
    · simp only [empty, if_pos, decide_true, List.map_cons]
    · simp only [empty, if_false, decide_false, Bool.false_eq_true]

theorem Holds.blank {cut : List Piece} {kinds : List TokenKind} (h : Holds cut kinds) (start : Nat)
    (text : List Char) : Holds (⟨start, text, ⟨1, .blank, none⟩⟩ :: cut) kinds := ⟨h.kinds, h.diagnostics⟩

theorem holds_writeAll {kinds : List TokenKind} (wellFormed : ∀ kind ∈ kinds, kind.WellFormed)
    (start : Nat) : Holds (pieces start 0 (writeAll kinds).toList) kinds := by
  induction kinds generalizing start with
  | nil => exact holds_nil
  | cons kind kinds ih =>
    have first := wellFormed kind List.mem_cons_self
    have others : ∀ kind ∈ kinds, kind.WellFormed := fun kind mem =>
      wellFormed kind (List.mem_cons_of_mem _ mem)
    cases kinds with
    | nil =>
      have alone : (writeAll [kind]).toList = kind.render.toList := by simp [writeAll]
      rw [alone, pieces_render first]
      exact holds_nil.cons first start
    | cons next kinds =>
      rw [pieces_writeAll_cons first]
      exact ((ih others _).blank _ _).cons first start

/-- **Written tokens are read back.**  Well-formed tokens, written with blanks between them, are cut
into tokens of the same kinds; only the empty quoted names among them are reported. -/
theorem tokenize_writeAll (kinds : List TokenKind) (wellFormed : ∀ kind ∈ kinds, kind.WellFormed) :
    (tokenize (writeAll kinds)).tokens.map (·.kind) = kinds ++ [.endOfInput] ∧
      (tokenize (writeAll kinds)).diagnostics
        = ((tokenize (writeAll kinds)).tokens.filter (·.kind = .quotedName "")).map
          (emptyNameAt ·.span) := by
  have held := holds_writeAll wellFormed 0
  constructor
  · rw [tokenize, List.map_append, held.kinds]
    rfl
  · rw [tokenize, held.diagnostics, List.filter_append, List.map_append]
    exact (List.append_nil _).symm

theorem tokenize_writeAll_mixed :
    let kinds : List TokenKind := [.identifier "a1", .float "-2.", .quotedName "", .string "it's"]
    (∀ kind ∈ kinds, kind.WellFormed) ∧
      (tokenize (writeAll kinds)).tokens.map (·.kind) = kinds ++ [.endOfInput] ∧
        (tokenize (writeAll kinds)).diagnostics
          = ((tokenize (writeAll kinds)).tokens.filter (·.kind = .quotedName "")).map
            (emptyNameAt ·.span) := by
  have name : (TokenKind.identifier "a1").WellFormed :=
    ⟨Lexical.mem_word.2 ⟨'a', ['1'], rfl, rfl, List.all_eq_true.1 rfl⟩, by decide +kernel⟩
  have number : (TokenKind.float "-2.").WellFormed := by
    refine Lexical.mem_float.2 ⟨['-', '2'], Lexical.mem_integer.2 (.inr ⟨['2'], ?_, rfl⟩), ['.'], [], rfl,
      .inl ⟨Lexical.mem_fraction.2 ⟨[], rfl, by simp⟩, rfl⟩⟩
    exact Lexical.mem_digits.2 ⟨by simp, List.all_eq_true.1 rfl⟩
  have wellFormed : ∀ kind ∈ [TokenKind.identifier "a1", .float "-2.", .quotedName "", .string "it's"],
      kind.WellFormed := by
    simp only [List.forall_mem_cons]
    exact ⟨name, number, trivial, trivial, by simp⟩
  exact ⟨wellFormed, tokenize_writeAll _ wellFormed⟩

end Cql
