/-
The scanner reads what the grammar selects.

* `Segment.begins_of_spells` — what spells a token begins with no blank and no comment;
* `Segment.not_inFront_of_stray` — no token begins with a stray character;
* `Segment.selects_of_token` — the token that the scanner reads is the one that the grammar selects.
-/
import Cql.Proofs.LongestMatch

namespace Cql

namespace Segment

open Lexical

/-! ### Gaps, UUIDs and stray characters -/

theorem content_of_gap? {c : Char} {rest : List Char} {segment : Segment}
    (h : gap? c rest = some segment) : segment.content = .blank ∨ segment.content = .comment := by
  unfold gap? at h
  split at h
  · cases h
    exact .inl rfl
  split at h
  · cases h
    exact .inr rfl
  split at h
  · cases h
    refine .inr ?_
    unfold blockComment
    split
    · rfl
    · rfl
  · cases h

theorem gap?_eq_none {c : Char} {rest : List Char} (notBlank : (first c rest).content ≠ .blank)
    (notComment : (first c rest).content ≠ .comment) : gap? c rest = none := by
  cases gap : gap? c rest with
  | none => rfl
  | some segment =>
    unfold first at notBlank notComment
    rw [gap] at notBlank notComment
    rcases content_of_gap? gap with blank | comment
    · exact absurd blank notBlank
    · exact absurd comment notComment

/-- A UUID in front is read as one. -/
theorem first_of_uuid {c : Char} {rest uuid after : List Char} (gap : gap? c rest = none)
    (mem : uuid ∈ Lexical.uuid) (split : uuid ++ after = c :: rest) :
    first c rest = ofKind uuid.length (.uuid (String.ofList uuid)) := by
  have front : startsWith uuidForm (c :: rest) = true :=
    startsWith_uuidForm_iff.2 ⟨uuid, mem, after, split⟩
  unfold first constant?
  rw [gap, if_pos front, ← length_of_mem_uuid mem, ← split, List.take_left]

/-- A character begins no blank and no comment if it passes a test that none of those do. -/
theorem gap?_of_test (test : Char → Bool) {c : Char} (passes : test c = true)
    (fails : [' ', '\t', '\r', '\n', '-', '/'].any test = false) (rest : List Char) :
    gap? c rest = none := by
  have other (d : Char) (mem : d ∈ [' ', '\t', '\r', '\n', '-', '/']) : c ≠ d := by
    rintro rfl
    exact List.any_eq_false.1 fails c mem passes
  simp [gap?, isBlank, other ' ', other '\t', other '\r', other '\n', other '-', other '/']

theorem gap?_of_integer {ds : List Char} (mem : ds ∈ digits) (tail : List Char) :
    (∃ c rest, ds ++ tail = c :: rest ∧ gap? c rest = none) ∧ gap? '-' (ds ++ tail) = none := by
  obtain ⟨d, ds, rfl, digit, -⟩ := mem_one_mul.1 mem
  have notMinus : d ≠ '-' := by
    rintro rfl
    exact absurd digit (by decide)
  refine ⟨⟨d, ds ++ tail, rfl, gap?_of_test Char.isDigit digit rfl _⟩, ?_⟩
  simp [gap?, isBlank, notMinus]

/-- What spells a token begins with no blank and no comment. -/
theorem begins_of_spells {text : List Char} {kind : TokenKind} (spells : Spells text kind) :
    ∃ c rest, text = c :: rest ∧ gap? c rest = none := by
  cases spells with
  | keyword mem | identifier mem =>
    obtain ⟨c, rest, rfl, letter, -⟩ := mem_word.1 mem
    exact ⟨c, rest, rfl, gap?_of_test Char.isAlpha letter rfl rest⟩
  | integer mem =>
    rcases mem_integer.1 mem with memDigits | ⟨ds, memDigits, rfl⟩
    · have begins := (gap?_of_integer memDigits []).1
      rwa [List.append_nil] at begins
    · have begins := (gap?_of_integer memDigits []).2
      rw [List.append_nil] at begins
      exact ⟨'-', ds, rfl, begins⟩
  | float mem =>
    obtain ⟨whole, memWhole, front, back, rfl, -⟩ := mem_float.1 mem
    rcases mem_integer.1 memWhole with memDigits | ⟨ds, memDigits, rfl⟩
    · exact (gap?_of_integer memDigits (front ++ back)).1
    · exact ⟨'-', ds ++ (front ++ back), rfl, (gap?_of_integer memDigits _).2⟩
  | hex mem =>
    obtain ⟨mark, run, rfl, -⟩ := mem_hexConstant.1 mem
    exact ⟨'0', mark :: run, rfl, rfl⟩
  | string value => exact ⟨'\'', _, String.toList_ofList, rfl⟩
  | quotedName name => exact ⟨'"', _, String.toList_ofList, rfl⟩
  | mark mark => cases mark <;> exact ⟨_, _, rfl, rfl⟩

/-- No token begins with a stray character. -/
theorem not_inFront_of_stray {c : Char} {rest : List Char} (stray : (first c rest).content = .stray)
    (width : (first c rest).width = 1) (text : List Char) (kind : TokenKind) :
    ¬ InFront (c :: rest) text kind := by
  rintro ⟨front, spells⟩
  have gap := gap?_eq_none (by rw [stray]; simp) (by rw [stray]; simp)
  have notUuid : ¬ startsWith uuidForm (c :: rest) = true := by
    rw [startsWith_uuidForm_iff]
    rintro ⟨uuid, mem, after, split⟩
    rw [first_of_uuid gap mem split] at stray
    cases stray
  rcases covers_of_spells gap notUuid front spells with shorter | same
  · obtain ⟨d, more, rfl, -⟩ := begins_of_spells spells
    rw [width, List.length_cons] at shorter
    omega
  · rw [same] at stray
    cases stray

/-- The token that the scanner reads is the one that the grammar selects. -/
theorem selects_of_token {c : Char} {rest text after : List Char} {kind : TokenKind}
    (split : text ++ after = c :: rest) (token : (first c rest).content = .token kind)
    (reads : Reads text after (first c rest)) :
    Selects InFrontOrUnclosed (c :: rest) text kind := by
  have gap := gap?_eq_none (by rw [token]; simp) (by rw [token]; simp)
  have width := reads.width_eq
  have front : text <+: c :: rest := ⟨after, split⟩
  -- A UUID comes before all other candidates, however long they are.
  by_cases uuidFront : startsWith uuidForm (c :: rest) = true
  · obtain ⟨uuid, mem, after', split'⟩ := startsWith_uuidForm_iff.1 uuidFront
    have first := first_of_uuid gap mem split'
    rw [first, width_ofKind] at width
    rw [first] at token
    have same : uuid = text :=
      (List.prefix_of_prefix_length_le ⟨after', split'⟩ front width.le).eq_of_length width
    subst same
    exact .inl ⟨mem, front, (SegmentContent.token.inj token).symm⟩
  · have none : ∀ uuid ∈ Lexical.uuid, ¬ uuid <+: c :: rest := fun uuid mem front =>
      uuidFront (startsWith_uuidForm_iff.2 ⟨uuid, mem, front⟩)
    refine .inr ⟨none, ?_, ?_⟩
    · -- The segment is a candidate itself, since it is none of the other forms.
      generalize first c rest = segment at token reads
      cases reads with
      | blank | comment | stray => cases token
      | uuid mem => exact absurd front (none _ mem)
      | token spells =>
        cases token
        exact .inl ⟨front, spells⟩
      | unclosed unclosed =>
        cases token
        rw [List.append_nil] at split
        rw [split] at unclosed
        exact .inr ⟨split, _, unclosed⟩
    · -- A candidate as long as the segment has its kind, since the segment is that candidate.
      have asLong {text' : List Char} {kind' : TokenKind} {problem : Option LexicalProblem}
          (front' : text' <+: c :: rest) (same : first c rest = ⟨text'.length, .token kind', problem⟩) :
          text' = text ∧ kind' = kind := by
        rw [same] at width token
        exact ⟨(List.prefix_of_prefix_length_le front' front width.le).eq_of_length width,
          SegmentContent.token.inj token⟩
      rintro text' kind' (⟨front', spells⟩ | ⟨rfl, problem, unclosed⟩)
      · rcases covers_of_spells gap uuidFront front' spells with shorter | same
        · rw [width] at shorter
          exact .inl shorter
        · exact .inr (asLong front' same)
      · exact .inr (asLong (List.prefix_refl _) (first_of_unclosed gap uuidFront unclosed))

end Segment

end Cql
