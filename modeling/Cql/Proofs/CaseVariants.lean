/-
Sources that differ in the case of letters inside keywords and identifiers.

Both are cut into pieces at the same places.  A piece that is no word has the same characters in both,
and so is the same; a word is the same keyword in both, or an identifier in both.

* `CaseVariant` — the sources, byte by byte;
* `Lexeme.Alike`, `Token.Alike` — what differs of their tokens;
* `Respelled.pieces_alike` — pieces, by the recursion of the cut;
* `CaseVariant.tokens`, `CaseVariant.diagnostics` — tokens and what is wrong with their spelling.
-/
import Mathlib.Data.List.Forall2
import Cql.Proofs.LetterCase
import Cql.Proofs.Pieces

namespace Cql

/-! ### Bytes -/

namespace Bytes

/-- The bytes of a text. -/
def utf8 (cs : List Char) : List UInt8 := cs.flatMap String.utf8EncodeChar

/-- The lower-case form of an ASCII letter; another byte stays as it is. -/
def lower (byte : UInt8) : UInt8 := if 65 ≤ byte ∧ byte ≤ 90 then byte + 32 else byte

theorem utf8_append (as bs : List Char) : utf8 (as ++ bs) = utf8 as ++ utf8 bs := List.flatMap_append

theorem length_utf8 (cs : List Char) : (utf8 cs).length = size cs := by
  induction cs with
  | nil => rfl
  | cons c cs ih =>
    rw [utf8, List.flatMap_cons, List.length_append, String.length_utf8EncodeChar, size]
    exact congrArg _ ih

theorem utf8_injective {cs ds : List Char} (same : utf8 cs = utf8 ds) : cs = ds := by
  have encoded : cs.utf8Encode = ds.utf8Encode := congrArg List.toByteArray same
  rw [← String.toByteArray_ofList, ← String.toByteArray_ofList] at encoded
  exact String.ofList_injective (String.toByteArray_inj.1 encoded)

theorem toList_data_toUTF8 (source : String) : source.toUTF8.data.toList = utf8 source.toList := by
  rw [String.toUTF8_eq_toByteArray, ← String.utf8Encode_toList]
  exact List.toList_data_toByteArray

theorem lower_of_high {byte : UInt8} (high : 128 ≤ byte.toNat) : lower byte = byte := by
  unfold lower
  refine if_neg fun letter => ?_
  have upper : byte.toNat ≤ 90 := UInt8.le_iff_toNat_le.1 letter.2
  omega

/-- The bytes of a character that is not in ASCII are not in ASCII. -/
theorem high_of_mem_utf8EncodeChar {c : Char} {byte : UInt8} (other : ¬ c.toNat < 128)
    (mem : byte ∈ String.utf8EncodeChar c) : 128 ≤ byte.toNat := by
  have above : ¬ c.val.toNat ≤ 127 := fun below => other (Nat.lt_succ_of_le below)
  have high : ∀ n, 128 ≤ n ∧ n < 256 → 128 ≤ (UInt8.ofNat n).toNat := by
    rintro n ⟨above, below⟩
    rwa [UInt8.toNat_ofNat_of_lt' below]
  unfold String.utf8EncodeChar at mem
  simp only [if_neg above] at mem
  -- One case for each length of the form.
  split at mem
  · simp only [List.mem_cons, List.not_mem_nil, or_false] at mem
    rcases mem with rfl | rfl <;> exact high _ (by omega)
  split at mem
  · simp only [List.mem_cons, List.not_mem_nil, or_false] at mem
    rcases mem with rfl | rfl | rfl <;> exact high _ (by omega)
  · simp only [List.mem_cons, List.not_mem_nil, or_false] at mem
    rcases mem with rfl | rfl | rfl | rfl <;> exact high _ (by omega)

/-- Only the bytes of ASCII letters have a case. -/
theorem map_lower_utf8EncodeChar (c : Char) :
    (String.utf8EncodeChar c).map lower = String.utf8EncodeChar c.toLower := by
  by_cases ascii : c.toNat < 128
  · have all : ∀ n < 128, (String.utf8EncodeChar (Char.ofNat n)).map lower =
        String.utf8EncodeChar (Char.ofNat n).toLower := by decide
    simpa using all c.toNat ascii
  · have plain : c.toLower = c := by
      unfold Char.toLower
      exact dif_neg fun upper => ascii (Nat.lt_of_le_of_lt upper.2 (by decide))
    have kept : ∀ byte ∈ String.utf8EncodeChar c, lower byte = id byte :=
      fun byte mem => lower_of_high (high_of_mem_utf8EncodeChar ascii mem)
    rw [plain, List.map_congr_left kept, List.map_id]

theorem map_lower_utf8 (cs : List Char) : (utf8 cs).map lower = utf8 (cs.map Char.toLower) := by
  unfold utf8
  rw [List.map_flatMap, List.flatMap_map]
  exact List.flatMap_congr fun c _ => map_lower_utf8EncodeChar c

end Bytes

namespace SameLetters

variable {cs ds : List Char}

/-- Texts have the same letters if their bytes differ in case only. -/
theorem of_bytes (same : (Bytes.utf8 cs).map Bytes.lower = (Bytes.utf8 ds).map Bytes.lower) :
    SameLetters cs ds := by
  rw [Bytes.map_lower_utf8, Bytes.map_lower_utf8] at same
  exact Bytes.utf8_injective same

theorem size_eq (h : SameLetters cs ds) : Bytes.size cs = Bytes.size ds := by
  refine h.congr fun es => ?_
  rw [← Bytes.length_utf8, ← Bytes.map_lower_utf8, List.length_map, Bytes.length_utf8]

theorem append {front front' rest rest' : List Char} (h : SameLetters (front ++ rest) (front' ++ rest'))
    (length : front.length = front'.length) : SameLetters front front' ∧ SameLetters rest rest' := by
  unfold SameLetters at h
  rw [List.map_append, List.map_append] at h
  exact List.append_inj h (by simpa using length)

end SameLetters

/-! ### Tokens -/

/-- Lexemes that differ in the case of a word at most. -/
inductive Lexeme.Alike : Lexeme → Lexeme → Prop
  | same (lexeme : Lexeme) : Alike lexeme lexeme
  | keyword {keyword : Keyword} {text text' : String}
      (letters : SameLetters text.toList text'.toList) :
      Alike ⟨.keyword keyword, text⟩ ⟨.keyword keyword, text'⟩
  | identifier {name name' : String} (letters : SameLetters name.toList name'.toList) :
      Alike ⟨.identifier name, name⟩ ⟨.identifier name', name'⟩

theorem Lexeme.Alike.symm {lexeme other : Lexeme} (alike : lexeme.Alike other) : other.Alike lexeme := by
  cases alike with
  | same => exact .same _
  | keyword letters => exact .keyword letters.symm
  | identifier letters => exact .identifier letters.symm

/-- Tokens in the same place that differ in the case of a word at most. -/
structure Token.Alike (token other : Token) : Prop where
  span : other.span = token.span
  lexeme : token.toLexeme.Alike other.toLexeme

theorem Token.Alike.symm {token other : Token} (alike : token.Alike other) : other.Alike token :=
  ⟨alike.span.symm, alike.lexeme.symm⟩

/-- The kinds of words with the same letters. -/
theorem wordKind_alike {cs ds : List Char} (same : SameLetters cs ds) :
    Lexeme.Alike ⟨Segment.wordKind cs, String.ofList cs⟩ ⟨Segment.wordKind ds, String.ofList ds⟩ := by
  have letters : SameLetters (String.ofList cs).toList (String.ofList ds).toList := by
    rwa [String.toList_ofList, String.toList_ofList]
  unfold Segment.wordKind
  rw [← Keyword.ofWord?_congr letters]
  cases Keyword.ofWord? (String.ofList cs) with
  | some keyword => exact .keyword letters
  | none => exact .identifier letters

/-! ### Pieces -/

/-- A keyword or an identifier. -/
def Piece.isWord (piece : Piece) : Bool :=
  match piece.segment.content with
  | .token kind => kind.isWord
  | _ => false

theorem Piece.exists_of_isWord {piece : Piece} (isWord : piece.isWord = true) :
    ∃ kind, piece.segment.content = .token kind ∧ kind.isWord = true := by
  unfold Piece.isWord at isWord
  split at isWord
  · exact ⟨_, ‹_›, isWord⟩
  · cases isWord

/-- The same piece, or words with the same letters in the same place. -/
inductive Piece.Alike : Piece → Piece → Prop
  | same (piece : Piece) : Alike piece piece
  | word (start : Nat) {text text' : List Char} (letters : SameLetters text text') :
      Alike ⟨start, text, .ofKind text.length (Segment.wordKind text)⟩
        ⟨start, text', .ofKind text'.length (Segment.wordKind text')⟩

/-- Pieces with like segments are alike if they have the same characters or are words. -/
theorem Segment.Alike.piece {cs ds : List Char} {segment other : Segment}
    (alike : Segment.Alike cs ds segment other) (start : Nat) (same : SameLetters cs ds)
    (plain : (Piece.mk start (cs.take segment.width) segment).isWord = false →
      ds.take segment.width = cs.take segment.width) :
    Piece.Alike ⟨start, cs.take segment.width, segment⟩ ⟨start, ds.take segment.width, other⟩ := by
  cases isWord : (Piece.mk start (cs.take segment.width) segment).isWord with
  | false =>
    rw [alike.same (plain isWord), plain isWord]
    exact .same _
  | true =>
    obtain ⟨kind, content, isWord⟩ := Piece.exists_of_isWord isWord
    obtain ⟨rfl, rfl⟩ := alike.word kind content isWord
    have pieces := Piece.Alike.word start (same.take (Segment.word cs).width)
    have second := word_eq_take ds
    rw [alike.width] at second
    rwa [← word_eq_take cs, ← second] at pieces

theorem Piece.Alike.token? {piece other : Piece} (alike : piece.Alike other) :
    Option.Rel Token.Alike piece.token? other.token? := by
  cases alike with
  | same =>
    cases piece.token? with
    | none => exact .none
    | some token => exact .some ⟨rfl, .same _⟩
  | word start letters =>
    refine .some ⟨?_, wordKind_alike letters⟩
    simp only [Piece.span, letters.size_eq]

theorem Piece.Alike.diagnostic? {piece other : Piece} (alike : piece.Alike other) :
    other.diagnostic? = piece.diagnostic? := by
  cases alike with
  | same => rfl
  | word => rfl

/-- Texts from byte `start` on that differ in the case of letters inside the words of the first only. -/
structure Respelled (start : Nat) (cs ds : List Char) : Prop where
  letters : SameLetters cs ds
  within : ∀ i, (Bytes.utf8 ds)[i]? ≠ (Bytes.utf8 cs)[i]? → ∃ piece ∈ pieces start 0 cs,
    piece.isWord = true ∧ piece.span.start ≤ start + i ∧ start + i < piece.span.stop

namespace Respelled

open Bytes

variable {start : Nat} {text text' after after' : List Char} {segment : Segment}

/-- What holds of the first piece, and of what is left. -/
theorem split (respelled : Respelled start (text ++ after) (text' ++ after'))
    (length : text.length = text'.length)
    (cut : pieces start 0 (text ++ after) =
      ⟨start, text, segment⟩ :: pieces (start + size text) 0 after) :
    ((Piece.mk start text segment).isWord = false → text' = text) ∧
      Respelled (start + size text) after after' := by
  obtain ⟨letters, letters'⟩ := respelled.letters.append length
  have within := respelled.within
  rw [cut, utf8_append, utf8_append] at within
  have width : (utf8 text').length = (utf8 text).length := by
    rw [length_utf8, length_utf8, letters.size_eq]
  constructor
  · intro noWord
    refine utf8_injective (List.ext_getElem? fun i => Classical.byContradiction fun differs => ?_)
    have inside : i < (utf8 text).length := by
      refine Nat.lt_of_not_le fun outside => differs ?_
      rw [List.getElem?_eq_none outside, List.getElem?_eq_none (by omega)]
    obtain ⟨piece, mem, isWord, from_, to_⟩ := within i (by
      rwa [List.getElem?_append_left inside, List.getElem?_append_left (by omega)])
    rcases List.mem_cons.1 mem with rfl | mem
    · simp [noWord] at isWord
    · -- A later piece begins behind the first.
      obtain ⟨before, after, standing⟩ := at_of_mem_pieces mem
      have := standing.start_eq
      rw [length_utf8] at inside
      simp only [Piece.span] at from_
      omega
  · refine ⟨letters', fun i differs => ?_⟩
    obtain ⟨piece, mem, isWord, from_, to_⟩ := within ((utf8 text).length + i) (by
      rwa [List.getElem?_append_right (by omega), List.getElem?_append_right (by omega), width,
        Nat.add_sub_cancel_left])
    rw [length_utf8, ← Nat.add_assoc] at from_ to_
    rcases List.mem_cons.1 mem with rfl | mem
    · simp only [Piece.span] at to_
      omega
    · exact ⟨piece, mem, isWord, from_, to_⟩

/-- The texts are cut in the same places, and only words differ. -/
theorem pieces_alike {cs ds : List Char} (respelled : Respelled start cs ds) :
    List.Forall₂ Piece.Alike (pieces start 0 cs) (pieces start 0 ds) := by
  induction cs using cut_induction generalizing start ds with
  | nil =>
    obtain rfl : ds = [] := List.length_eq_zero_iff.1 respelled.letters.length_eq.symm
    exact .nil
  | cons c rest ih =>
    obtain ⟨d, rest', rfl, first, same⟩ := respelled.letters.exists_cons
    have alike := Segment.first_alike first same
    have letters := respelled.letters.take (Segment.first c rest).width
    have cut := pieces_cons start c rest
    -- Both texts are split where the first piece of the first ends.
    have split := respelled
    rw [← List.take_append_drop (Segment.first c rest).width (c :: rest),
      ← List.take_append_drop (Segment.first c rest).width (d :: rest')] at split
    obtain ⟨plain, respelled'⟩ := split.split letters.length_eq (by rwa [List.take_append_drop])
    rw [cut, pieces_cons start d rest', alike.width, ← letters.size_eq]
    exact .cons (alike.piece start respelled.letters plain) (ih respelled')

end Respelled

/-! ### Sources -/

/-- Sources of equal length that differ only in the case of ASCII letters at bytes of keywords and
identifiers of the first. -/
structure CaseVariant (source source' : String) : Prop where
  size : source'.utf8ByteSize = source.utf8ByteSize
  bytes : ∀ i < source.utf8ByteSize, source'.toUTF8.data[i]? = source.toUTF8.data[i]? ∨
    source'.toUTF8.data[i]?.map Bytes.lower = source.toUTF8.data[i]?.map Bytes.lower ∧
      ∃ token ∈ (tokenize source).tokens, token.kind.isWord = true ∧
        token.span.start ≤ i ∧ i < token.span.stop

namespace CaseVariant

variable {source source' : String}

theorem exists_piece {token : Token} (mem : token ∈ (tokenize source).tokens)
    (isWord : token.kind.isWord = true) :
    ∃ piece ∈ pieces 0 0 source.toList, piece.isWord = true ∧ piece.span = token.span := by
  rcases List.mem_append.1 mem with mem | mem
  · obtain ⟨piece, mem, made⟩ := List.mem_filterMap.1 mem
    refine ⟨piece, mem, ?_⟩
    unfold Piece.token? at made
    unfold Piece.isWord
    split at made
    · cases made
      simp_all
    · cases made
  · rw [List.mem_singleton.1 mem] at isWord
    cases isWord

theorem respelled (variant : CaseVariant source source') :
    Respelled 0 source.toList source'.toList := by
  have bytes := variant.bytes
  have size := variant.size
  simp only [← Array.getElem?_toList, Bytes.toList_data_toUTF8] at bytes
  rw [← Bytes.size_toList, ← Bytes.size_toList, ← Bytes.length_utf8, ← Bytes.length_utf8] at size
  rw [← Bytes.size_toList, ← Bytes.length_utf8] at bytes
  have behind : ∀ i, ¬ i < (Bytes.utf8 source.toList).length →
      (Bytes.utf8 source'.toList)[i]? = (Bytes.utf8 source.toList)[i]? := by
    intro i outside
    rw [List.getElem?_eq_none (by omega), List.getElem?_eq_none (by omega)]
  constructor
  · refine .of_bytes (List.ext_getElem? fun i => ?_)
    rw [List.getElem?_map, List.getElem?_map]
    by_cases inside : i < (Bytes.utf8 source.toList).length
    · rcases bytes i inside with same | ⟨same, -⟩
      · rw [same]
      · exact same.symm
    · rw [behind i inside]
  · intro i differs
    have inside := not_imp_comm.1 (behind i) differs
    obtain ⟨-, token, mem, isWord, within⟩ := (bytes i inside).resolve_left differs
    obtain ⟨piece, mem, isWord, span⟩ := exists_piece mem isWord
    exact ⟨piece, mem, isWord, by rw [span, Nat.zero_add]; exact within⟩

/-- The tokens stand in the same places and differ in the case of words at most. -/
theorem tokens (variant : CaseVariant source source') : ∃ front front' : List Token, ∃ mark : EndMark,
    (tokenize source).tokens = front ++ [mark.token] ∧
      (tokenize source').tokens = front' ++ [mark.token] ∧ List.Forall₂ Token.Alike front front' := by
  refine ⟨_, _, ⟨"", .point source.utf8ByteSize⟩, rfl, by rw [← variant.size]; rfl, ?_⟩
  exact List.rel_filterMap (fun _ _ alike => alike.token?) variant.respelled.pieces_alike

/-- The same is wrong with their spelling. -/
theorem diagnostics (variant : CaseVariant source source') :
    (tokenize source').diagnostics = (tokenize source).diagnostics := by
  have cut := variant.respelled.pieces_alike
  unfold tokenize
  dsimp only
  generalize pieces 0 0 source.toList = first, pieces 0 0 source'.toList = second at cut ⊢
  induction cut with
  | nil => rfl
  | cons alike _ ih => rw [List.filterMap_cons, List.filterMap_cons, alike.diagnostic?, ih]

end CaseVariant

end Cql
